import MappedStore.Engine.State

/-!
# Transactions in the engine

A read transaction takes a reader slot and a snapshot, which it can give up and take anew. Write
transactions form a chain: a nested one starts from what its parent sees and hands what it holds
to the parent when it commits, and the commit of the root makes a new image. A transaction that
ends without a commit frees the slots that were opened in it.
-/

namespace MappedStore.Engine

/-! ## Beginnings -/

/-- Take a reader slot for a transaction. Without a lock file there are none to take. -/
def claimReader (engine : Engine) (thread : Nat) (owned : Option Nat) :
    Except Condition (Option Nat × Engine) :=
  if engine.flags.contains EnvFlags.noLock then .ok (none, engine)
  else
    match engine.readers.claim engine.capacity (!engine.flags.contains EnvFlags.noTls) thread
      owned with
    | .error .inUse => .error .badRslot
    | .error .full => .error .readersFull
    | .ok (index, readers) => .ok (some index, { engine with readers := readers })

/-- Begin a read transaction on a thread. -/
def beginRead (engine : Engine) (thread : Nat) : Answer Engine Nat :=
  match engine.claimReader thread none with
  | .error condition => refuse condition engine
  | .ok (reader, engine) =>
      let txn : Txn :=
        { handle := engine.nextHandle
          readOnly := true
          commit := engine.image.commit
          reader := reader
          main := Txn.mainOf engine.image.snapshot
          named := engine.slots.fresh engine.known []
          tables := engine.image.snapshot.named }
      (.ok txn.handle,
        { engine with reading := txn :: engine.reading, nextHandle := engine.nextHandle + 1 })

/-- Begin the root of a chain of write transactions. The image must not have grown beyond the
map. -/
def beginWrite (engine : Engine) : Answer Engine Nat :=
  if engine.pageLimit ≤ engine.image.lastPage then refuse .mapResized engine
  else
    let txn : Txn :=
      { handle := engine.nextHandle
        readOnly := false
        commit := engine.image.commit + 1
        main := Txn.mainOf engine.image.snapshot
        named := engine.slots.fresh engine.known engine.memory
        tables := engine.image.snapshot.named
        nextPage := engine.image.lastPage + 1 }
    (.ok txn.handle,
      { engine with writers := txn :: engine.writers, nextHandle := engine.nextHandle + 1 })

/-- Begin a transaction nested in another. It starts from all that its parent sees. -/
def beginNested (engine : Engine) (parent : Nat) (flags : TxnFlags) : Answer Engine Nat :=
  match engine.txn? parent with
  | none => refuse .badTxn engine
  | some txn =>
      if txn.readOnly then refuseSystem SystemText.invalidArgument engine
      else if flags.contains TxnFlags.readOnly || engine.flags.contains EnvFlags.writeMap
        || engine.isBlocked txn then refuse .badTxn engine
      else
        let nested : Txn :=
          { txn with
            handle := engine.nextHandle
            named := txn.named.map ({ · with fresh := false }) }
        (.ok nested.handle,
          { engine with writers := nested :: engine.writers, nextHandle := engine.nextHandle + 1 })

/-- Begin a transaction: nested in a parent, reading, or writing as a root. -/
def begin (engine : Engine) (parent : Option Nat) (flags : TxnFlags) (thread : Nat) :
    Answer Engine Nat :=
  if engine.flags.contains EnvFlags.readOnly && !flags.contains TxnFlags.readOnly then
    refuseSystem SystemText.denied engine
  else
    match parent with
    | some parent => engine.beginNested parent flags
    | none =>
        if flags.contains TxnFlags.readOnly then engine.beginRead thread else engine.beginWrite

/-! ## Endings -/

/-- Keep the tables that a transaction leaves in its slots. -/
def remember (memory : List (Option Table)) (named : List TxnSlot) : List (Option Table) :=
  named.map (fun content ↦ if content.unread then none else some content.table)
    ++ memory.drop named.length

/-- Stop reading through the reader slot of a transaction; with `release` the transaction also
gives the slot up, unless it belongs to a thread. -/
def leaveReader (engine : Engine) (txn : Txn) (release : Bool) : Engine :=
  match txn.reader with
  | none => engine
  | some index =>
      let readers :=
        if release && engine.flags.contains EnvFlags.noTls then engine.readers.release index
        else engine.readers.rest index
      { engine with readers := readers }

/-- End a read transaction. Its opens are kept only by a commit. -/
def endReader (engine : Engine) (txn : Txn) (keep : Bool) : Engine :=
  let engine := engine.leaveReader txn true
  let engine := { engine with reading := engine.reading.filter (·.handle ≠ txn.handle) }
  if txn.idle then engine
  else if keep then
    { engine with
      slots := engine.slots.keep txn.named
      known := max engine.known txn.named.length }
  else { engine with slots := engine.slots.discard txn.named }

/-- End write transactions without a commit, the innermost first, up to and with a handle. -/
def abortWriters (engine : Engine) (handle : Nat) : List Txn → Engine
  | [] => { engine with writers := [] }
  | txn :: rest =>
      let engine :=
        { engine with
          slots := engine.slots.discard txn.named
          memory := if rest.isEmpty then remember engine.memory txn.named else engine.memory }
      if txn.handle = handle then { engine with writers := rest }
      else engine.abortWriters handle rest

/-- End a transaction, with those nested in it, without a commit. -/
def abort (engine : Engine) (handle : Nat) : Engine :=
  match engine.txn? handle with
  | none => engine
  | some txn =>
      if txn.readOnly then engine.endReader txn false
      else engine.abortWriters handle engine.writers

/-- Hand what the innermost transaction holds to its parent. A slot that the parent opened stays
one that it opened. -/
def absorb (parent txn : Txn) : Txn :=
  { txn with
    handle := parent.handle
    changed := parent.changed || txn.changed
    named := txn.named.mapIdx fun index content ↦
      { content with fresh := content.fresh || (parent.named.getD index {}).fresh } }

/-- Record the tables of the dirty slots, in the order of slots, in the main table. -/
def record (slots : SlotTable) (limit : Nat) (txn : Txn) : List Nat → Answer Txn Unit
  | [] => (.ok (), txn)
  | slot :: rest =>
      match txn.slot? slot with
      | none => record slots limit txn rest
      | some content =>
          if !content.dirty then record slots limit txn rest
          else if txn.isOutdated slots slot content then refuse .badDbi txn
          else
            let name := (slots.info slot).name
            if name.isEmpty then refuse .badValSize txn
            else
              match txn.touch limit slots mainSlot with
              | (.error code, txn) => (.error code, txn)
              | (.ok (), txn) =>
                  let snapshot := txn.snapshot.store name content.table
                  record slots limit
                    { txn with
                      main := { txn.main with table := snapshot.main }
                      tables := snapshot.named }
                    rest

/-- Whether the commit of a root transaction gives up pages of the image: those of the main tree
that it has changed. -/
def givesUpPages (engine : Engine) (txn : Txn) : Bool :=
  (txn.main.touched || txn.main.dirty) && engine.image.treePages + engine.image.listPages > 0

/-- Write what a root transaction leaves to be written: the tables of its dirty slots, and the list
of the pages that it gives up. -/
def flush (engine : Engine) (txn : Txn) : Answer Txn Unit :=
  match record engine.slots engine.pageLimit txn
    ((List.range txn.named.length).map (· + firstSlot)) with
  | (.error code, txn) => (.error code, txn)
  | (.ok (), txn) => txn.claim engine.pageLimit (if engine.givesUpPages txn then 1 else 0)

/-- Make what a root transaction wrote the committed image. -/
def publish (engine : Engine) (txn : Txn) : Engine :=
  let treePages := txn.snapshot.pages
  let listPages := if engine.givesUpPages txn then 1 else engine.image.listPages
  { engine with
    image :=
      { snapshot := txn.snapshot
        commit := txn.commit
        treePages := treePages
        listPages := listPages
        heldPages :=
          if engine.givesUpPages txn then
            txn.nextPage - 2 - engine.image.heldPages - treePages - listPages
          else 0
        mapSize := max engine.image.mapSize engine.mapSize } }

/-- End a root write transaction whose opens are kept. -/
def endWriter (engine : Engine) (txn : Txn) : Engine :=
  { engine with
    writers := []
    slots := engine.slots.keep txn.named
    known := max engine.known txn.named.length
    memory := remember engine.memory txn.named }

/-- Commit the innermost write transaction: into its parent, or as a root into a new image. A
transaction that changed nothing writes nothing. -/
def commitWriter (engine : Engine) (txn : Txn) (outer : List Txn) : Answer Engine Unit :=
  match outer with
  | parent :: rest =>
      if txn.broken then
        refuse .badTxn
          ({ engine with
              writers := txn :: { parent with broken := true } :: rest }.abort txn.handle)
      else (.ok (), { engine with writers := absorb parent txn :: rest })
  | [] =>
      if txn.broken then refuse .badTxn (engine.abort txn.handle)
      else if !txn.changed then (.ok (), engine.endWriter txn)
      else
        match engine.flush txn with
        | (.error code, txn) => (.error code, (engine.replace txn).abort txn.handle)
        | (.ok (), txn) => (.ok (), (engine.publish txn).endWriter txn)

/-- Commit a transaction. Among writers only the innermost can be committed. A failed commit ends
the transaction all the same. -/
def commit (engine : Engine) (handle : Nat) : Answer Engine Unit :=
  match engine.txn? handle with
  | none => refuseSystem SystemText.invalidArgument engine
  | some txn =>
      if txn.readOnly then (.ok (), engine.endReader txn true)
      else
        match engine.writers with
        | [] => refuse .badTxn engine
        | innermost :: outer =>
            if innermost.handle = handle then engine.commitWriter innermost outer
            else refuse .badTxn (engine.abort handle)

/-- Give up the snapshot of a read transaction, and the slots that it opened, but keep the
transaction. -/
def reset (engine : Engine) (handle : Nat) : Engine :=
  match engine.txn? handle with
  | none => engine
  | some txn =>
      if !txn.readOnly || txn.idle then engine
      else
        let engine := engine.leaveReader txn false
        let reader := if engine.flags.contains EnvFlags.noTls then txn.reader else none
        { engine.replace { txn with idle := true, reader := reader } with
          slots := engine.slots.discard txn.named }

/-- Take a new snapshot for a reset transaction. -/
def renew (engine : Engine) (handle thread : Nat) : Answer Engine Unit :=
  match engine.txn? handle with
  | none => refuseSystem SystemText.invalidArgument engine
  | some txn =>
      if !txn.idle then refuseSystem SystemText.invalidArgument engine
      else
        match engine.claimReader thread txn.reader with
        | .error condition => refuse condition engine
        | .ok (reader, engine) =>
            (.ok (),
              engine.replace
                { txn with
                  idle := false
                  commit := engine.image.commit
                  reader := reader
                  main := Txn.mainOf engine.image.snapshot
                  named := engine.slots.fresh engine.known (remember [] txn.named)
                  tables := engine.image.snapshot.named })

/-- Give up the reader slot of a thread that ends. -/
def endThread (engine : Engine) (thread : Nat) : Engine :=
  { engine with readers := engine.readers.endThread thread }

end MappedStore.Engine
