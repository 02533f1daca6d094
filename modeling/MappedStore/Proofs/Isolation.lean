import MappedStore.Proofs.Bystanders
import MappedStore.Proofs.Identity

/-!
# Isolation of readers

A reader answers from the image that was committed when it began or was last renewed. Two actions of
others get in its way. One changes the occupant of a slot that the reader has not read yet, and from
then on the slot leads to the database of the new occupant (`Uproots`); the other is the commit of a
root that has dropped the slot of a handle or opened it anew, after which the handle is rejected
(`ShutsOut`). `System.reader_isolated` says that nothing else does, and what these do.
-/

namespace MappedStore

namespace Engine

/-- The content of the database behind a slot that a name occupies. -/
def Snapshot.behind (snapshot : Snapshot) (slot : Nat) (name : Bytes) : Table :=
  if slot = mainSlot then snapshot.main else snapshot.table name

variable {engine after : Engine} {handle slot : Nat} {txn found : Txn} {content : TxnSlot}
  {table : Table}

/-- A reader that has just taken the committed image as its snapshot. -/
structure Txn.Starts (engine : Engine) (txn : Txn) : Prop where
  mem : txn ∈ engine.reading
  main : txn.main = mainOf engine.image.snapshot
  tables : txn.tables = engine.image.snapshot.named
  named : ∃ memory, txn.named = engine.slots.fresh engine.known memory

namespace Txn.Starts

/-- A reader starts from the committed image. -/
theorem snapshot (h : Starts engine txn) : txn.snapshot = engine.image.snapshot := by
  simp [Txn.snapshot, h.main, h.tables, mainOf]

/-- What a reader holds of a named slot when it starts. -/
theorem fresh (h : Starts engine txn) {index : Nat} (hcontent : txn.named[index]? = some content) :
    content.stale = content.usable ∧
      content.table.flags = (engine.slots.info (index + firstSlot)).flags := by
  obtain ⟨memory, hnamed⟩ := h.named
  rw [hnamed, SlotTable.fresh, List.getElem?_map] at hcontent
  obtain ⟨position, hposition, rfl⟩ := Option.map_eq_some_iff.mp hcontent
  obtain ⟨hlt, hposition⟩ := List.getElem?_eq_some_iff.mp hposition
  obtain rfl : index = position := by simpa using hposition
  exact ⟨rfl, rfl⟩

/-- A slot that a reader has not read has the flags that it was known to have. -/
theorem flags_of_unread (h : Starts engine txn) (hcontent : txn.slot? slot = some content)
    (hstale : content.stale = true) : content.table.flags = (engine.slots.info slot).flags := by
  rcases slot with _ | _ | index
  · simp [Txn.slot?] at hcontent
  · obtain rfl : txn.main = content := Option.some.inj hcontent
    simp [h.main, mainOf] at hstale
  · exact (h.fresh hcontent).2

/-- What a reader sees when it starts is the committed content of the database that occupies the
slot. -/
theorem sees (h : Starts engine txn) (hreader : txn.readOnly = true)
    (hsees : txn.Sees engine.slots slot table) :
    table = engine.image.snapshot.behind slot (engine.slots.info slot).name := by
  obtain ⟨content, loaded, husable, hload, rfl⟩ := hsees
  obtain ⟨hcontent, hready, -⟩ := slot?_of_usable? husable
  rcases slot with _ | _ | index
  · simp [Txn.slot?] at hcontent
  · obtain rfl : txn.main = content := Option.some.inj hcontent
    obtain rfl := (load_follows hload).2.2 (by simp [h.main, mainOf])
    rw [h.main]
    rfl
  · have hstale : content.stale = true := (h.fresh hcontent).1.trans hready
    rw [Txn.load_stale hstale (Txn.isOutdated_of_readOnly hreader _ _ _), h.snapshot] at hload
    cases hlookup : engine.image.snapshot.lookup (engine.slots.info (index + 2)).name
        content.table.flags with
    | error condition =>
        rw [hlookup] at hload
        simp [Except.map] at hload
    | ok found =>
        rw [hlookup] at hload
        obtain rfl := Except.ok.inj hload
        exact Snapshot.table_of_lookup hlookup

end Txn.Starts

/-- A new reader starts from the committed image. -/
theorem starts_of_began {flags : TxnFlags} (h : Began engine none flags handle after)
    (hflags : flags.contains TxnFlags.readOnly = true) :
    ∃ txn : Txn, txn.handle = handle ∧ txn.Starts after := by
  cases h with
  | reading readers reader =>
      exact ⟨engine.newReader reader, rfl, List.mem_cons_self, rfl, rfl, [], rfl⟩
  | root _ hwrites => simp [hflags] at hwrites
  | nested hparent => simp at hparent

/-- A reader that is renewed starts from the committed image. -/
theorem starts_of_renewed (h : Renewed engine handle after)
    (hfound : ∀ txn, engine.txn? handle = some txn → txn ∈ engine.reading) :
    ∃ txn : Txn, txn.handle = handle ∧ txn.Starts after := by
  cases h with
  | @mk txn readers reader htxn hidle =>
      refine ⟨_, ?_, List.mem_map.mpr ⟨txn, hfound txn htxn, if_pos rfl⟩, rfl, rfl,
        remember [] txn.named, rfl⟩
      show txn.handle = handle
      exact handle_of_txn? htxn

/-- A read through the transaction with a handle leaves it after one read. -/
theorem peeked_use (htxn : engine.txn? handle = some txn) (key : Bytes) :
    (∃ peeked, Txn.Peeked engine.slots txn peeked ∧
        engine.use handle (.get slot key) = engine.replace peeked) ∧
      ∃ peeked, Txn.Peeked engine.slots txn peeked ∧
        engine.use handle (.stat slot) = engine.replace peeked := by
  constructor
  · exact ⟨_, txn.peeked_get engine.slots (engine.isBlocked txn) slot key,
      by simp [use, get, onTxn, htxn]⟩
  · exact ⟨_, txn.peeked_stat engine.slots (engine.isBlocked txn) slot,
      by simp [use, statOf, onTxn, htxn]⟩

end Engine

namespace System

variable {system : System} {action start : Action} {reader : TxnId} {database : Database}
  {found : Engine.Txn} {table : Engine.Table}

/-! ## Starts -/

/-- The actions with which the reading of a reader starts: its begin, or a renewal. -/
inductive Starts (system : System) (reader : TxnId) : Action → Prop where
  | begun {env : EnvId} {flags : TxnFlags} {thread : Nat}
      (hflags : flags.contains TxnFlags.readOnly = true)
      (hbegin : (system.begin env none flags thread).result = .ok reader) :
      Starts system reader (.begin env none flags thread)
  | renewed (hrenew : (system.renew reader).result = .ok ()) : Starts system reader (.renew reader)

/-- The engine of a process has a reader under the handle of a transaction. -/
structure Attends (system : System) (reader : TxnId) (found : Engine.Txn) : Prop where
  mem : found ∈ (system.engineOf reader).reading
  handle : found.handle = system.native reader

/-- The engine finds a reader under its handle, and knows that it only reads. -/
theorem Attends.known (h : Attends system reader found) (hsound : Sound system) :
    (system.engineOf reader).txn? (system.native reader) = some found ∧
      found.readOnly = true := by
  have hroster := hsound.anchored.roster (system.transaction reader).env
  refine ⟨?_, hroster.reading found h.mem⟩
  rw [← h.handle]
  exact hroster.txn?_handle (List.mem_append_right _ h.mem)

/-- A reader whose reading starts takes the committed image as its snapshot. -/
theorem Starts.started (h : Starts system reader start) (hsound : Sound system) :
    (system.after start).transactions.length > reader ∧
      ∃ found, Attends (system.after start) reader found ∧
        found.Starts ((system.after start).engineOf reader) := by
  cases h with
  | @begun env flags thread hflags hbegin =>
      obtain ⟨rfl, native, engine, hentrance⟩ := entrance_of_begin hbegin
      obtain ⟨txn, hhandle, hstarts⟩ := Engine.starts_of_began hentrance.began hflags
      rw [hentrance.length_eq, hentrance.engineOf_eq]
      refine ⟨Nat.lt_succ_self _, txn, ⟨?_, ?_⟩, hstarts⟩
      · rw [hentrance.engineOf_eq]
        exact hstarts.mem
      · rw [hentrance.native_eq]
        exact hhandle
  | renewed hrenew =>
      obtain ⟨engine, hreset, hengine, hstate⟩ := renew_ok hrenew
      have hlt := lt_of_state hreset rfl
      have hafter : system.after (.renew reader) =
        (system.setEngineOf reader engine).setState reader .active := hstate
      have hidentity := (hsound.transition (.renew reader)).identity hlt
      obtain ⟨txn, hhandle, hstarts⟩ := Engine.starts_of_renewed (renewed_of_renew hengine)
        fun txn htxn ↦ reader_of_reset hsound.anchored hsound.chained htxn hreset
      have hplace : (system.after (.renew reader)).engineOf reader = engine := by
        rw [engineOf, show ((system.after (.renew reader)).transaction reader).env = _ from
          congrArg (·.1) hidentity, hafter, engine_setState]
        exact engine_setEngine engine (hsound.anchored.env_lt reader hlt)
      refine ⟨?_, txn, ⟨hplace ▸ hstarts.mem, ?_⟩, hplace ▸ hstarts⟩
      · rw [hafter, setState, length_modifyTransaction]
        exact hlt
      · exact hhandle.trans (congrArg (·.2.1) hidentity).symm

/-! ## Steps -/

/-- The actions that let a reader go on: those of others, and its own reads. Only the environment
must stay open. -/
structure Leaves (reader : TxnId) (env : EnvId) (action : Action) : Prop where
  reads : action.through? = some reader → action.isRead = true
  stays : action ≠ .close env

/-- What a read lets the engine do is a read. -/
theorem use_of_read {txn : TxnId} {use : Engine.Use} (hread : action.isRead = true)
    (haction : action.use? = some (txn, use)) :
    (∃ slot key, use = .get slot key) ∨ ∃ slot, use = .stat slot := by
  cases action with
  | get txn database key =>
      simp only [Action.use?, Option.some.injEq, Prod.mk.injEq] at haction
      exact .inl ⟨_, _, haction.2.symm⟩
  | stat txn database =>
      simp only [Action.use?, Option.some.injEq, Prod.mk.injEq] at haction
      exact .inr ⟨_, haction.2.symm⟩
  | _ => simp [Action.isRead] at hread

/-- A reader after an action that lets it go on. It is as it was, or it has read through a slot. -/
theorem Sound.attends (h : Sound system) (hreader : reader < system.transactions.length)
    (hfound : Attends system reader found)
    (hreads : action.through? = some reader → action.isRead = true)
    (hkept : (system.after action).transaction reader = system.transaction reader) :
    action.through? ≠ some reader ∧ Attends (system.after action) reader found ∨
      ((system.after action).engineOf reader).slots = (system.engineOf reader).slots ∧
        ∃ peeked, Attends (system.after action) reader peeked ∧
          Engine.Txn.Peeked (system.engineOf reader).slots found peeked := by
  have henv : (system.after action).engineOf reader
      = (system.after action).engine (system.transaction reader).env := by
    rw [engineOf, hkept]
  have hnative : (system.after action).native reader = system.native reader :=
    congrArg (·.native) hkept
  by_cases hthrough : action.through? = some reader
  · refine .inr ?_
    obtain ⟨htxn, -⟩ := hfound.known h
    -- A read replaces the reader by one that has peeked at a slot, and leaves the slots alone.
    have hpeeked : ∀ use, (∃ peeked, Engine.Txn.Peeked (system.engineOf reader).slots found peeked ∧
          (system.engineOf reader).use (system.native reader) use
            = (system.engineOf reader).replace peeked) →
        ((system.setEngineOf reader ((system.engineOf reader).use (system.native reader)
            use)).engineOf reader).slots = (system.engineOf reader).slots ∧
          ∃ peeked, Attends (system.setEngineOf reader ((system.engineOf reader).use
              (system.native reader) use)) reader peeked ∧
            Engine.Txn.Peeked (system.engineOf reader).slots found peeked := by
      rintro use ⟨peeked, hpeeked, huse⟩
      have hset : (system.setEngineOf reader ((system.engineOf reader).use (system.native reader)
          use)).engineOf reader = (system.engineOf reader).replace peeked := by
        rw [huse]
        exact engine_setEngine _ (h.anchored.env_lt reader hreader)
      refine ⟨by rw [hset]; rfl, peeked, ⟨?_, ?_⟩, hpeeked⟩
      · rw [hset]
        exact List.mem_map.mpr ⟨found, hfound.mem, if_pos hpeeked.handle.symm⟩
      · exact hpeeked.handle.trans hfound.handle
    have htransition := h.transition action
    generalize system.after action = after at *
    have hread := hreads hthrough
    cases htransition with
    | idle | files => exact ⟨rfl, found, ⟨hfound.mem, hfound.handle⟩, .same⟩
    | aside files haction => simp [haction] at hthrough
    | @used _ txn use haction hfault =>
        obtain rfl : txn = reader :=
          Option.some.inj ((through_of_use haction).symm.trans hthrough)
        rcases use_of_read hread haction with ⟨slot, key, rfl⟩ | ⟨slot, rfl⟩
        · exact hpeeked _ (Engine.peeked_use htxn key).1
        · exact hpeeked _ (Engine.peeked_use htxn []).2
    | discarded haction => rcases haction with rfl | rfl <;> simp [Action.isRead] at hread
    | openedEnvironment | closed | reopened | opened | dropped | began | committed | commitFailed
    | reset | renewed => simp [Action.isRead] at hread
  · exact .inl ⟨hthrough, henv ▸ h.reading_kept hreader hfound.mem hfound.handle hthrough,
      hfound.handle.trans hnative.symm⟩

/-- The actions that let a reader go on leave the transaction as it is. -/
theorem Attends.transaction_kept (h : Attends system reader found) (hreachable : Reachable system)
    (hreader : reader < system.transactions.length)
    (hreads : action.through? = some reader → action.isRead = true) :
    (system.after action).transaction reader = system.transaction reader := by
  have hsound := hreachable.sound
  have htransition := hsound.transition action
  have hstep : Run anything system (system.after action) := .single action trivial
  have hafter := hreachable.run hstep
  have hreadOnly := ((hsound.attended.readers _).owner hsound.anchored hreader rfl h.mem
    h.handle).1
  refine htransition.transaction_kept hreader hreads fun txn hparent ↦ ?_
  have hwriter := hafter.writer_of_parent hparent
  have hsame := congrArg (·.2.2.1) (htransition.identity hreader)
  have hwriterBefore : (system.transaction reader).readOnly = false := hsame.symm.trans hwriter
  simp [hwriterBefore] at hreadOnly

/-! ## Answers -/

/-- What a transaction answers to reads through a handle, when looking for the database gives a
table or fails. -/
structure Answers (system : System) (txn : TxnId) (database : Database)
    (table : Except Condition Engine.Table) : Prop where
  get : ∀ key, key ≠ [] → key.length ≤ Engine.maxKeySize →
    (system.get txn database key).result =
      match table with
      | .ok table => .ok (table.value key)
      | .error .notFound => .ok none
      | .error condition => .error (.error (.ofCode condition.code))
  stat : ∀ found, table = .ok found → (system.stat txn database).result = .ok found.stat

/-- A transaction rejects reads through a handle. -/
structure Rejects (system : System) (txn : TxnId) (database : Database) : Prop where
  get : ∀ key, (system.get txn database key).result
    = .error (.error (.databaseNotRetained database.slot))
  stat : (system.stat txn database).result
    = .error (.error (.databaseNotRetained database.slot))

/-- A transaction answers from what it can load through the slot of a handle that it admits, if the
engine does not block it. -/
theorem Admits.answers (h : Admits system reader database)
    (htxn : (system.engineOf reader).txn? (system.native reader) = some found)
    (hblocked : (system.engineOf reader).isBlocked found = false)
    {content : Engine.TxnSlot} (husable : found.usable? database.slot = some content) :
    Answers system reader database
      ((found.load (system.engineOf reader).slots database.slot content).map (·.table)) := by
  constructor
  · intro key hne hlength
    have hgate := h.gateFault (some key) fun bytes hbytes ↦ Option.some.inj hbytes ▸ hlength
    rw [get_eq hgate htxn husable hblocked hne]
    cases found.load (system.engineOf reader).slots database.slot content with
    | ok loaded => rfl
    | error condition => cases condition <;> rfl
  · intro table htable
    rw [stat_eq (h.gateFault none nofun) htxn husable hblocked]
    cases hload : found.load (system.engineOf reader).slots database.slot content with
    | ok loaded =>
        rw [hload] at htable
        exact congrArg (fun table : Engine.Table ↦ Except.ok table.stat) (Except.ok.inj htable)
    | error condition =>
        rw [hload] at htable
        simp [Except.map] at htable

/-- A reader answers from what it can load through the slot. -/
theorem Attends.answers (h : Attends system reader found) (hsound : Sound system)
    (hadmits : Admits system reader database) (hbroken : found.broken = false)
    {content : Engine.TxnSlot} (husable : found.usable? database.slot = some content) :
    Answers system reader database
      ((found.load (system.engineOf reader).slots database.slot content).map (·.table)) := by
  obtain ⟨htxn, hreadOnly⟩ := h.known hsound
  exact hadmits.answers htxn (by simp [Engine.isBlocked, hbroken, hreadOnly]) husable

/-- What a reader sees of a database. The origin is the reader as it was when its reading
started. -/
structure Observes (system : System) (origin : Engine.Txn) (reader : TxnId) (database : Database)
    (table : Engine.Table) : Prop where
  lt : reader < system.transactions.length
  admits : Admits system reader database
  sees : ∃ found, Attends system reader found ∧ origin.HasRead found ∧
    found.Sees (system.engineOf reader).slots database.slot table

/-- A reader answers from the table that it sees. -/
theorem Observes.answers {origin : Engine.Txn}
    (h : Observes system origin reader database table) (hsound : Sound system)
    (hbroken : origin.broken = false) : Answers system reader database (.ok table) := by
  obtain ⟨found, hattends, hread, content, loaded, husable, hload, rfl⟩ := h.sees
  have hanswers := hattends.answers hsound h.admits (hread.broken.trans hbroken) husable
  rw [hload] at hanswers
  exact hanswers

/-- An action that changes the occupant of a slot which a reader has not read yet. -/
structure Uproots (reader : TxnId) (slot : Nat) (system : System) (action : Action) : Prop where
  unread : ∃ found, Attends system reader found ∧ found.Unread slot
  occupant : ((system.after action).occupant (system.transaction reader).env slot).name
    ≠ (system.occupant (system.transaction reader).env slot).name

/-- A handle stays one that can be used by a reader, unless the commit of a root shuts it out. -/
theorem Admits.act (h : Admits system reader database) (hsound : Sound system)
    (hreader : reader < system.transactions.length) (hattends : Attends system reader found)
    (hkept : (system.after action).transaction reader = system.transaction reader)
    (hclose : action ≠ .close database.env)
    (hstays : ∀ root, action = .commit root → ¬ ShutsOut reader database system root) :
    Admits (system.after action) reader database := by
  have hreadOnly := ((hsound.attended.readers _).owner hsound.anchored hreader rfl hattends.mem
    hattends.handle).1
  refine ⟨hkept.symm ▸ h.lifecycle, hkept.symm ▸ h.env_eq, fun hchecks ↦ ?_⟩
  have hchecksBefore := (hsound.transition action).checks.symm.trans hchecks
  exact hsound.accepts_kept hreader (hsound.attended.root reader hreadOnly) h.env_eq hkept hclose
    hchecksBefore hstays (h.accepts hchecksBefore)

/-- An action that lets a reader go on changes nothing that it sees, unless it uproots the slot or
shuts out the handle. -/
theorem Observes.act {origin : Engine.Txn} (h : Observes system origin reader database table)
    (hreachable : Reachable system) (hleaves : Leaves reader database.env action)
    (hstays : ∀ root, action = .commit root → ¬ ShutsOut reader database system root)
    (hrooted : ¬ Uproots reader database.slot system action) :
    Observes (system.after action) origin reader database table := by
  have hsound := hreachable.sound
  obtain ⟨found, hattends, hread, hsees⟩ := h.sees
  have hkept := hattends.transaction_kept hreachable h.lt hleaves.reads
  have hmain := (hreachable.coherent (system.transaction reader).env found
    (List.mem_append_right _ hattends.mem)).mainStale
  refine ⟨(hsound.transition action).lt_length h.lt,
    h.admits.act hsound h.lt hattends hkept hleaves.stays hstays, ?_⟩
  rcases hsound.attends h.lt hattends hleaves.reads hkept with
    ⟨-, hafter⟩ | ⟨hslots, peeked, hafter, hpeeked⟩
  · refine ⟨found, hafter, hread, hsees.of_occupant (hattends.known hsound).2 fun hunread ↦ ?_⟩
    by_contra hname
    rw [engineOf, hkept] at hname
    exact hrooted ⟨⟨found, hattends, hunread⟩, hname⟩
  · rw [hslots]
    exact ⟨peeked, hafter, hread.trans (hpeeked.hasRead hmain), hsees.peeked hpeeked hmain⟩

/-! ## Disturbances -/

/-- A successful commit leaves the occupants of all slots. -/
theorem occupant_commit (hsound : Sound system) {txn : TxnId}
    (hcommit : (system.commit txn).result = .ok ()) (env : EnvId) (slot : Nat) :
    ((system.after (.commit txn)).occupant env slot).name = (system.occupant env slot).name := by
  obtain ⟨engine, hfault, hengine, hstate⟩ := commit_ok hcommit
  have hnames : (engine.slots.info slot).name = ((system.engineOf txn).slots.info slot).name :=
    ((committed_of_commit (hsound.anchored.roster _) hengine).occupants slot).1
  have hafter : (system.after (.commit txn)).engine env
      = (system.setEngineOf txn engine).engine env := by
    rw [show system.after (.commit txn) = _ from hstate, engine_finish, engine_handOver]
  rw [occupant, occupant, hafter]
  exact engine_setEngine_induction
    (fun before after ↦ (after.slots.info slot).name = (before.slots.info slot).name)
    (fun _ ↦ rfl) hnames env

/-- What gets in the way of a reader that uses a handle. -/
def Disturbs (reader : TxnId) (database : Database) (system : System) (action : Action) : Prop :=
  (∃ root, action = .commit root ∧ ShutsOut reader database system root) ∨
    Uproots reader database.slot system action

/-- A handle that a reader can use: the gate lets its reads through, and the engine has a table
behind the slot. -/
structure Usable (system : System) (reader : TxnId) (database : Database) : Prop where
  admitted : system.gateFault reader { database := database } = none
  readable : ∃ found table, (system.engineOf reader).txn? (system.native reader) = some found ∧
    (system.engineOf reader).isBlocked found = false ∧
    found.Sees (system.engineOf reader).slots database.slot table

/-- A handle through which a key is found can be used. -/
theorem usable_of_found {key value : Bytes}
    (h : (system.get reader database key).result = .ok (some value)) :
    Usable system reader database := by
  obtain ⟨hgate, found, content, hfound, husable, hblocked, hkey⟩ := usable_of_get h
  rw [get_eq hgate hfound husable hblocked hkey] at h
  have hadmits := admits_of_gateFault hgate
  cases hload : found.load (system.engineOf reader).slots database.slot content with
  | ok loaded =>
      exact ⟨hadmits.gateFault none nofun, found, loaded.table, hfound, hblocked, content, loaded,
        husable, hload, rfl⟩
  | error condition =>
      rw [hload] at h
      cases condition <;> simp at h

/-- The last committed content of the database that occupies a slot. -/
def stored (system : System) (env : EnvId) (slot : Nat) : Engine.Table :=
  (system.engine env).image.snapshot.behind slot (system.occupant env slot).name

/-- A reader whose reading has just started sees the last committed content. -/
theorem Starts.observes {before : System} (h : Starts before reader start)
    (hsound : Sound before) (husable : Usable (before.after start) reader database) :
    ∃ origin, origin.Starts ((before.after start).engineOf reader) ∧ origin.broken = false ∧
      Observes (before.after start) origin reader database
        ((before.after start).stored database.env database.slot) := by
  obtain ⟨hlt, origin, hattends, hstarts⟩ := h.started hsound
  have hadmits := admits_of_gateFault husable.admitted
  obtain ⟨found, table, hfound, hblocked, hsees⟩ := husable.readable
  obtain ⟨htxn, hreadOnly⟩ := hattends.known (hsound.act start)
  obtain rfl : found = origin := Option.some.inj (hfound.symm.trans htxn)
  have hbroken : found.broken = false := (Bool.or_eq_false_iff.mp hblocked).1
  have htable := hstarts.sees hreadOnly hsees
  refine ⟨found, hstarts, hbroken, hlt, hadmits, found, hattends, .refl found, ?_⟩
  rw [stored, occupant, hadmits.env_eq, ← engineOf, ← htable]
  exact hsees

/-- A handle that was shut out is rejected. -/
theorem Observes.rejects {origin : Engine.Txn} (h : Observes system origin reader database table)
    (hreachable : Reachable system) {root : TxnId}
    (hshut : ShutsOut reader database system root) :
    Rejects (system.after (.commit root)) reader database := by
  have hsound := hreachable.sound
  obtain ⟨found, hattends, -, -⟩ := h.sees
  have hne : root ≠ reader := by
    rintro rfl
    obtain ⟨record, hrecord, -⟩ := hshut.recorded
    simp [hshut.unrecorded] at hrecord
  have hreads : (Action.commit root).through? = some reader →
      (Action.commit root).isRead = true := fun hthrough ↦
    absurd (Option.some.inj hthrough) hne
  have hkept := hattends.transaction_kept hreachable h.lt hreads
  have hreadOnly := ((hsound.attended.readers _).owner hsound.anchored h.lt rfl hattends.mem
    hattends.handle).1
  have hlive := hshut.live_ne hsound (hsound.attended.root reader hreadOnly) h.admits.env_eq hkept
  have hchecks : (system.after (.commit root)).checks = true :=
    (hsound.transition _).checks.trans hshut.checks
  have hgate : ∀ key, (system.after (.commit root)).gateFault reader
      { database := database, key := key } = some (.databaseNotRetained database.slot) := by
    intro key
    have hguard : (system.after (.commit root)).guardFault reader
        { database := database, key := key } = none := by
      simp [guardFault, hkept, h.admits.lifecycle, h.admits.env_eq]
    rw [gateFault_of_not_live hchecks hlive, hguard]
    rfl
  exact ⟨fun key ↦ (withAccess_refused _ (hgate (some key))).1,
    (withAccess_refused _ (hgate none)).1⟩

/-- After its slot was uprooted, a reader answers for the new occupant. -/
theorem Observes.uprooted {origin : Engine.Txn} {before : System}
    (h : Observes system origin reader database table) (hreachable : Reachable system)
    (hbroken : origin.broken = false) (hstarts : origin.Starts (before.engine database.env))
    (hleaves : Leaves reader database.env action)
    (huproots : Uproots reader database.slot system action) :
    Answers (system.after action) reader database
      ((before.engine database.env).image.snapshot.lookup
        ((system.after action).occupant database.env database.slot).name
        (before.occupant database.env database.slot).flags) := by
  have hsound := hreachable.sound
  obtain ⟨found, hattends, hread, content, loaded, husable, hload, -⟩ := h.sees
  obtain ⟨htxn, hreadOnly⟩ := hattends.known hsound
  have hkept := hattends.transaction_kept hreachable h.lt hleaves.reads
  have hadmits := h.admits.act hsound h.lt hattends hkept hleaves.stays fun root haction hshut ↦ by
    subst haction
    exact huproots.occupant (occupant_commit hsound hshut.committed _ _)
  have hengine : (system.after action).engineOf reader
      = (system.after action).engine database.env := by
    rw [engineOf, hkept, h.admits.env_eq]
  rcases hsound.attends h.lt hattends hleaves.reads hkept with
    ⟨-, hafter⟩ | ⟨hslots, -⟩
  · obtain ⟨same, hsame, kept, hkeptSlot, hstale⟩ := huproots.unread
    obtain rfl : same = found := Option.some.inj ((hsame.known hsound).1.symm.trans htxn)
    obtain rfl : kept = content := Option.some.inj
      (hkeptSlot.symm.trans (Engine.Txn.slot?_of_usable? husable).1)
    have hanswers := hafter.answers (hsound.act action) hadmits (hread.broken.trans hbroken) husable
    rw [Engine.Txn.load_stale hstale (Engine.Txn.isOutdated_of_readOnly hreadOnly _ _ _),
      hread.snapshot, hstarts.snapshot,
      hstarts.flags_of_unread (hread.slot?_unread hkeptSlot hstale) hstale, hengine] at hanswers
    rw [occupant, occupant]
    cases hlookup : (before.engine database.env).image.snapshot.lookup
        (((system.after action).engine database.env).slots.info database.slot).name
        ((before.engine database.env).slots.info database.slot).flags with
    | ok found =>
        rw [hlookup] at hanswers
        exact hanswers
    | error condition =>
        rw [hlookup] at hanswers
        exact hanswers
  · refine absurd ?_ huproots.occupant
    rw [occupant, occupant, ← h.admits.env_eq, ← hengine, hslots, engineOf, h.admits.env_eq]

/-- A reader sees the same along any run that does not disturb it. -/
theorem Observes.run {origin : Engine.Txn} {last : System}
    (h : Observes system origin reader database table) (hreachable : Reachable system)
    (hrun : Run (fun system action ↦ Leaves reader database.env action ∧
      ¬ Disturbs reader database system action) system last) :
    Observes last origin reader database table := by
  induction hrun with
  | nil => exact h
  | step run hallowed ih =>
      obtain ⟨hleaves, hdisturbs⟩ := hallowed
      obtain ⟨hshut, hrooted⟩ := not_or.mp hdisturbs
      exact ih.act (hreachable.run run) hleaves (fun root haction h ↦ hshut ⟨root, haction, h⟩)
        hrooted

/-- Through a handle that it could use when it began or was last renewed, a reader answers with the
content that was last committed then, whatever others do, up to the first action that disturbs it.

Only two kinds of actions do. After the commit of a root that has dropped the slot of the handle, or
opened it anew, the handle is rejected, if the reader has not opened the database itself. After the
occupant of a slot has changed before the reader has read it, the reader looks for the new occupant
in its snapshot: it finds the database of another name, or none and answers that the keys are
absent, or one whose flags are others and fails. -/
theorem reader_isolated {before last : System} (hbefore : Reachable before)
    (hstart : Starts before reader start) (husable : Usable (before.after start) reader database)
    (hrun : Run (fun system action ↦ Leaves reader database.env action ∧
      ¬ Disturbs reader database system action) (before.after start) last) :
    Answers last reader database
        (.ok ((before.after start).stored database.env database.slot)) ∧
      ∀ action, Leaves reader database.env action →
        (∀ root, action = .commit root → ShutsOut reader database last root →
          Rejects (last.after action) reader database) ∧
        (Uproots reader database.slot last action →
          Answers (last.after action) reader database
            (((before.after start).engine database.env).image.snapshot.lookup
              ((last.after action).occupant database.env database.slot).name
              ((before.after start).occupant database.env database.slot).flags)) := by
  obtain ⟨origin, hstarts, hbroken, hobserves⟩ := hstart.observes hbefore.sound husable
  have hstep : Run anything before (before.after start) := .single start trivial
  have hbegun := hbefore.run hstep
  have hlast := hobserves.run hbegun hrun
  have hreachable := hbegun.run hrun
  rw [engineOf, ← hobserves.admits.env_eq] at hstarts
  -- What the reader observes along the run gives the answers, and tells what a further action
  -- spoils.
  refine ⟨hlast.answers hreachable.sound hbroken, fun action hleaves ↦ ⟨?_, fun huproots ↦ ?_⟩⟩
  · rintro root rfl hshut
    exact hlast.rejects hreachable hshut
  · exact hlast.uprooted hreachable hbroken hstarts hleaves huproots

/-- The sample after a value was stored in its database and committed. -/
def sampleWritten : System :=
  sample.afterAll [.begin 0 none .empty mainThread, .put 1 sampleDatabase [107] [118] .empty,
    .commit 1]

/-- A reader of the sample can use the database when its reading starts. -/
theorem sampleWritten_read : Starts sampleWritten 2 (.begin 0 none TxnFlags.readOnly mainThread) ∧
    Usable (sampleWritten.after (.begin 0 none TxnFlags.readOnly mainThread)) 2 sampleDatabase :=
  ⟨.begun (by decide) (by decide +kernel), usable_of_found (by decide +kernel :
    ((sampleWritten.after (.begin 0 none TxnFlags.readOnly mainThread)).get 2 sampleDatabase
      [107]).result = .ok (some [118]))⟩

/-- A reader keeps to the value that was committed before it began when a writer replaces it. -/
theorem reader_isolated_from_put :
    (((sampleWritten.after (.begin 0 none TxnFlags.readOnly mainThread)).afterAll
        [.begin 0 none .empty mainThread, .put 3 sampleDatabase [107] [119] .empty,
          .commit 3]).get 2 sampleDatabase [107]).result = .ok (some [118]) := by
  have hallowed : ∀ (system : System) (action : Action), action.through? ≠ some 2 →
      action ≠ .close 0 → (∀ root, action = .commit root →
        (system.transaction root).record? 2 = none) →
      ((system.after action).occupant (system.transaction 2).env 2).name
        = (system.occupant (system.transaction 2).env 2).name →
      Leaves 2 sampleDatabase.env action ∧ ¬ Disturbs 2 sampleDatabase system action := by
    intro system action hthrough hclose hrecord hname
    refine ⟨⟨fun h ↦ absurd h hthrough, hclose⟩, ?_⟩
    rintro (⟨root, haction, hshut⟩ | huproots)
    · obtain ⟨record, hfound, -⟩ := hshut.recorded
      exact absurd (hfound.symm.trans (hrecord root haction)) nofun
    · exact huproots.occupant hname
  have hrun : Run (fun system action ↦ Leaves 2 sampleDatabase.env action ∧
      ¬ Disturbs 2 sampleDatabase system action)
      (sampleWritten.after (.begin 0 none TxnFlags.readOnly mainThread))
      ((sampleWritten.after (.begin 0 none TxnFlags.readOnly mainThread)).afterAll
        [.begin 0 none .empty mainThread, .put 3 sampleDatabase [107] [119] .empty,
          .commit 3]) := by
    refine .step (.step (.step .nil (hallowed _ _ nofun nofun nofun ?_))
      (hallowed _ _ (by decide) nofun nofun ?_)) (hallowed _ _ (by decide) nofun ?_ ?_)
    · decide +kernel
    · decide +kernel
    · rintro root ⟨⟩
      decide +kernel
    · decide +kernel
  obtain ⟨hstart, husable⟩ := sampleWritten_read
  rw [(reader_isolated (sample_reachable.run (.all _ _)) hstart husable hrun).1.get [107]
    (by decide) (by decide)]
  decide +kernel

/-- A reader that has not read a database yet loses sight of its content when a writer drops the
database, even if the drop is aborted. -/
theorem reader_blinded_by_aborted_drop : ∃ (before last : System) (start : Action) (reader : TxnId)
    (database : Database) (key value : Bytes), Reachable before ∧ before.checks = true ∧
      Starts before reader start ∧ Usable (before.after start) reader database ∧
      Run (fun _ action ↦ Leaves reader database.env action ∧ action.through? ≠ some reader)
        (before.after start) last ∧
      ((before.after start).stored database.env database.slot).value key = some value ∧
      (last.get reader database key).result = .ok none := by
  have hallowed : ∀ action : Action, action.through? ≠ some 2 → action ≠ .close 0 →
      Leaves 2 sampleDatabase.env action ∧ action.through? ≠ some 2 :=
    fun action hthrough hclose ↦ ⟨⟨fun h ↦ absurd h hthrough, hclose⟩, hthrough⟩
  obtain ⟨hstart, husable⟩ := sampleWritten_read
  refine ⟨sampleWritten, _, _, 2, sampleDatabase, [107], [118], sample_reachable.run (.all _ _),
    by decide +kernel, hstart, husable,
    .step (.step (.step .nil (hallowed (.begin 0 none .empty mainThread) nofun nofun))
      (hallowed (.dropDatabase 3 sampleDatabase) (by decide) nofun))
      (hallowed (.abort 3) (by decide) nofun), ?_, ?_⟩
  · decide +kernel
  · decide +kernel

end System

end MappedStore
