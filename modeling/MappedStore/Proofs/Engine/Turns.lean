import Mathlib.Data.List.Forall2
import MappedStore.Proofs.Engine.Roster

/-!
# How each operation changes the roster

The effect of every operation of the engine on the transactions that it has, on the table of slots
and on the committed image. Only the commit of a root writer changes the image.
-/

namespace MappedStore.Engine

variable {engine before after : Engine} {handle : Nat} {txn : Txn}

/-! ## Uses -/

/-- A transaction is determined by its handle. -/
theorem Roster.eq_of_handle (h : Roster engine) {other : Txn}
    (hmem : other ∈ engine.writers ++ engine.reading) (htxn : engine.txn? handle = some txn)
    (heq : other.handle = handle) : other = txn := by
  have hfound := h.txn?_handle hmem
  rw [heq, htxn] at hfound
  exact (Option.some.inj hfound).symm

/-- A writer that is not blocked is the innermost one. -/
theorem Roster.innermost (h : Roster engine) (htxn : engine.txn? handle = some txn)
    (hwriter : txn.readOnly = false) (hblocked : engine.isBlocked txn = false) :
    ∃ outer, engine.writers = txn :: outer := by
  simp only [isBlocked, hwriter, Bool.not_false, Bool.true_and, Bool.or_eq_false_iff, bne,
    Bool.not_eq_false', beq_iff_eq] at hblocked
  cases hwriters : engine.writers with
  | nil => simp [hwriters] at hblocked
  | cons head outer =>
      have hhandle : head.handle = txn.handle := by simpa [hwriters] using hblocked.2
      have hhead : head ∈ engine.writers ++ engine.reading := by simp [hwriters]
      obtain rfl := h.eq_of_handle hhead htxn (hhandle.trans (handle_of_txn? htxn))
      exact ⟨outer, rfl⟩

/-- Replacing the innermost writer leaves the others. -/
theorem Roster.replace_innermost (h : Roster engine) {txn' : Txn} {outer : List Txn}
    (hwriters : engine.writers = txn :: outer)
    (hhandle : txn'.handle = txn.handle) : (engine.replace txn').writers = txn' :: outer := by
  have hnodup := h.nodup
  simp only [hwriters, List.cons_append, List.map_cons, List.nodup_cons] at hnodup
  have houter : ∀ other ∈ outer, (if other.handle = txn'.handle then txn' else other) = other := by
    intro other hother
    refine if_neg fun hsame ↦ hnodup.1 ?_
    exact List.mem_map.mpr ⟨other, List.mem_append_left _ hother, hsame.trans hhandle⟩
  simp only [replace, hwriters, List.map_cons, hhandle, if_true]
  exact congrArg _ ((List.map_congr_left (hhandle ▸ houter)).trans (List.map_id' outer))

/-- Replacing a transaction by one with the same label keeps the labels of all. -/
theorem Roster.map_replace {α : Type} (h : Roster engine) (label : Txn → α) {txn' : Txn}
    (htxn : engine.txn? handle = some txn) (hhandle : txn'.handle = txn.handle)
    (hlabel : label txn' = label txn) :
    (engine.replace txn').writers.map label = engine.writers.map label ∧
      (engine.replace txn').reading.map label = engine.reading.map label := by
  have hfound : txn'.handle = handle := hhandle.trans (handle_of_txn? htxn)
  have hmap : ∀ txns : List Txn, txns ⊆ engine.writers ++ engine.reading →
      (txns.map fun other ↦ if other.handle = txn'.handle then txn' else other).map label
        = txns.map label := by
    intro txns hsub
    rw [List.map_map]
    apply List.map_congr_left
    intro other hother
    simp only [Function.comp_apply]
    split
    · rename_i heq
      rw [h.eq_of_handle (hsub hother) htxn (heq.trans hfound), hlabel]
    · rfl
  exact ⟨hmap _ (List.subset_append_left _ _), hmap _ (List.subset_append_right _ _)⟩

/-- A reader stays as it is when a transaction of another handle is replaced. -/
theorem mem_reading_replace {reader : Txn} (hreader : reader ∈ engine.reading)
    (hne : reader.handle ≠ txn.handle) : reader ∈ (engine.replace txn).reading :=
  List.mem_map.mpr ⟨reader, hreader, if_neg hne⟩

/-- A transaction of the same kin has the same tag. -/
theorem Txn.Kin.tag {txn txn' : Txn} (h : Txn.Kin txn txn') : txn'.tag = txn.tag := by
  simp [Txn.tag, h.handle, h.readOnly]

/-- Replacing a transaction by one with the same tag, with a later table of slots. -/
theorem Roster.stays_replace (h : Roster engine) {txn' : Txn} {slots : SlotTable}
    {readers : ReaderTable} (htxn : engine.txn? handle = some txn) (htag : txn'.tag = txn.tag)
    (hslots : SlotTable.Later engine.slots slots) :
    Stays engine { engine.replace txn' with slots := slots, readers := readers } := by
  obtain ⟨hwriters, hreading⟩ := h.map_replace Txn.tag htxn (congrArg Prod.fst htag) htag
  exact ⟨hwriters, hreading, rfl, rfl, hslots⟩

/-- Replacing a transaction by one of the same kin keeps the marks of the readers. -/
theorem Roster.marks_replace (h : Roster engine) {txn' : Txn} (htxn : engine.txn? handle = some txn)
    (hkin : Txn.Kin txn txn') :
    (engine.replace txn').reading.map Txn.mark = engine.reading.map Txn.mark :=
  (h.map_replace Txn.mark htxn hkin.handle (by simp [Txn.mark, hkin.handle, hkin.idle])).2

/-- A transaction without a database behind one of its slots is still the same. -/
theorem Txn.kin_without (txn : Txn) (slot : Nat) (name : Bytes) :
    Txn.Kin txn (txn.without slot name) := by
  have hmodify : Txn.Kin txn (txn.modifySlot slot fun content ↦
      { content with usable := false, stale := true, fresh := false, dirty := false }) := by
    unfold Txn.modifySlot
    split
    · unfold Txn.setSlot
      split <;> exact ⟨rfl, rfl, rfl, rfl, rfl⟩
    · exact .refl txn
  exact ⟨hmodify.handle, hmodify.readOnly, hmodify.idle, hmodify.commit, hmodify.reader⟩

/-- A use keeps all transactions. -/
theorem Roster.stays_used (h : Roster engine) (hused : Used engine handle after) :
    Stays engine after := by
  cases hused with
  | same => exact .refl engine
  | through slot htxn huses => exact h.stays_replace htxn huses.kin.tag (.refl _)
  | mainFlags flags htxn => exact h.stays_replace htxn (by rfl) (.refl _)
  | occupied htxn hoccupies =>
      exact h.stays_replace htxn (by exact hoccupies.records.kin.tag)
        (SlotTable.later_occupy _ _ _)
  | dropped htxn hslot hwriter huses =>
      exact h.stays_replace htxn (huses.kin.trans (Txn.kin_without _ _ _)).tag
        (SlotTable.later_close _ _)

/-! ## Beginnings -/

/-- Taking a reader slot is no concern of the transactions. -/
theorem claimReader_cases (engine : Engine) (thread : Nat) (owned : Option Nat) :
    (∃ condition, engine.claimReader thread owned = .error condition) ∨
      ∃ reader readers, engine.claimReader thread owned =
        .ok (reader, { engine with readers := readers }) := by
  unfold claimReader
  split
  · exact .inr ⟨none, engine.readers, rfl⟩
  · split
    · exact .inl ⟨_, rfl⟩
    · exact .inl ⟨_, rfl⟩
    · exact .inr ⟨_, _, rfl⟩

/-- A new reader, which sees the committed image. -/
def newReader (engine : Engine) (reader : Option Nat) : Txn where
  handle := engine.nextHandle
  readOnly := true
  commit := engine.image.commit
  reader := reader
  main := Txn.mainOf engine.image.snapshot
  named := engine.slots.fresh engine.known []
  tables := engine.image.snapshot.named

/-- The begin of a reader adds it to the readers, or is refused. -/
theorem beginRead_cases (engine : Engine) (thread : Nat) :
    (∃ code, engine.beginRead thread = (.error code, engine)) ∨
      ∃ reader readers, engine.beginRead thread =
        (.ok engine.nextHandle,
          { engine with
            readers := readers
            reading := engine.newReader reader :: engine.reading
            nextHandle := engine.nextHandle + 1 }) := by
  unfold beginRead
  rcases claimReader_cases engine thread none with ⟨condition, h⟩ | ⟨reader, readers, h⟩
  · rw [h]
    exact .inl ⟨_, rfl⟩
  · rw [h]
    exact .inr ⟨_, _, rfl⟩

/-- A new root writer, which starts from the committed image. -/
def newWriter (engine : Engine) : Txn where
  handle := engine.nextHandle
  readOnly := false
  commit := engine.image.commit + 1
  main := Txn.mainOf engine.image.snapshot
  named := engine.slots.fresh engine.known engine.memory
  tables := engine.image.snapshot.named
  nextPage := engine.image.lastPage + 1

/-- The begin of a root writer adds it to the writers, or is refused. -/
theorem beginWrite_cases (engine : Engine) :
    (∃ code, engine.beginWrite = (.error code, engine)) ∨
      engine.beginWrite =
        (.ok engine.nextHandle,
          { engine with
            writers := engine.newWriter :: engine.writers
            nextHandle := engine.nextHandle + 1 }) := by
  unfold beginWrite
  split
  · exact .inl ⟨_, rfl⟩
  · exact .inr rfl

/-- What a begin can do to an engine, with the handle that it returns. -/
inductive Began (engine : Engine) (parent : Option Nat) (flags : TxnFlags) :
    Nat → Engine → Prop where
  | reading (readers : ReaderTable) (reader : Option Nat) (hparent : parent = none)
      (hflags : flags.contains TxnFlags.readOnly = true) :
      Began engine parent flags engine.nextHandle
        { engine with
          readers := readers
          reading := engine.newReader reader :: engine.reading
          nextHandle := engine.nextHandle + 1 }
  | root (hparent : parent = none) (hflags : flags.contains TxnFlags.readOnly = false) :
      Began engine parent flags engine.nextHandle
        { engine with
          writers := engine.newWriter :: engine.writers
          nextHandle := engine.nextHandle + 1 }
  | nested {outer : Nat} {txn : Txn} (hparent : parent = some outer)
      (hflags : flags.contains TxnFlags.readOnly = false) (htxn : engine.txn? outer = some txn)
      (hwriter : txn.readOnly = false) (hblocked : engine.isBlocked txn = false) :
      Began engine parent flags engine.nextHandle
        { engine with
          writers :=
            { txn with
              handle := engine.nextHandle
              named := txn.named.map ({ · with fresh := false }) } :: engine.writers
          nextHandle := engine.nextHandle + 1 }

/-- A begin adds a transaction, or is refused and leaves everything as it was. -/
theorem begin_cases (engine : Engine) (parent : Option Nat) (flags : TxnFlags) (thread : Nat) :
    (∃ code, engine.begin parent flags thread = (.error code, engine)) ∨
      ∃ handle after, engine.begin parent flags thread = (.ok handle, after) ∧
        Began engine parent flags handle after := by
  unfold begin
  split
  · exact .inl ⟨_, rfl⟩
  cases parent with
  | some outer =>
      dsimp only
      unfold beginNested
      cases htxn : engine.txn? outer with
      | none => exact .inl ⟨_, rfl⟩
      | some txn =>
          dsimp only
          split
          · exact .inl ⟨_, rfl⟩
          rename_i hwriter
          split
          · exact .inl ⟨_, rfl⟩
          rename_i hrefused
          simp only [Bool.not_eq_true, Bool.or_eq_false_iff] at hwriter hrefused
          exact .inr ⟨_, _, rfl, .nested rfl hrefused.1.1 htxn hwriter hrefused.2⟩
  | none =>
      dsimp only
      split
      · rename_i hflags
        rcases beginRead_cases engine thread with hrefused | ⟨reader, readers, h⟩
        · exact .inl hrefused
        · exact .inr ⟨_, _, h, .reading readers reader rfl hflags⟩
      · rename_i hflags
        rcases beginWrite_cases engine with hrefused | h
        · exact .inl hrefused
        · exact .inr ⟨_, _, h, .root rfl (by simpa using hflags)⟩

/-- The roster after a begin. -/
theorem Roster.of_began {parent : Option Nat} {flags : TxnFlags} (h : Roster engine)
    (hbegan : Began engine parent flags handle after) : Roster after := by
  cases hbegan with
  | reading readers reader => exact h.of_reader rfl rfl rfl rfl rfl
  | root => exact h.of_writer rfl rfl rfl rfl rfl
  | nested hparent hflags htxn hwriter hblocked => exact h.of_writer (by exact hwriter) rfl rfl rfl rfl

/-! ## Aborts -/

/-- Stopping to read through a reader slot is no concern of the transactions. -/
theorem leaveReader_eq (engine : Engine) (txn : Txn) (release : Bool) :
    ∃ readers, engine.leaveReader txn release = { engine with readers := readers } := by
  unfold leaveReader
  split
  · exact ⟨engine.readers, rfl⟩
  · exact ⟨_, rfl⟩

/-- The end of a reader. Its slots are freed unless it commits. -/
theorem endReader_cases (engine : Engine) (txn : Txn) (keep : Bool) :
    (engine.endReader txn keep).writers = engine.writers ∧
      (engine.endReader txn keep).reading
        = engine.reading.filter (fun other ↦ other.handle ≠ txn.handle) ∧
      (engine.endReader txn keep).nextHandle = engine.nextHandle ∧
      (engine.endReader txn keep).image = engine.image ∧
      SlotTable.Later engine.slots (engine.endReader txn keep).slots := by
  obtain ⟨readers, hleave⟩ := leaveReader_eq engine txn true
  unfold endReader
  dsimp only
  rw [hleave]
  split
  · exact ⟨rfl, rfl, rfl, rfl, .refl _⟩
  · split
    · exact ⟨rfl, rfl, rfl, rfl, SlotTable.later_keep _ _⟩
    · exact ⟨rfl, rfl, rfl, rfl, SlotTable.later_discard _ _⟩

/-- Aborting writers ends the innermost ones, up to and with the one of the handle. -/
theorem abortWriters_cases {inner outer : List Txn} (engine : Engine) (hhandle : txn.handle = handle)
    (hinner : ∀ other ∈ inner, other.handle ≠ handle) :
    (engine.abortWriters handle (inner ++ txn :: outer)).writers = outer ∧
      (engine.abortWriters handle (inner ++ txn :: outer)).reading = engine.reading ∧
      (engine.abortWriters handle (inner ++ txn :: outer)).nextHandle = engine.nextHandle ∧
      (engine.abortWriters handle (inner ++ txn :: outer)).image = engine.image ∧
      SlotTable.Later engine.slots
        (engine.abortWriters handle (inner ++ txn :: outer)).slots := by
  induction inner generalizing engine with
  | nil =>
      have hlast : engine.abortWriters handle ([] ++ txn :: outer) =
          { engine with
            slots := engine.slots.discard txn.named
            memory := if outer.isEmpty then remember engine.memory txn.named else engine.memory
            writers := outer } := by
        simp [abortWriters, hhandle]
      rw [hlast]
      exact ⟨rfl, rfl, rfl, rfl, SlotTable.later_discard _ _⟩
  | cons first rest ih =>
      have hne : first.handle ≠ handle := hinner first List.mem_cons_self
      simp only [List.cons_append, abortWriters, if_neg hne]
      generalize hstep : ({ engine with
        slots := engine.slots.discard first.named
        memory := if (rest ++ txn :: outer).isEmpty then remember engine.memory first.named
          else engine.memory } : Engine) = step
      obtain ⟨hwriters, hreading, hnext, himage, hslots⟩ := ih step fun other hother ↦
        hinner other (List.mem_cons_of_mem _ hother)
      subst hstep
      exact ⟨hwriters, hreading, hnext, himage, (SlotTable.later_discard _ _).trans hslots⟩

/-- No writer that is nested in another has the same handle. -/
theorem Roster.inner_ne (h : Roster engine) {inner outer : List Txn} (hhandle : txn.handle = handle)
    (hsplit : engine.writers = inner ++ txn :: outer) : ∀ other ∈ inner, other.handle ≠ handle := by
  have hnodup : ((inner ++ txn :: outer).map Txn.handle).Nodup :=
    hsplit ▸ h.nodup.sublist ((List.sublist_append_left _ _).map _)
  rw [List.map_append, List.nodup_append] at hnodup
  intro other hother heq
  exact hnodup.2.2 _ (List.mem_map_of_mem hother) _ (List.mem_map_of_mem List.mem_cons_self)
    (heq.trans hhandle.symm)

/-- What an abort of the transaction with a handle can do to an engine. -/
inductive Aborted (engine : Engine) (handle : Nat) (after : Engine) : Prop where
  | unknown (htxn : engine.txn? handle = none) (h : after = engine)
  | reader {txn : Txn} (htxn : engine.txn? handle = some txn) (hreader : txn.readOnly = true)
      (writers : after.writers = engine.writers)
      (reading : after.reading = engine.reading.filter fun other ↦ other.handle ≠ handle)
  | writer {inner outer : List Txn} {txn : Txn} (htxn : engine.txn? handle = some txn)
      (hwriter : txn.readOnly = false) (hwriters : engine.writers = inner ++ txn :: outer)
      (hinner : ∀ other ∈ inner, other.handle ≠ handle) (writers : after.writers = outer)
      (reading : after.reading = engine.reading)

/-- An abort ends the transaction and all that are nested in it. It commits nothing. -/
theorem abort_cases (h : Roster engine) (handle : Nat) :
    Aborted engine handle (engine.abort handle) ∧
      (engine.abort handle).nextHandle = engine.nextHandle ∧
      (engine.abort handle).image = engine.image ∧
      SlotTable.Later engine.slots (engine.abort handle).slots := by
  unfold abort
  cases htxn : engine.txn? handle with
  | none => exact ⟨.unknown htxn rfl, rfl, rfl, .refl _⟩
  | some txn =>
      have hhandle := handle_of_txn? htxn
      dsimp only
      split
      · rename_i hreader
        obtain ⟨hwriters, hreading, hnext, himage, hslots⟩ := endReader_cases engine txn false
        exact ⟨.reader htxn hreader hwriters (by rw [hreading, hhandle]), hnext, himage, hslots⟩
      · rename_i hwriter
        simp only [Bool.not_eq_true] at hwriter
        obtain ⟨inner, outer, hsplit⟩ := List.append_of_mem (h.mem_writers htxn hwriter)
        have hinner := h.inner_ne hhandle hsplit
        obtain ⟨hwriters, hreading, hnext, himage, hslots⟩ :=
          abortWriters_cases engine hhandle hinner
        rw [hsplit]
        exact ⟨.writer htxn hwriter hsplit hinner hwriters hreading, hnext, himage, hslots⟩

/-! ## Commits -/

/-- A transaction that holds the same slots as before, but for the table of the main one. -/
structure Txn.SameSlots (before after : Txn) : Prop where
  kin : Txn.Kin before after
  named : after.named = before.named
  mainUsable : after.main.usable = before.main.usable
  mainSequence : after.main.sequence = before.main.sequence

/-- A transaction holds the same slots as itself. -/
theorem Txn.SameSlots.refl (txn : Txn) : Txn.SameSlots txn txn := ⟨.refl txn, rfl, rfl, rfl⟩

/-- Recording tables changes neither the transaction's kin nor its slots. -/
theorem record_named (slots : SlotTable) (limit : Nat) (txn : Txn) (todo : List Nat) :
    Txn.SameSlots txn (record slots limit txn todo).2 := by
  induction todo generalizing txn with
  | nil => exact .refl txn
  | cons slot rest ih =>
      unfold record
      split
      · exact ih txn
      · split
        · exact ih txn
        split
        · exact .refl txn
        dsimp only
        split
        · exact .refl txn
        · have htouch := (Txn.uses_prepareMain slots 0 txn limit slots).1
          split <;> rename_i hc <;> simp only [hc] at htouch
          · exact ⟨htouch.kin, htouch.named_eq, htouch.mainUsable, htouch.mainSequence⟩
          · obtain ⟨hkin, hnamed, husable, hsequence⟩ := ih _
            exact ⟨htouch.kin.trans ⟨hkin.handle, hkin.readOnly, hkin.idle, hkin.commit,
              hkin.reader⟩, hnamed.trans htouch.named_eq, husable.trans htouch.mainUsable,
              hsequence.trans htouch.mainSequence⟩

/-- What a root transaction leaves to be written changes neither its kin nor its slots. -/
theorem flush_named (engine : Engine) (txn : Txn) : Txn.SameSlots txn (engine.flush txn).2 := by
  have hrecord := record_named engine.slots engine.pageLimit txn
    ((List.range txn.named.length).map (· + firstSlot))
  unfold flush
  split <;> rename_i recorded hc <;> rw [hc] at hrecord
  · exact hrecord
  · have hclaim := Txn.uses_claim engine.slots 0 recorded engine.pageLimit
      (if engine.givesUpPages recorded then 1 else 0)
    exact ⟨hrecord.kin.trans hclaim.kin, hclaim.named_eq.trans hrecord.named,
      hclaim.mainUsable.trans hrecord.mainUsable, hclaim.mainSequence.trans hrecord.mainSequence⟩

/-- Once all is written, the tables of the dirty slots are recorded. The list of the pages that are
given up is no part of what can be read. -/
theorem flush_ok {flushed : Txn} (h : engine.flush txn = (.ok (), flushed)) :
    ∃ recorded, record engine.slots engine.pageLimit txn
      ((List.range txn.named.length).map (· + firstSlot)) = (.ok (), recorded) ∧
      flushed.snapshot = recorded.snapshot := by
  unfold flush at h
  split at h
  · cases h
  · rename_i recorded hrecord
    have hclaim := Txn.uses_claim engine.slots 0 recorded engine.pageLimit
      (if engine.givesUpPages recorded then 1 else 0)
    rw [h] at hclaim
    exact ⟨recorded, hrecord, congrArg₂ Snapshot.mk (hclaim.mainTable (by decide)) hclaim.tables⟩

/-- What a successful commit of the transaction with a handle can do to an engine. -/
inductive Committed (engine : Engine) (handle : Nat) : Engine → Prop where
  | reader {txn : Txn} (htxn : engine.txn? handle = some txn) (hreader : txn.readOnly = true) :
      Committed engine handle (engine.endReader txn true)
  | nested {child parent : Txn} {rest : List Txn} (hwriters : engine.writers = child :: parent :: rest)
      (hhandle : child.handle = handle) :
      Committed engine handle { engine with writers := absorb parent child :: rest }
  | root {txn recorded : Txn} (image : Image) (hwriters : engine.writers = [txn])
      (hhandle : txn.handle = handle) (hnamed : recorded.named = txn.named) :
      Committed engine handle (({ engine with image := image } : Engine).endWriter recorded)

/-- A commit leaves the occupants of all slots, and the counters. -/
theorem Committed.occupants (h : Committed engine handle after) (slot : Nat) :
    (after.slots.info slot).name = (engine.slots.info slot).name ∧
      (after.slots.info slot).sequence = (engine.slots.info slot).sequence := by
  have hkeep : ∀ (slots : SlotTable) (named : List TxnSlot),
      ((slots.keep named).info slot).name = (slots.info slot).name ∧
        ((slots.keep named).info slot).sequence = (slots.info slot).sequence := by
    intro slots named
    rcases slot with _ | _ | index
    · exact ⟨rfl, rfl⟩
    · exact ⟨rfl, rfl⟩
    · simp only [SlotTable.info, SlotTable.keep, List.getD_eq_getElem?_getD, List.getElem?_mapIdx]
      cases slots[index]? with
      | none => exact ⟨rfl, rfl⟩
      | some info =>
          dsimp only [Option.map_some, Option.getD_some]
          split <;> exact ⟨rfl, rfl⟩
  cases h with
  | @reader txn htxn hreader =>
      obtain ⟨readers, hleave⟩ := leaveReader_eq engine txn true
      unfold endReader
      dsimp only
      rw [hleave]
      split
      · exact ⟨rfl, rfl⟩
      · exact hkeep _ _
  | nested => exact ⟨rfl, rfl⟩
  | root => exact hkeep _ _

/-- An engine just before it ends a transaction whose commit it refuses. Other transactions are
as they were, but the parent may have broken, and no slot has changed. -/
structure Refused (engine : Engine) (handle : Nat) (middle : Engine) : Prop where
  stays : Stays engine middle
  slots : middle.slots = engine.slots
  writers : List.Forall₂ Txn.SameSlots engine.writers middle.writers
  marks : middle.reading.map Txn.mark = engine.reading.map Txn.mark
  readers : ∀ reader ∈ engine.reading, reader.handle ≠ handle → reader ∈ middle.reading
  others : ∀ other ∈ middle.writers ++ middle.reading, other.handle ≠ handle →
    ∃ before ∈ engine.writers ++ engine.reading, ∃ broken, other = { before with broken := broken }

/-- Nothing has happened to the other transactions. -/
theorem Refused.refl (engine : Engine) (handle : Nat) : Refused engine handle engine :=
  ⟨.refl engine, rfl, List.forall₂_same.mpr fun txn _ ↦ .refl txn, rfl,
    fun _ hreader _ ↦ hreader, fun other hother _ ↦ ⟨other, hother, other.broken, rfl⟩⟩

/-- The commit of the innermost writer. -/
theorem commitWriter_cases (h : Roster engine) {innermost : Txn} {outer : List Txn}
    (hwriters : engine.writers = innermost :: outer) (hhandle : innermost.handle = handle) :
    (∃ after, engine.commitWriter innermost outer = (.ok (), after) ∧
        Committed engine handle after) ∨
      ∃ code middle, engine.commitWriter innermost outer = (.error code, middle.abort handle) ∧
        Refused engine handle middle := by
  subst hhandle
  have hmem : innermost ∈ engine.writers ++ engine.reading := by simp [hwriters]
  have htxn := h.txn?_handle hmem
  unfold commitWriter
  cases outer with
  | cons parent rest =>
      dsimp only
      split
      · have hrest : List.Forall₂ Txn.SameSlots rest rest :=
          List.forall₂_same.mpr fun txn _ ↦ .refl txn
        refine .inr ⟨_, _, rfl, ⟨?_, rfl, rfl, rfl, .refl _⟩, rfl, ?_, rfl,
          fun _ hreader _ ↦ hreader, ?_⟩
        · simp [hwriters, Txn.tag]
        · rw [hwriters]
          exact .cons (.refl innermost) (.cons ⟨⟨rfl, rfl, rfl, rfl, rfl⟩, rfl, rfl, rfl⟩ hrest)
        -- The refusal breaks the parent, and leaves the others as they are.
        · intro other hother hne
          simp only [List.cons_append, List.mem_cons] at hother
          rcases hother with rfl | rfl | hother
          · exact absurd rfl hne
          · exact ⟨parent, by simp [hwriters], true, rfl⟩
          · refine ⟨other, ?_, other.broken, rfl⟩
            rw [hwriters]
            exact List.mem_cons_of_mem _ (List.mem_cons_of_mem _ hother)
      · exact .inl ⟨_, rfl, .nested hwriters rfl⟩
  | nil =>
      dsimp only
      split
      · exact .inr ⟨_, engine, rfl, .refl engine _⟩
      split
      · exact .inl ⟨_, rfl, .root engine.image hwriters rfl rfl⟩
      · have hsame := engine.flush_named innermost
        -- The tables are recorded before the image is published, so a refusal comes before anything
        -- but the transaction itself has changed.
        split <;> rename_i recorded hc <;> simp only [hc] at hsame
        · have hkin := hsame.kin
          have hrecorded : (engine.replace recorded).writers = [recorded] := by
            simp [replace, hwriters, hkin.handle]
          refine .inr ⟨_, engine.replace recorded, by rw [hkin.handle],
            h.stays_replace htxn hkin.tag (.refl engine.slots), rfl,
            by rw [hwriters, hrecorded]; exact .cons hsame .nil, h.marks_replace htxn hkin,
            fun _ hreader hne ↦ mem_reading_replace hreader (hkin.handle ▸ hne), ?_⟩
          intro other hother hne
          rw [replace, ← List.map_append] at hother
          obtain ⟨before, hbefore, rfl⟩ := List.mem_map.mp hother
          split at hne
          · exact absurd hkin.handle hne
          · rename_i hother
            exact ⟨before, hbefore, before.broken, by simp [hother]⟩
        · exact .inl ⟨_, rfl, .root _ hwriters rfl hsame.named⟩

/-- A commit succeeds, or it is refused and ends the transaction without one. -/
theorem commit_cases (h : Roster engine) (handle : Nat) :
    (∃ after, engine.commit handle = (.ok (), after) ∧ Committed engine handle after) ∨
      ∃ code middle, engine.commit handle = (.error code, middle.abort handle) ∧
        Refused engine handle middle := by
  unfold commit
  cases htxn : engine.txn? handle with
  | none =>
      have habort : engine.abort handle = engine := by simp [abort, htxn]
      exact .inr ⟨_, engine, by rw [habort]; rfl, .refl engine handle⟩
  | some txn =>
      dsimp only
      split
      · rename_i hreader
        exact .inl ⟨_, rfl, .reader htxn hreader⟩
      rename_i hwriter
      have hmem := h.mem_writers htxn (by simpa using hwriter)
      cases hwriters : engine.writers with
      | nil => simp [hwriters] at hmem
      | cons innermost outer =>
          dsimp only
          split
          · rename_i hhandle
            exact commitWriter_cases h hwriters hhandle
          · exact .inr ⟨_, engine, rfl, .refl engine handle⟩

/-! ## Reset and renewal -/

/-- What a reset of the transaction with a handle can do to an engine. -/
inductive WasReset (engine : Engine) (handle : Nat) : Engine → Prop where
  | same (h : ∀ txn, engine.txn? handle = some txn → txn.readOnly = true → txn.idle = true) :
      WasReset engine handle engine
  | idle {txn : Txn} (readers : ReaderTable) (reader : Option Nat)
      (htxn : engine.txn? handle = some txn) (hreader : txn.readOnly = true)
      (hidle : txn.idle = false) :
      WasReset engine handle
        { engine.replace { txn with idle := true, reader := reader } with
          readers := readers
          slots := engine.slots.discard txn.named }

/-- A reset puts a reader that is awake to rest, and frees the slots that it opened. -/
theorem reset_cases (engine : Engine) (handle : Nat) :
    WasReset engine handle (engine.reset handle) := by
  unfold reset
  cases htxn : engine.txn? handle with
  | none => exact .same fun txn h ↦ by simp [htxn] at h
  | some txn =>
      dsimp only
      split
      · rename_i hcase
        simp only [Bool.or_eq_true, Bool.not_eq_true'] at hcase
        refine .same fun other hother hreader ↦ ?_
        obtain rfl : txn = other := by simpa [htxn] using hother
        rcases hcase with hwriter | hidle
        · simp [hreader] at hwriter
        · exact hidle
      · rename_i hcase
        simp only [Bool.or_eq_true, Bool.not_eq_true', not_or, Bool.not_eq_false,
          Bool.not_eq_true] at hcase
        obtain ⟨readers, hleave⟩ := leaveReader_eq engine txn false
        rw [hleave]
        exact .idle readers _ htxn hcase.1 hcase.2

/-- What a renewal of the transaction with a handle does to an engine. -/
inductive Renewed (engine : Engine) (handle : Nat) : Engine → Prop where
  | mk {txn : Txn} (readers : ReaderTable) (reader : Option Nat)
      (htxn : engine.txn? handle = some txn) (hidle : txn.idle = true) :
      Renewed engine handle
        { engine.replace
            { txn with
              idle := false
              commit := engine.image.commit
              reader := reader
              main := Txn.mainOf engine.image.snapshot
              named := engine.slots.fresh engine.known (remember [] txn.named)
              tables := engine.image.snapshot.named } with
          readers := readers }

/-- A renewal wakes a transaction that was reset, or is refused and changes nothing. -/
theorem renew_cases (engine : Engine) (handle thread : Nat) :
    (∃ code, engine.renew handle thread = (.error code, engine)) ∨
      ∃ after, engine.renew handle thread = (.ok (), after) ∧ Renewed engine handle after := by
  unfold renew
  cases htxn : engine.txn? handle with
  | none => exact .inl ⟨_, rfl⟩
  | some txn =>
      dsimp only
      split
      · exact .inl ⟨_, rfl⟩
      rename_i hidle
      simp only [Bool.not_eq_true', Bool.not_eq_false] at hidle
      rcases claimReader_cases engine thread txn.reader with ⟨condition, h⟩ | ⟨reader, readers, h⟩
      · rw [h]
        exact .inl ⟨_, rfl⟩
      · rw [h]
        exact .inr ⟨_, rfl, .mk readers reader htxn hidle⟩

/-- A reset keeps all transactions. -/
theorem Roster.stays_reset (h : Roster engine) (hreset : WasReset engine handle after) :
    Stays engine after := by
  cases hreset with
  | same => exact .refl engine
  | idle readers reader htxn =>
      exact h.stays_replace htxn (by rfl) (SlotTable.later_discard _ _)

/-- A renewal keeps all transactions. -/
theorem Roster.stays_renewed (h : Roster engine) (hrenewed : Renewed engine handle after) :
    Stays engine after := by
  cases hrenewed with
  | mk readers reader htxn =>
      exact h.stays_replace htxn (by rfl) (.refl _)

/-! ## Other threads and copies -/

/-- An engine that differs from another at most in its reader slots and in the next handle. -/
def Aside (before after : Engine) : Prop :=
  ∃ readers next, before.nextHandle ≤ next ∧
    after = { before with readers := readers, nextHandle := next }

/-- Nothing has happened. -/
theorem Aside.refl (engine : Engine) : Aside engine engine :=
  ⟨engine.readers, engine.nextHandle, Nat.le_refl _, rfl⟩

/-- The end of a thread frees a reader slot. -/
theorem endThread_aside (engine : Engine) (thread : Nat) :
    Aside engine (engine.endThread thread) :=
  ⟨_, engine.nextHandle, Nat.le_refl _, rfl⟩

/-- A table of slots of which none is fresh has nothing to discard. -/
theorem discard_of_not_fresh (slots : SlotTable) {named : List TxnSlot}
    (h : ∀ index, (named.getD index {}).fresh = false) : slots.discard named = slots := by
  apply List.ext_getElem?
  intro index
  rw [SlotTable.discard, List.getElem?_mapIdx]
  cases slots[index]? with
  | none => rfl
  | some info => simp only [Option.map_some, h, Bool.false_eq_true, if_false]

/-- The slots of a new transaction have not been opened in it. -/
theorem fresh_not_fresh (slots : SlotTable) (known : Nat) (memory : List (Option Table))
    (index : Nat) : ((slots.fresh known memory).getD index {}).fresh = false := by
  unfold SlotTable.fresh
  rw [List.getD_eq_getElem?_getD, List.getElem?_map]
  cases (List.range known)[index]? <;> rfl

/-- A copy begins a reader and ends it again. -/
theorem copy_aside (h : Roster engine) (tree : Files.Tree) (path : Bytes) (flags : CopyFlags)
    (thread : Nat) : Aside engine (engine.copy tree path flags thread).2.1 := by
  unfold copy
  dsimp only
  split
  · exact .refl engine
  rcases beginRead_cases engine thread with ⟨code, hbegin⟩ | ⟨reader, readers, hbegin⟩
  · rw [hbegin]
    exact .refl engine
  rw [hbegin]
  dsimp only
  generalize hbegun : ({ engine with
    readers := readers
    reading := engine.newReader reader :: engine.reading
    nextHandle := engine.nextHandle + 1 } : Engine) = begun
  have hroster : Roster begun := by
    subst hbegun
    exact h.of_reader rfl rfl rfl rfl rfl
  have hfound : begun.txn? engine.nextHandle = some (engine.newReader reader) := by
    refine hroster.txn?_handle (?_ : engine.newReader reader ∈ _)
    simp [← hbegun]
  obtain ⟨rest, hleave⟩ := leaveReader_eq begun (engine.newReader reader) true
  have hgone : begun.reading.filter (fun other ↦ other.handle ≠ engine.nextHandle)
      = engine.reading := by
    subst hbegun
    rw [List.filter_cons_of_neg (by simp [newReader])]
    refine List.filter_eq_self.mpr fun other hother ↦ ?_
    have := h.lt other (List.mem_append_right _ hother)
    simpa using Nat.ne_of_lt this
  refine ⟨rest, engine.nextHandle + 1, Nat.le_succ _, ?_⟩
  have hdiscard : begun.slots.discard (engine.newReader reader).named = engine.slots := by
    rw [← hbegun]
    exact discard_of_not_fresh _ (fresh_not_fresh _ _ _)
  have hend : begun.abort engine.nextHandle = begun.endReader (engine.newReader reader) false := by
    simp [abort, hfound, newReader]
  have hawake : (engine.newReader reader).idle = false := rfl
  rw [hend]
  unfold endReader
  dsimp only
  rw [hleave, hawake]
  dsimp only
  rw [show (engine.newReader reader).handle = engine.nextHandle from rfl, hgone, hdiscard]
  subst hbegun
  rfl

end MappedStore.Engine
