import MappedStore.Proofs.Engine.Breakage
import MappedStore.Proofs.Engine.Opening

/-!
# Transactions that open one database

A transaction begins in order to open a database, and ends. If the open fails, or if it succeeds and
the commit then fails, the engine is as it was, but for reader slots, the memory of tables, the next
handle and the counters of free slots (`Engine.LikeBefore`). If the commit succeeds, the engine has
the same other transactions as before.
-/

namespace MappedStore.Engine

variable {engine began opened last : Engine} {handle slot : Nat} {slots : SlotTable}
  {txn txn' base : Txn} {name : Option Bytes} {kind : TxnFlags} {flags : DbFlags} {code : Code}

/-! ## What an open leaves -/

/-- How an open of a database through a transaction can end. -/
inductive OpenEnds (engine : Engine) (txn : Txn) : Except Code Nat → Engine → Prop where
  | refused (code : Code) : OpenEnds engine txn (.error code) engine
  | unrecorded {bytes : Bytes} {flags : DbFlags} {base : Txn} {code : Code}
      (hcreate : engine.createRecord txn bytes flags = (.error code, base)) :
      OpenEnds engine txn (.error code) (engine.replace base)
  | known (slot : Nat) : OpenEnds engine txn (.ok slot) engine
  | mainFlags (flags : DbFlags) :
      OpenEnds engine txn (.ok mainSlot)
        (engine.replace
          { txn with
            main := { txn.main with table := { txn.main.table with flags := flags } }
            changed := true })
  | occupied {base : Txn} {index : Nat} (bytes : Bytes) (table : Table) (created : Bool)
      (hkin : Txn.Kin txn base) (hnamed : base.named = txn.named) (hindex : index ≤ txn.named.length)
      (hfree : index < txn.named.length → (engine.slots.getD index {}).name = []) :
      OpenEnds engine txn (.ok (index + firstSlot)) (engine.occupy base index bytes table created).2

/-- Every open ends in one of these ways. -/
theorem openEnds_openDatabase (htxn : engine.txn? handle = some txn) (name : Option Bytes)
    (flags : DbFlags) :
    OpenEnds engine txn (engine.openDatabase handle name flags).1
      (engine.openDatabase handle name flags).2 := by
  have houtcome := engine.openDatabase_outcome handle name flags
  generalize engine.openDatabase handle name flags = answer at houtcome ⊢
  have hsame : ∀ {found : Txn}, engine.txn? handle = some found → txn = found := fun hfound ↦
    Option.some.inj (htxn.symm.trans hfound)
  cases houtcome with
  | unknown | misflagged | blocked => exact .refused _
  | main => exact .known mainSlot
  | mainFlags hfound =>
      obtain rfl := hsame hfound
      exact .mainFlags _
  | named hfound _ hnamed =>
      obtain rfl := hsame hfound
      cases hnamed with
      | known => exact .known _
      | refused => exact .refused _
      | unrecorded _ _ _ hcreate => exact .unrecorded hcreate
      | found _ _ hindex =>
          obtain ⟨hle, hfree⟩ := searchSlots_place hindex
          exact .occupied _ _ _ (.refl txn) rfl hle hfree
      | created _ _ hindex _ hcreate =>
          obtain ⟨hle, hfree⟩ := searchSlots_place hindex
          have hrecords := (createRecord_ok hcreate).2
          exact .occupied _ _ _ hrecords.kin hrecords.named hle hfree

/-- The roster after an open. -/
theorem Roster.of_openDatabase {answer : Except Code Nat} (h : Roster engine)
    (hopen : engine.openDatabase handle name flags = (answer, opened)) : Roster opened := by
  have hstays := h.stays_used (engine.openDatabase_cases handle name flags).1
  rw [hopen] at hstays
  exact h.of_stays hstays

/-- A failed open makes no difference to the abort of the transaction. -/
theorem Roster.abort_openDatabase (h : Roster engine)
    (hopen : engine.openDatabase handle name flags = (.error code, opened)) :
    opened.abort handle = engine.abort handle := by
  cases htxn : engine.txn? handle with
  | none =>
      rw [openDatabase, htxn] at hopen
      cases hopen
      rfl
  | some txn =>
      have hends := openEnds_openDatabase htxn name flags
      rw [hopen] at hends
      cases hends with
      | refused => rfl
      | @unrecorded _ _ base _ hcreate =>
          change (engine.replace base).abort handle = engine.abort handle
          have huses := createRecord_error hcreate
          cases hreader : txn.readOnly with
          | false =>
              exact h.abort_replace htxn hreader huses.kin.handle huses.kin.readOnly huses.named_eq
          | true =>
              -- a reader is refused before anything is recorded
              simp only [createRecord, hreader, if_true, refuseSystem] at hcreate
              obtain rfl : txn = base := congrArg Prod.snd hcreate
              rw [h.replace_self htxn]

/-- What is known about a slot is as it was, or the slot was free and is free again. -/
def SlotInfo.Restored (before after : SlotInfo) : Prop :=
  after = before ∨ before.isFree = true ∧ after.isFree = true

/-- Whatever is known about a slot, it is free once its occupant is closed. -/
theorem SlotInfo.isFree_closed (info : SlotInfo) : info.closed.isFree = true := by
  unfold closed
  split
  · assumption
  · rfl

/-- What is known about a position after it was given to a name and the slots that a transaction has
opened were freed. -/
theorem restored_occupied {named : List TxnSlot} {index : Nat} {bytes : Bytes} {content : TxnSlot}
    (hfresh : content.fresh = true) (hnamed : ∀ index, (named.getD index {}).fresh = false)
    (hindex : index ≤ named.length)
    (hfree : index < named.length → (slots.getD index {}).name = []) {other : Nat}
    (hother : other < named.length) :
    SlotInfo.Restored (slots.getD other {})
      (((occupied slots index bytes).discard (placeSlot named index content)).getD other {}) := by
  have hplaced : (placeSlot named index content).getD other {} =
      if other = index then content else named.getD other {} := by
    rw [List.getD_eq_getElem?_getD, Txn.Coherent.getElem?_placeSlot _ _ hindex]
    split
    · rfl
    · exact (List.getD_eq_getElem?_getD ..).symm
  rw [SlotTable.getD_discard, hplaced]
  by_cases hhere : other = index
  · subst hhere
    rw [if_pos rfl, if_pos hfresh]
    exact .inr ⟨List.isEmpty_iff.mpr (hfree hother), SlotInfo.isFree_closed _⟩
  · rw [if_neg hhere, hnamed other, if_neg Bool.false_ne_true]
    exact .inl (SlotTable.getD_updateAt_of_ne _ slots hhere)

/-- A successful open replaces the transaction by one of its kin. If the transaction has opened
nothing before, freeing what it has opened undoes what the open has done to the table of slots. -/
theorem Roster.openDatabase_ok (h : Roster engine) (htxn : engine.txn? handle = some txn)
    (hopen : engine.openDatabase handle name flags = (.ok slot, opened)) :
    ∃ txn' slots, Txn.Kin txn txn' ∧ opened = { engine.replace txn' with slots := slots } ∧
      ((∀ index, (txn.named.getD index {}).fresh = false) → ∀ index < txn.named.length,
        SlotInfo.Restored (engine.slots.getD index {})
          ((slots.discard txn'.named).getD index {})) := by
  have hsame : (∀ index, (txn.named.getD index {}).fresh = false) → ∀ index < txn.named.length,
      SlotInfo.Restored (engine.slots.getD index {})
        ((engine.slots.discard txn.named).getD index {}) := fun hfresh index _ ↦
    .inl (by rw [discard_of_not_fresh _ hfresh])
  have hends : OpenEnds engine txn (.ok slot) opened := by
    have hends := openEnds_openDatabase htxn name flags
    rwa [hopen] at hends
  generalize hanswer : (Except.ok slot : Except Code Nat) = answer at hends
  cases hends with
  | refused | unrecorded => cases hanswer
  | known => exact ⟨txn, engine.slots, .refl txn, by rw [h.replace_self htxn], hsame⟩
  | mainFlags flags =>
      refine ⟨_, engine.slots, ?_, rfl, hsame⟩
      exact ⟨rfl, rfl, rfl, rfl, rfl⟩
  | @occupied base index bytes table created hkin hnamed hindex hfree =>
      refine ⟨_, occupied engine.slots index bytes, ?_, rfl, fun hfresh other hother ↦ ?_⟩
      · exact ⟨hkin.handle, hkin.readOnly, hkin.idle, hkin.commit, hkin.reader⟩
      · dsimp only
        rw [hnamed]
        exact restored_occupied rfl hfresh hindex hfree hother

/-! ## Beginning, opening and ending -/

/-- An engine that differs from another at most in its reader slots, in what it remembers of tables,
in the next handle, and in slots that are free. Slots that no commit has made known are not counted
for free. -/
def LikeBefore (before after : Engine) : Prop :=
  ∃ readers memory next slots,
    after =
        { before with readers := readers, memory := memory, nextHandle := next, slots := slots } ∧
      ∀ slot < before.known + firstSlot, SlotInfo.Restored (before.slots.info slot) (slots.info slot)

/-- An engine in which no slot has changed. -/
theorem likeBefore_same (engine : Engine) (readers : ReaderTable) (memory : List (Option Table))
    (next : Nat) :
    LikeBefore engine
      { engine with readers := readers, memory := memory, nextHandle := next } :=
  ⟨readers, memory, next, engine.slots, rfl, fun _ _ ↦ .inl rfl⟩

/-- A transaction that is replaced is not among those with smaller handles. -/
theorem map_replaced_of_lt {txns : List Txn} (h : ∀ other ∈ txns, other.handle < txn.handle) :
    (txns.map fun other ↦ if other.handle = txn.handle then txn else other) = txns :=
  (List.map_congr_left fun other hother ↦ if_neg (h other hother).ne).trans (List.map_id' txns)

/-- A reader with the next handle is told apart from those that there are. -/
theorem Roster.filter_next (h : Roster engine) (hhandle : txn.handle = engine.nextHandle) :
    (txn :: engine.reading).filter (fun other ↦ other.handle ≠ txn.handle) = engine.reading := by
  rw [List.filter_cons_of_neg (by simp)]
  refine List.filter_eq_self.mpr fun other hother ↦ ?_
  simpa [hhandle] using (h.lt other (List.mem_append_right _ hother)).ne

/-- The end of a reader that has not been reset. -/
theorem endReader_awake {engine : Engine} (hidle : txn.idle = false) (keep : Bool) :
    ∃ readers, engine.endReader txn keep =
      { engine with
        readers := readers
        reading := engine.reading.filter fun other ↦ other.handle ≠ txn.handle
        slots := if keep then engine.slots.keep txn.named else engine.slots.discard txn.named
        known := if keep then max engine.known txn.named.length else engine.known } := by
  obtain ⟨readers, hleave⟩ := leaveReader_eq engine txn true
  refine ⟨readers, ?_⟩
  unfold endReader
  dsimp only
  rw [hleave, hidle]
  cases keep <;> rfl

/-- The abort of a root that has just begun leaves the engine as it was. -/
theorem Roster.abort_began (h : Roster engine) (hbegan : Began engine none kind handle began)
    (hwriters : kind.contains TxnFlags.readOnly = false → engine.writers = []) :
    LikeBefore engine (began.abort handle) := by
  have hroster := h.of_began hbegan
  cases hbegan with
  | reading readers reader hparent hkind =>
      have htxn : txn? _ engine.nextHandle = some (engine.newReader reader) :=
        hroster.txn?_handle (List.mem_append_right engine.writers List.mem_cons_self)
      have hslots : engine.slots.discard (engine.newReader reader).named = engine.slots :=
        discard_of_not_fresh engine.slots (fresh_not_fresh engine.slots engine.known [])
      have hhandle : (engine.newReader reader).handle = engine.nextHandle := rfl
      have hidle : (engine.newReader reader).idle = false := rfl
      have hothers := h.filter_next hhandle
      obtain ⟨left, hend⟩ := endReader_awake hidle false
      have habort : abort { engine with
            readers := readers
            reading := engine.newReader reader :: engine.reading
            nextHandle := engine.nextHandle + 1 } engine.nextHandle =
          { engine with
            readers := left
            nextHandle := engine.nextHandle + 1 } := by
        rw [abort, htxn]
        refine hend.trans ?_
        simp only [Bool.false_eq_true, if_false]
        rw [hslots, hothers]
      rw [habort]
      exact likeBefore_same engine left engine.memory _
  | nested hparent => cases hparent
  | root hparent hkind =>
      have hslots := discard_of_not_fresh engine.slots
        (fresh_not_fresh engine.slots engine.known engine.memory)
      have habort : abort { engine with
            writers := engine.newWriter :: engine.writers
            nextHandle := engine.nextHandle + 1 } engine.nextHandle =
          { engine with
            memory := remember engine.memory engine.newWriter.named
            nextHandle := engine.nextHandle + 1 } := by
        simp only [abort, txn?, newWriter, hwriters hkind, List.singleton_append, decide_true,
          List.find?_cons_of_pos, Bool.false_eq_true, if_false, abortWriters, if_true, hslots]
        rfl
      rw [habort]
      exact likeBefore_same engine engine.readers _ _

/-- The commit of a reader ends it. -/
theorem commit_reader (htxn : engine.txn? handle = some txn) (hreader : txn.readOnly = true) :
    engine.commit handle = (.ok (), engine.endReader txn true) := by
  unfold commit
  rw [htxn]
  exact if_pos hreader

/-- A root that has begun and opened one database is the only transaction that is new. -/
structure Opener (engine : Engine) (kind : TxnFlags) (handle : Nat) (txn : Txn) (opened : Engine) :
    Prop where
  found : opened.txn? handle = some txn
  ownHandle : txn.handle = handle
  readOnly : txn.readOnly = kind.contains TxnFlags.readOnly
  writer : kind.contains TxnFlags.readOnly = false →
    opened.writers = [txn] ∧ opened.reading = engine.reading
  reader : kind.contains TxnFlags.readOnly = true →
    opened.writers = engine.writers ∧
      opened.reading.filter (fun other ↦ other.handle ≠ handle) = engine.reading
  undone : kind.contains TxnFlags.readOnly = false → ∃ readers slots,
    opened =
        { engine with
          readers := readers, writers := [txn], slots := slots, nextHandle := opened.nextHandle } ∧
      ∀ slot < engine.known + firstSlot,
        SlotInfo.Restored (engine.slots.info slot) (SlotTable.info (slots.discard txn.named) slot)

/-- After a root has begun and opened a database, it is such a transaction. -/
theorem Roster.opener (h : Roster engine) (hbegan : Began engine none kind handle began)
    (hwriters : kind.contains TxnFlags.readOnly = false → engine.writers = [])
    (hopen : began.openDatabase handle name flags = (.ok slot, opened)) :
    ∃ txn, Opener engine kind handle txn opened := by
  have hroster := h.of_began hbegan
  have hlt : ∀ other ∈ engine.writers ++ engine.reading, other.handle < engine.nextHandle := h.lt
  cases hbegan with
  | reading readers reader hparent hkind =>
      have htxn := hroster.txn?_handle (List.mem_append_right engine.writers List.mem_cons_self)
      obtain ⟨txn, slots, hkin, rfl, -⟩ := hroster.openDatabase_ok htxn hopen
      have hhandle : txn.handle = engine.nextHandle := hkin.handle
      refine ⟨txn, txn?_replace_self htxn hkin.handle, hhandle, hkin.readOnly.trans hkind.symm, ?_,
        fun _ ↦ ⟨?_, ?_⟩, ?_⟩
      · simp [hkind]
      · exact map_replaced_of_lt fun other hother ↦
          hhandle ▸ hlt other (List.mem_append_left _ hother)
      · have hothers : ((engine.newReader reader :: engine.reading).map fun other ↦
            if other.handle = txn.handle then txn else other) = txn :: engine.reading :=
          congrArg₂ List.cons (if_pos hhandle.symm) (map_replaced_of_lt fun other hother ↦
            hhandle ▸ hlt other (List.mem_append_right _ hother))
        have hfilter := h.filter_next hhandle
        rw [hhandle] at hfilter
        exact (congrArg (List.filter _) hothers).trans hfilter
      · simp [hkind]
  | nested hparent => cases hparent
  | root hparent hkind =>
      have hempty := hwriters hkind
      have htxn := hroster.txn?_handle (List.mem_append_left _ List.mem_cons_self)
      obtain ⟨txn, slots, hkin, rfl, hrestored⟩ := hroster.openDatabase_ok htxn hopen
      have hhandle : txn.handle = engine.nextHandle := hkin.handle
      have hwriter : ((engine.newWriter :: engine.writers).map fun other ↦
          if other.handle = txn.handle then txn else other) = [txn] := by
        rw [hempty]
        exact congrArg (· :: []) (if_pos hhandle.symm)
      have hreading : (engine.reading.map fun other ↦
          if other.handle = txn.handle then txn else other) = engine.reading :=
        map_replaced_of_lt fun other hother ↦ hhandle ▸ hlt other (List.mem_append_right _ hother)
      refine ⟨txn, txn?_replace_self htxn hkin.handle, hhandle, hkin.readOnly.trans hkind.symm,
        fun _ ↦ ⟨hwriter, hreading⟩, ?_, fun _ ↦ ⟨engine.readers, slots, ?_, ?_⟩⟩
      · simp [hkind]
      · simp only [replace, hwriter, hreading]
      · rintro (_ | _ | index) hslot
        · exact .inl rfl
        · exact .inl rfl
        · refine hrestored (fresh_not_fresh engine.slots engine.known engine.memory) index ?_
          have hlength : engine.newWriter.named.length = engine.known := by
            simp [newWriter, SlotTable.fresh]
          have hindex : index + 2 < engine.known + 2 := hslot
          omega

/-- The commit of a root that has begun and opened one database leaves the other transactions that
there were. -/
theorem Opener.commit_ok {engine : Engine} (h : Opener engine kind handle txn opened)
    (hwriters : kind.contains TxnFlags.readOnly = false → engine.writers = [])
    (hcommit : opened.commit handle = (.ok (), last)) :
    last.writers = engine.writers ∧ last.reading = engine.reading := by
  cases hkind : kind.contains TxnFlags.readOnly with
  | true =>
      rw [commit_reader h.found (h.readOnly.trans hkind)] at hcommit
      obtain rfl := (Prod.mk.inj hcommit).2
      obtain ⟨hkept, hothers⟩ := h.reader hkind
      obtain ⟨hleft, hreading, -⟩ := endReader_cases opened txn true
      rw [hleft, hreading, h.ownHandle]
      exact ⟨hkept, hothers⟩
  | false =>
      obtain ⟨hwriter, hreading⟩ := h.writer hkind
      have hroot : opened.commit handle = opened.commitWriter txn [] := by
        simp [commit, h.found, h.ownHandle, h.readOnly, hkind, hwriter]
      rw [hroot] at hcommit
      unfold commitWriter at hcommit
      dsimp only at hcommit
      rw [hwriters hkind, ← hreading]
      split at hcommit
      · cases hcommit
      split at hcommit
      · cases hcommit
        exact ⟨rfl, rfl⟩
      split at hcommit
      · cases hcommit
      · cases hcommit
        exact ⟨rfl, rfl⟩

/-- If the commit of a root that has begun and opened one database is refused, nothing is left of
the open. -/
theorem Opener.commit_refused {engine : Engine} (h : Opener engine kind handle txn opened)
    (hroster : Roster opened)
    (hwriters : kind.contains TxnFlags.readOnly = false → engine.writers = [])
    (hcommit : opened.commit handle = (.error code, last)) : LikeBefore engine last := by
  cases hkind : kind.contains TxnFlags.readOnly with
  | true =>
      rw [commit_reader h.found (h.readOnly.trans hkind)] at hcommit
      cases hcommit
  | false =>
      obtain ⟨hwriter, hreading⟩ := h.writer hkind
      have hroot : opened.commit handle = opened.commitWriter txn [] := by
        simp [commit, h.found, h.ownHandle, h.readOnly, hkind, hwriter]
      rw [hroot] at hcommit
      rw [hroster.commitWriter_root hwriter hcommit, h.ownHandle]
      have habort : opened.abort handle =
          { opened with
            writers := []
            slots := opened.slots.discard txn.named
            memory := remember opened.memory txn.named } := by
        simp [abort, h.found, h.readOnly, hkind, hwriter, abortWriters, h.ownHandle]
      obtain ⟨readers, slots, hopened, hrestored⟩ := h.undone hkind
      rw [habort]
      generalize opened.nextHandle = next at hopened
      subst hopened
      refine ⟨readers, remember engine.memory txn.named, next, slots.discard txn.named, ?_,
        hrestored⟩
      simp only [hwriters hkind]

end MappedStore.Engine
