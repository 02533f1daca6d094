import MappedStore.Proofs.Engine.Publishing

/-!
# Roots that have only opened databases

A root write transaction that has opened databases and done nothing else holds of each slot what was
known about it, or what its own open has put there (`Txn.Opening`). What it sees is the committed
snapshot, and an empty table for each database that it has created. Such a transaction is where the
levels of nested writers start.
-/

namespace MappedStore.Engine

variable {engine result : Engine} {slots : SlotTable} {snapshot : Snapshot} {slot handle : Nat}
  {txn base : Txn} {content : TxnSlot} {table : Table} {name : Bytes} {flags : DbFlags}
  {flags' : TxnFlags}

/-! ## What an open does -/

/-- A new database gets a record in the main table. -/
theorem createRecord_made (h : engine.createRecord txn name flags = (.ok table, base)) :
    base.main.table.find? name = some .database ∧ base.changed = true ∧ table.entries = [] := by
  unfold createRecord at h
  dsimp only at h
  split at h
  · simp [refuseSystem] at h
  split at h
  · simp [refuse] at h
  split at h
  · simp at h
  rename_i prepared hprepared
  have hchanged : prepared.changed = true := by
    split at hprepared
    · exact (Txn.newRoot_ok hprepared).2
    · exact (Txn.touch_ok hprepared (by simp [Txn.slot?, mainSlot])).2
  obtain ⟨htable, rfl⟩ := Prod.mk.inj h
  exact ⟨Entries.find?_insert_self _ _ _ _, hchanged, by rw [← Except.ok.inj htable]⟩

/-- A database that cannot be created leaves the transaction as it was, or broken. -/
theorem createRecord_failed {code : Code}
    (h : engine.createRecord txn name flags = (.error code, base)) :
    base = txn ∨ base.broken = true := by
  have hclaim : ∀ {txn after : Txn} {limit pages : Nat} {code : Code},
      txn.claim limit pages = (.error code, after) → after.broken = true := by
    intro txn after limit pages code h
    unfold Txn.claim at h
    split at h
    · simp at h
    · split at h
      · rw [← (Prod.mk.inj h).2]
      · simp at h
  unfold createRecord at h
  dsimp only at h
  split at h
  · exact .inl (Prod.mk.inj h).2.symm
  split at h
  · exact .inl (Prod.mk.inj h).2.symm
  split at h
  · rename_i failed hfailed
    obtain rfl := (Prod.mk.inj h).2
    refine .inr ?_
    split at hfailed
    · unfold Txn.newRoot at hfailed
      split at hfailed
      · rename_i hfull
        exact (Prod.mk.inj hfailed).2 ▸ hclaim hfull
      · simp at hfailed
    · simp only [Txn.touch, Txn.slot?, mainSlot, decide_true, Bool.true_or, if_true,
        Txn.touchTree] at hfailed
      split at hfailed
      · simp at hfailed
      · split at hfailed
        · rename_i hfull
          exact (Prod.mk.inj hfailed).2 ▸ hclaim hfull
        · simp at hfailed
  · simp at h

/-- The place that a search finds for a new occupant is free, or one past those looked through. -/
theorem searchSlots_snd_free {count index : Nat} (h : (searchSlots slots count name).2 = some index) :
    index < count ∧ (slots.getD index {}).name = [] := by
  obtain ⟨hlt, hfree, -⟩ := List.findIdx?_eq_some_iff_getElem.mp h
  simp only [List.length_map, List.length_range] at hlt
  simp only [List.getElem_map, List.getElem_range, SlotInfo.isFree] at hfree
  exact ⟨hlt, List.isEmpty_iff.mp hfree⟩

/-- The answer to an open of a named database through a write transaction. It changes nothing, or
fails and may break the transaction, or gives a free position to the name, after adding a record of
the name if there was none. -/
inductive Opens (engine : Engine) (txn : Txn) (name : Bytes) : Answer Engine Nat → Prop where
  | same (result : Except Code Nat) : Opens engine txn name (result, engine)
  | failed {base : Txn} (code : Code) (hbase : base = txn ∨ base.broken = true)
      (hhandle : base.handle = txn.handle) : Opens engine txn name (.error code, engine.replace base)
  | occupied {index : Nat} {base : Txn} {table : Table} {created : Bool}
      (hindex : index ≤ txn.named.length) (hname : name ≠ [])
      (hfree : index < txn.named.length → (engine.slots.getD index {}).name = [])
      (hunseen : ∀ other < txn.named.length, (engine.slots.getD other {}).name ≠ name)
      (hrecords : Records name txn base)
      (hrecorded : base.main.table.find? name = some .database)
      (hclean : created = false → base = txn)
      (hcreated : created = true → txn.main.table.find? name = none ∧ base.changed = true ∧
        table.entries = []) :
      Opens engine txn name (engine.occupy base index name table created)

/-- A position that is found for a name is free, or follows all those that the transaction has. -/
theorem searchSlots_place {count index : Nat}
    (hindex : (searchSlots slots count name).2.getD count = index) :
    index ≤ count ∧ (index < count → (slots.getD index {}).name = []) := by
  refine ⟨hindex ▸ searchSlots_snd_le slots count name, fun hlt ↦ ?_⟩
  cases hfree : (searchSlots slots count name).2 with
  | none => simp [hfree] at hindex; omega
  | some found =>
      obtain rfl : found = index := by simpa [hfree] using hindex
      exact (searchSlots_snd_free hfree).2

/-- Every open of a named database is among these. -/
theorem OpenNamedOutcome.opens {flags : DbFlags} {answer : Answer Engine Nat}
    (h : OpenNamedOutcome engine txn name flags answer) : Opens engine txn name answer := by
  cases h with
  | known | refused => exact .same _
  | unrecorded _ _ _ hcreate =>
      exact .failed _ (createRecord_failed hcreate) (createRecord_error hcreate).kin.handle
  | found hsearch hname hindex hrecorded =>
      obtain ⟨hle, hfree⟩ := searchSlots_place hindex
      exact .occupied hle hname hfree (searchSlots_fst_eq_none hsearch hname) (.refl name txn)
        hrecorded (fun _ ↦ rfl) (by simp)
  | created hsearch hname hindex hrecord hcreate =>
      obtain ⟨hle, hfree⟩ := searchSlots_place hindex
      obtain ⟨hrecorded, hchanged, hentries⟩ := createRecord_made hcreate
      exact .occupied hle hname hfree (searchSlots_fst_eq_none hsearch hname)
        (createRecord_ok hcreate).2 hrecorded (by simp) fun _ ↦ ⟨hrecord, hchanged, hentries⟩

/-- What is known about the slot of a position that was given to a name. -/
theorem info_occupied_self (slots : SlotTable) (index : Nat) (name : Bytes) :
    SlotTable.info (Engine.occupied slots index name) (index + 2) =
      { slots.info (index + 2) with
        name := name
        sequence := (slots.info (index + 2)).sequence + 1 } :=
  SlotTable.getD_updateAt_self _ slots index

/-- What is known about the other slots when a position is given to a name. -/
theorem info_occupied_of_ne (slots : SlotTable) {index : Nat} (name : Bytes)
    (hslot : slot ≠ index + 2) :
    SlotTable.info (Engine.occupied slots index name) slot = slots.info slot := by
  rcases slot with _ | _ | other
  · rfl
  · rfl
  · exact SlotTable.getD_updateAt_of_ne _ slots (by omega)

/-- What a transaction holds of the named slots after a position was given away. -/
theorem slot?_occupied (hrecords : Records name txn base) {index : Nat}
    (hindex : index ≤ txn.named.length) (placed : TxnSlot) (hslot : slot ≠ mainSlot) :
    ({ base with named := placeSlot base.named index placed } : Txn).slot? slot =
      if slot = index + 2 then some placed else txn.slot? slot := by
  rcases slot with _ | _ | other
  · simp [Txn.slot?]
  · exact absurd rfl hslot
  · change (placeSlot base.named index placed)[other]? = _
    rw [Txn.Coherent.getElem?_placeSlot _ _ (hrecords.named ▸ hindex), hrecords.named]
    simp [Txn.slot?]

/-! ## The invariant -/

/-- What a root that has only opened databases holds of a named slot. A slot that was known is as it
was known, and has not been read; one that the root has opened is recorded in the main table; and
one whose database the root has created is empty, and no other slot has its name. -/
structure Txn.Settled (slots : SlotTable) (snapshot : Snapshot) (txn : Txn) (slot : Nat)
    (content : TxnSlot) : Prop where
  standing : content.usable = true → content.sequence = (slots.info slot).sequence
  known : content.usable = true → content.fresh = false → content.stale = true ∧
    (slots.info slot).known = true ∧ (slots.info slot).flags = content.table.flags
  clean : content.fresh = false → content.dirty = false
  opened : content.fresh = true → content.usable = true ∧ content.stale = false ∧
    (slots.info slot).name ≠ [] ∧
    txn.main.table.find? (slots.info slot).name = some .database
  created : content.dirty = true → snapshot.main.find? (slots.info slot).name = none ∧
    content.table.entries = []
  alone : content.dirty = true → ∀ other ≠ mainSlot, txn.slot? other ≠ none →
    (slots.info other).name = (slots.info slot).name → other = slot

/-- A root that has only opened databases. For every name it has what the committed snapshot has,
unless it has created the database of that name. -/
structure Txn.Opening (slots : SlotTable) (snapshot : Snapshot) (txn : Txn) : Prop where
  mainStale : txn.main.stale = false
  settled : ∀ slot content, slot ≠ mainSlot → txn.slot? slot = some content →
    txn.Settled slots snapshot slot content
  unchanged : txn.changed = false → txn.snapshot = snapshot ∧
    ∀ slot content, slot ≠ mainSlot → txn.slot? slot = some content → content.dirty = false
  agrees : ∀ name, txn.main.table.find? name = snapshot.main.find? name ∧
      txn.snapshot.table name = snapshot.table name ∨
    snapshot.main.find? name = none ∧ ∃ slot content, slot ≠ mainSlot ∧
      txn.slot? slot = some content ∧ content.dirty = true ∧ (slots.info slot).name = name

/-- Other flags of the main table. -/
theorem Txn.Opening.mainFlags (h : txn.Opening slots snapshot) (flags : DbFlags) :
    Txn.Opening slots snapshot
      { txn with
        main := { txn.main with table := { txn.main.table with flags := flags } }
        changed := true } := by
  have hslot : ∀ slot ≠ mainSlot, Txn.slot?
      { txn with
        main := { txn.main with table := { txn.main.table with flags := flags } }
        changed := true } slot = txn.slot? slot := by
    intro slot hslot
    rcases slot with _ | _ | index
    · rfl
    · exact absurd rfl hslot
    · rfl
  refine ⟨h.mainStale, fun slot content hnamed hcontent ↦ ?_, by simp, fun name ↦ ?_⟩
  · rw [hslot slot hnamed] at hcontent
    obtain ⟨hstanding, hknown, hclean, hopened, hcreated, halone⟩ :=
      h.settled slot content hnamed hcontent
    exact ⟨hstanding, hknown, hclean, hopened, hcreated, fun hdirty other hother ↦
      hslot other hother ▸ halone hdirty other hother⟩
  · rcases h.agrees name with hsame | ⟨hnone, slot, content, hnamed, hcontent, hrest⟩
    · exact .inl hsame
    · exact .inr ⟨hnone, slot, content, hnamed, (hslot slot hnamed).trans hcontent, hrest⟩

/-- A slot that a transaction holds has another name than one that it has not seen. -/
theorem Txn.name_ne_of_unseen (hunseen : ∀ other < txn.named.length, (slots.getD other {}).name ≠ name)
    (hslot : slot ≠ mainSlot) (hcontent : txn.slot? slot = some content) :
    (slots.info slot).name ≠ name := by
  rcases slot with _ | _ | other
  · simp [Txn.slot?] at hcontent
  · exact absurd rfl hslot
  · exact hunseen other (List.getElem?_eq_some_iff.mp hcontent).1

/-- A slot that has been changed is one that the root has opened. -/
theorem Txn.Settled.fresh (h : txn.Settled slots snapshot slot content)
    (hdirty : content.dirty = true) : content.fresh = true := by
  by_contra hfresh
  exact Bool.false_ne_true ((h.clean (by simpa using hfresh)).symm.trans hdirty)

/-- A slot stays settled when a position is given to a name that no slot has. -/
theorem Txn.Settled.occupied (h : txn.Settled slots snapshot slot content) {index : Nat}
    {placed : TxnSlot} (hindex : index ≤ txn.named.length) (hname : (slots.info slot).name ≠ name)
    (hslot : slot ≠ index + 2) (hrecords : Records name txn base) :
    Txn.Settled (Engine.occupied slots index name) snapshot
      { base with named := placeSlot base.named index placed } slot content := by
  have hinfo := info_occupied_of_ne slots name hslot
  obtain ⟨hstanding, hknown, hclean, hopened, hcreated, halone⟩ := h
  refine ⟨hinfo ▸ hstanding, hinfo ▸ hknown, hclean, fun hfresh ↦ ?_, hinfo ▸ hcreated,
    fun hdirty other hother hothers hsame ↦ ?_⟩
  · obtain ⟨husable, hstale, hoccupied, hfound⟩ := hopened hfresh
    rw [hinfo]
    exact ⟨husable, hstale, hoccupied, (hrecords.records _ hname).trans hfound⟩
  · rw [hinfo] at hsame
    by_cases hhere : other = index + 2
    · rw [hhere, info_occupied_self] at hsame
      exact absurd hsame.symm hname
    · rw [slot?_occupied hrecords hindex _ hother, if_neg hhere] at hothers
      rw [info_occupied_of_ne slots name hhere] at hsame
      exact halone hdirty other hother hothers hsame

/-- A free position is given to a name that no slot has and that is on record. A database that was
there is found as it was, and one that was created is empty. -/
structure Placing (slots : SlotTable) (index : Nat) (name : Bytes) (txn base : Txn) (table : Table)
    (created : Bool) : Prop where
  index_le : index ≤ txn.named.length
  name_ne : name ≠ []
  free : index < txn.named.length → (slots.getD index {}).name = []
  unseen : ∀ other < txn.named.length, (slots.getD other {}).name ≠ name
  records : Records name txn base
  recorded : base.main.table.find? name = some .database
  clean : created = false → base = txn
  created : created = true → txn.main.table.find? name = none ∧ base.changed = true ∧
    table.entries = []

/-- What a root holds of the slot of a position that it has given to a name. -/
def placed (slots : SlotTable) (index : Nat) (name : Bytes) (table : Table) (created : Bool) :
    TxnSlot :=
  { usable := true
    fresh := true
    dirty := created
    sequence := ((Engine.occupied slots index name).getD index {}).sequence
    table := table }

/-- What the root holds of the named slots afterwards. -/
theorem Placing.slot? {index : Nat} {created : Bool}
    (h : Placing slots index name txn base table created) (content : TxnSlot)
    (hslot : slot ≠ mainSlot) :
    ({ base with named := placeSlot base.named index content } : Txn).slot? slot =
      if slot = index + 2 then some content else txn.slot? slot :=
  slot?_occupied h.records h.index_le content hslot

namespace Txn.Opening

/-- A name without a record in the main table of the root has none in the committed one. -/
theorem find?_eq_none (h : txn.Opening slots snapshot)
    (hnone : txn.main.table.find? name = none) : snapshot.main.find? name = none := by
  rcases h.agrees name with ⟨hsame, -⟩ | ⟨hnone', -⟩
  · exact hsame.symm.trans hnone
  · exact hnone'

variable {index : Nat} {created : Bool}

/-- The slot of the position is settled. -/
theorem settled_placed (h : txn.Opening slots snapshot)
    (hplacing : Placing slots index name txn base table created) :
    Txn.Settled (Engine.occupied slots index name) snapshot
      { base with named := placeSlot base.named index (placed slots index name table created) }
      (index + 2) (placed slots index name table created) := by
  refine ⟨fun _ ↦ rfl, by simp [placed], by simp [placed], fun _ ↦ ⟨rfl, rfl, ?_, ?_⟩,
    fun hdirty ↦ ⟨?_, ?_⟩, ?_⟩
  · rw [info_occupied_self]
    exact hplacing.name_ne
  · rw [info_occupied_self]
    exact hplacing.recorded
  · rw [info_occupied_self]
    exact h.find?_eq_none (hplacing.created hdirty).1
  · exact (hplacing.created hdirty).2.2
  · intro _ other hother hothers hsame
    by_contra hne
    rw [hplacing.slot? _ hother, if_neg hne] at hothers
    obtain ⟨content, hcontent⟩ := Option.ne_none_iff_exists'.mp hothers
    rw [info_occupied_of_ne slots name hne, info_occupied_self] at hsame
    exact name_ne_of_unseen hplacing.unseen hother hcontent hsame

/-- For every name the root still has what was committed, unless it has created the database. -/
theorem agrees_placed (h : txn.Opening slots snapshot)
    (hplacing : Placing slots index name txn base table created) {after : Txn}
    (hafter : after =
      { base with named := placeSlot base.named index (placed slots index name table created) })
    (other : Bytes) :
    after.main.table.find? other = snapshot.main.find? other ∧
        after.snapshot.table other = snapshot.table other ∨
      snapshot.main.find? other = none ∧ ∃ slot content, slot ≠ mainSlot ∧
        after.slot? slot = some content ∧ content.dirty = true ∧
        ((Engine.occupied slots index name).info slot).name = other := by
  subst hafter
  by_cases hother : other = name
  · subst hother
    cases hcase : created with
    | true =>
        subst hcase
        refine .inr ⟨h.find?_eq_none (hplacing.created rfl).1, index + 2, _, by simp [mainSlot],
          (hplacing.slot? _ (by simp [mainSlot])).trans (if_pos rfl), rfl, by rw [info_occupied_self]⟩
    | false =>
        obtain rfl := hplacing.clean hcase
        rcases h.agrees other with hsame | ⟨-, slot, content, hmain, hcontent, -, hslotName⟩
        · exact .inl hsame
        · exact absurd hslotName (name_ne_of_unseen hplacing.unseen hmain hcontent)
  · rcases h.agrees other with
      ⟨hfind, htable⟩ | ⟨hfind, slot, content, hmain, hcontent, hdirty, hslotName⟩
    · exact .inl ⟨(hplacing.records.records other hother).trans hfind,
        (hplacing.records.tables other hother).trans htable⟩
    · -- a slot whose database was created is occupied, so its position was not given away
      have hsettled := h.settled slot content hmain hcontent
      have hne : slot ≠ index + 2 := by
        rintro rfl
        exact (hsettled.opened (hsettled.fresh hdirty)).2.2.1
          (hplacing.free (List.getElem?_eq_some_iff.mp hcontent).1)
      refine .inr ⟨hfind, slot, content, hmain, ?_, hdirty,
        (info_occupied_of_ne slots name hne).symm ▸ hslotName⟩
      rwa [hplacing.slot? _ hmain, if_neg hne]

/-- A free position is given to a name. -/
theorem occupied (h : txn.Opening slots snapshot)
    (hplacing : Placing slots index name txn base table created) :
    Txn.Opening (Engine.occupied slots index name) snapshot
      { base with named := placeSlot base.named index (placed slots index name table created) } := by
  refine ⟨hplacing.records.mainStale h.mainStale, fun slot content hmain hcontent ↦ ?_,
    fun hchanged ↦ ?_, h.agrees_placed hplacing rfl⟩
  · rw [hplacing.slot? _ hmain] at hcontent
    split at hcontent
    · rename_i hhere
      obtain rfl := Option.some.inj hcontent
      exact hhere ▸ h.settled_placed hplacing
    · rename_i hne
      exact (h.settled slot content hmain hcontent).occupied hplacing.index_le
        (name_ne_of_unseen hplacing.unseen hmain hcontent) hne hplacing.records
  · -- only an open of a database that was there changes nothing
    have hold : created = false := by
      by_contra hnew
      exact Bool.false_ne_true
        (hchanged.symm.trans (hplacing.created (by simpa using hnew)).2.1)
    obtain rfl := hplacing.clean hold
    obtain ⟨hsnapshot, hslots⟩ := h.unchanged hchanged
    refine ⟨hsnapshot, fun slot content hmain hcontent ↦ ?_⟩
    rw [hplacing.slot? _ hmain] at hcontent
    split at hcontent
    · obtain rfl := Option.some.inj hcontent
      exact hold
    · exact hslots slot content hmain hcontent

end Txn.Opening

/-! ## Engines -/

/-- The only writer of an engine is a root that has only opened databases, and no other slots than
those listed, unless it is broken. -/
structure Preparing (handle : Nat) (opened : List Nat) (engine : Engine) (txn : Txn) : Prop where
  writers : engine.writers = [txn]
  handle : txn.handle = handle
  opening : txn.broken = false → txn.Opening engine.slots engine.image.snapshot
  opened : txn.broken = false → ∀ slot content, slot ≠ mainSlot → txn.slot? slot = some content →
    content.fresh = true → slot ∈ opened

variable {opened : List Nat}

/-- The root is replaced. -/
theorem Preparing.replace (h : Preparing handle opened engine txn)
    (hhandle : base.handle = txn.handle) : (engine.replace base).writers = [base] := by
  simp [Engine.replace, h.writers, hhandle]

/-- An open through the root. -/
theorem Preparing.openDatabase (h : Preparing handle opened engine txn) {name : Option Bytes}
    {answer : Except Code Nat} (hopen : engine.openDatabase handle name flags = (answer, result)) :
    ∃ after, Preparing handle (answer.toOption.toList ++ opened) result after := by
  have hsame : ∀ answer : Except Code Nat,
      Preparing handle (answer.toOption.toList ++ opened) engine txn := fun answer ↦
    ⟨h.writers, h.handle, h.opening, fun hbroken slot content hslot hcontent hfresh ↦
      List.mem_append_right _ (h.opened hbroken slot content hslot hcontent hfresh)⟩
  have htxn : engine.txn? handle = some txn := by simp [txn?, h.writers, h.handle]
  have hroot : ∀ {found : Txn}, engine.txn? handle = some found → txn = found := fun hfound ↦
    Option.some.inj (htxn.symm.trans hfound)
  have houtcome := engine.openDatabase_outcome handle name flags
  rw [hopen] at houtcome
  cases houtcome with
  | unknown | misflagged | blocked | main => exact ⟨txn, hsame _⟩
  | mainFlags hfound =>
      obtain rfl := hroot hfound
      refine ⟨_, h.replace rfl, h.handle, fun hbroken ↦ (h.opening hbroken).mainFlags _, ?_⟩
      intro hbroken slot content hslot hcontent hfresh
      refine List.mem_append_right _ (h.opened hbroken slot content hslot ?_ hfresh)
      rcases slot with _ | _ | index
      · exact hcontent
      · exact absurd rfl hslot
      · exact hcontent
  | named hfound hblocked hnamed =>
      obtain rfl := hroot hfound
      have hready : txn.broken = false := (isBlocked_eq_false.mp hblocked).1
      cases hnamed.opens with
      | same => exact ⟨txn, hsame _⟩
      | failed code hbase hhandle =>
          refine ⟨_, h.replace hhandle, hhandle.trans h.handle, fun hbroken ↦ ?_, fun hbroken ↦ ?_⟩
          · obtain rfl := hbase.resolve_right (by simp [hbroken])
            exact h.opening hbroken
          · obtain rfl := hbase.resolve_right (by simp [hbroken])
            exact (hsame (.error code)).opened hbroken
      | occupied hindex hname hfree hunseen hrecords hrecorded hclean hcreated =>
          refine ⟨_, h.replace hrecords.kin.handle, hrecords.kin.handle.trans h.handle, fun _ ↦ ?_, ?_⟩
          · exact (h.opening hready).occupied
              ⟨hindex, hname, hfree, hunseen, hrecords, hrecorded, hclean, hcreated⟩
          · intro _ slot content hslot hcontent hfresh
            rw [slot?_occupied hrecords hindex _ hslot] at hcontent
            split at hcontent
            · rename_i hhere
              simp [Except.toOption, hhere, firstSlot]
            · exact List.mem_append_right _ (h.opened hready slot content hslot hcontent hfresh)

end MappedStore.Engine
