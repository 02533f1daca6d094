import MappedStore.Proofs.Engine.Peeking

/-!
# Codes that a use avoids

Which codes a refusal can carry. A property of codes is `Selective` if it holds of no code but the
two that are about a slot: that it cannot be used, and that its occupant has changed. Uses of a slot
avoid such codes if the slot is fit for them (`Txn.Suits`). With the codes about slots this says
that a slot is not to blame, and with the code of success that a failure can be told from a success.
-/

namespace MappedStore.Engine

variable {α σ : Type} {engine : Engine} {handle slot : Nat} {txn : Txn} {content : TxnSlot}
  {slots : SlotTable} {limit : Nat} {blocked : Bool} {key : Bytes} {code : Code}
  {condition : Condition} {bad : Code → Prop}

/-- The code for an argument that means nothing to the engine. -/
def invalid : Code := .system SystemText.invalidArgument

/-- The code for a write that is not permitted. -/
def denied : Code := .system SystemText.denied

/-- An answer that refuses with none of some codes. -/
structure Avoids (bad : Code → Prop) (answer : Answer σ α) : Prop where
  not_bad : ∀ code, answer.1 = .error code → ¬ bad code

/-- A property of codes that holds at most of those that are about a slot. -/
structure Selective (bad : Code → Prop) : Prop where
  condition : ∀ condition : Condition, condition ≠ .badDbi → ¬ bad condition.code
  denied : ¬ bad denied

/-- A slot that is not at fault: a transaction can use it, and has kept up with its occupant, as far
as the codes for the contrary matter. -/
structure Txn.Suits (bad : Code → Prop) (slots : SlotTable) (slot : Nat) (txn : Txn) : Prop where
  usable : bad invalid → ∃ content, txn.usable? slot = some content
  current : bad Condition.badDbi.code → ∀ content, txn.usable? slot = some content →
    txn.isOutdated slots slot content = false

/-- A slot that cannot be used although it suits is told by a code that does not matter. -/
theorem Txn.Suits.not_invalid (h : txn.Suits bad slots slot) (hunusable : txn.usable? slot = none) :
    ¬ bad invalid := by
  intro hbad
  obtain ⟨content, husable⟩ := h.usable hbad
  rw [hunusable] at husable
  cases husable

/-! ## Ways to end -/

/-- An operation that succeeds. -/
theorem avoids_done (value : α) (state : σ) : Avoids bad ((.ok value, state) : Answer σ α) :=
  ⟨nofun⟩

/-- A refusal with a code that is none of those. -/
theorem avoids_error (h : ¬ bad code) (state : σ) :
    Avoids bad ((.error code, state) : Answer σ α) := by
  constructor
  rintro other ⟨⟩
  exact h

/-- A refusal that is passed on. -/
theorem Avoids.error {β τ : Type} {answer : Answer σ α} (h : Avoids bad answer) {state : τ}
    (hcode : answer.1 = .error code) : Avoids bad ((.error code, state) : Answer τ β) :=
  avoids_error (h.not_bad code hcode) state

/-- An operation on a transaction that may be unknown. -/
theorem avoids_onTxn {operation : Txn → Answer Txn α}
    (hunknown : engine.txn? handle = none → ¬ bad invalid)
    (h : ∀ txn, engine.txn? handle = some txn → Avoids bad (operation txn)) :
    Avoids bad (engine.onTxn handle operation) := by
  unfold onTxn
  split
  · exact avoids_error (hunknown ‹_›) _
  · exact ⟨(h _ ‹_›).not_bad⟩

section Selective

variable (hbad : Selective bad)
include hbad

/-- A refusal with a condition that is not about the slot. -/
theorem avoids_refuse (h : condition ≠ .badDbi) (state : σ) :
    Avoids bad (refuse condition state : Answer σ α) :=
  avoids_error (hbad.condition condition h) state

/-- A refusal of a write. -/
theorem avoids_denied (state : σ) :
    Avoids bad (refuseSystem SystemText.denied state : Answer σ α) :=
  avoids_error hbad.denied state

/-! ## Pages -/

/-- Claiming pages fails only if the map is full. -/
theorem Txn.avoids_claim (txn : Txn) (limit pages : Nat) : Avoids bad (txn.claim limit pages) := by
  unfold claim
  split
  · exact avoids_done ..
  split
  · exact avoids_refuse hbad (by decide) _
  · exact avoids_done ..

/-- Claiming the page of a tree. -/
theorem Txn.avoids_touchTree (txn : Txn) (limit slot : Nat) :
    Avoids bad (txn.touchTree limit slot) := by
  unfold touchTree
  split
  · exact avoids_done ..
  split
  · exact avoids_done ..
  split
  · rename_i hclaim
    exact (avoids_claim hbad txn limit 1).error (congrArg Prod.fst hclaim)
  · exact avoids_done ..

/-- Preparing a slot that has kept up with its occupant for a change. -/
theorem Txn.avoids_touch (h : bad Condition.badDbi.code → ∀ content,
      txn.slot? slot = some content → txn.isOutdated slots slot content = false) :
    Avoids bad (txn.touch limit slots slot) := by
  unfold touch
  split
  · exact avoids_done ..
  rename_i content hslot
  split
  · exact avoids_touchTree hbad ..
  split
  · rename_i houtdated
    refine avoids_error (fun hcode ↦ ?_) _
    rw [h hcode content hslot] at houtdated
    cases houtdated
  split
  · rename_i htouch
    exact (avoids_touchTree hbad txn limit mainSlot).error (congrArg Prod.fst htouch)
  · exact avoids_touchTree hbad ..

/-- The main slot never changes its occupant. -/
theorem Txn.avoids_touchMain (txn : Txn) (limit : Nat) (slots : SlotTable) :
    Avoids bad (txn.touch limit slots mainSlot) := by
  unfold touch
  split
  · exact avoids_done ..
  · rw [if_pos (by simp)]
    exact avoids_touchTree hbad ..

/-- Claiming the pages for an entry. -/
theorem Txn.avoids_claimEntry (txn : Txn) (limit : Nat) (key : Bytes) (size : Nat) :
    Avoids bad (txn.claimEntry limit key size) := by
  unfold claimEntry
  split
  · split
    · rename_i hclaim
      exact (avoids_claim hbad txn limit _).error (congrArg Prod.fst hclaim)
    · exact avoids_done ..
  · dsimp only
    split
    · rename_i hclaim
      exact (avoids_claim hbad txn limit _).error (congrArg Prod.fst hclaim)
    · exact avoids_done ..

/-! ## Writes -/

/-- Giving a key without a record its first value. -/
theorem Txn.avoids_insertNew (txn : Txn) (limit slot : Nat) (key : Bytes) (payload : Payload) :
    Avoids bad (txn.insertNew limit slot key payload) := by
  unfold insertNew
  split
  · rename_i hclaim
    exact (avoids_claimEntry hbad txn limit key _).error (congrArg Prod.fst hclaim)
  · exact avoids_done ..

/-- Giving an empty table its first page. -/
theorem Txn.avoids_newRoot (txn : Txn) (limit slot : Nat) :
    Avoids bad (txn.newRoot limit slot) := by
  unfold newRoot
  split
  · rename_i hclaim
    exact (avoids_claim hbad txn limit 1).error (congrArg Prod.fst hclaim)
  · exact avoids_done ..

/-- Giving an empty table its first entry. -/
theorem Txn.avoids_insertFirst (txn : Txn) (limit slot : Nat) (key : Bytes) (payload : Payload) :
    Avoids bad (txn.insertFirst limit slot key payload) := by
  unfold insertFirst
  split
  · rename_i hnew
    exact (avoids_newRoot hbad txn limit slot).error (congrArg Prod.fst hnew)
  · exact avoids_insertNew hbad ..

/-- Replacing the value of a key. -/
theorem Txn.avoids_overwrite (txn : Txn) (limit slot : Nat) (key : Bytes) (payload : Payload)
    (items : List Bytes) (run : Run) :
    Avoids bad (txn.overwrite limit slot key payload items run) := by
  unfold overwrite
  extract_lets inPlace
  split
  · exact avoids_done ..
  split
  · rename_i hclaim
    exact (avoids_claimEntry hbad txn limit key _).error (congrArg Prod.fst hclaim)
  · exact avoids_done ..

/-- Storing a value under a key whose record is known. -/
theorem Txn.avoids_store (txn : Txn) (limit slot : Nat) (table : Table) (key : Bytes)
    (payload : Payload) (flags : WriteFlags) (found : Option Record) :
    Avoids bad (txn.store limit slot table key payload flags found) := by
  have hitem : ∀ {flags order items item condition},
      addItem flags order items item = .error condition → condition = .keyExist := by
    intro flags order items item condition h
    unfold addItem at h
    split at h
    · split at h <;> cases h
      rfl
    · split at h <;> cases h
      rfl
  unfold store
  split
  · exact avoids_insertNew hbad ..
  · exact avoids_refuse hbad (by decide) _
  split
  · split
    · rename_i hadd
      exact avoids_refuse hbad (by rw [hitem hadd]; nofun) _
    split
    · exact avoids_done ..
    split
    · rename_i hclaim
      exact (avoids_claimEntry hbad txn limit key _).error (congrArg Prod.fst hclaim)
    · exact avoids_done ..
  · exact avoids_overwrite hbad ..

/-! ## Uses of a slot -/

/-- A table that cannot be read is no fault of a slot that has kept up with its occupant. -/
theorem Txn.not_bad_of_load
    (hcurrent : bad Condition.badDbi.code → txn.isOutdated slots slot content = false)
    (h : txn.load slots slot content = .error condition) : ¬ bad condition.code := by
  unfold load at h
  split at h
  · cases h
  split at h
  · rename_i houtdated
    cases h
    intro hcode
    rw [hcurrent hcode] at houtdated
    cases houtdated
  split at h
  · cases h
    exact hbad.condition _ (by decide)
  · cases h
    exact hbad.condition _ (by decide)
  · dsimp only at h
    split at h <;> cases h
    exact hbad.condition _ (by decide)

omit hbad in
/-- A slot that has kept up with its occupant still does so once its table was read. -/
theorem Txn.current_setSlot {loaded : TxnSlot} (husable : txn.usable? slot = some content)
    (hcurrent : txn.isOutdated slots slot content = false)
    (hload : txn.load slots slot content = .ok loaded) :
    ∀ held, (txn.setSlot slot loaded).slot? slot = some held →
      (txn.setSlot slot loaded).isOutdated slots slot held = false := by
  have hslot := (slot?_of_usable? husable).1
  intro held hheld
  rw [slot?_setSlot hslot, if_pos rfl] at hheld
  obtain rfl := Option.some.inj hheld
  have hreadOnly : (txn.setSlot slot loaded).readOnly = txn.readOnly := by
    unfold setSlot
    split <;> rfl
  rw [isOutdated, hreadOnly, (load_follows hload).1.sequence]
  exact hcurrent

/-- Preparing a slot that suits for a change once its table was read. -/
theorem Txn.avoids_touch_of_load {loaded : TxnSlot} (h : txn.Suits bad slots slot)
    (husable : txn.usable? slot = some content)
    (hload : txn.load slots slot content = .ok loaded) :
    Avoids bad ((txn.setSlot slot loaded).touch limit slots slot) :=
  avoids_touch hbad fun hcode ↦ current_setSlot husable (h.current hcode content husable) hload

/-- A look-up of a value. -/
theorem Txn.avoids_get (h : txn.Suits bad slots slot) :
    Avoids bad (txn.get slots blocked slot key) := by
  have houtcome := txn.get_outcome slots blocked slot key
  generalize txn.get slots blocked slot key = answer at houtcome ⊢
  cases houtcome with
  | unusable hunusable => exact avoids_error (h.not_invalid hunusable) _
  | unread husable _ hload =>
      refine avoids_error ?_ _
      split
      · exact hbad.condition _ (by decide)
      · exact not_bad_of_load hbad (fun hcode ↦ h.current hcode _ husable) hload
  | blocked | nameless | missed => exact avoids_refuse hbad (by decide) _
  | found => exact avoids_done ..

/-- A question for figures. -/
theorem Txn.avoids_stat (h : txn.Suits bad slots slot) :
    Avoids bad (txn.stat slots blocked slot) := by
  have houtcome := txn.stat_outcome slots blocked slot
  generalize txn.stat slots blocked slot = answer at houtcome ⊢
  cases houtcome with
  | unusable hunusable => exact avoids_error (h.not_invalid hunusable) _
  | blocked => exact avoids_refuse hbad (by decide) _
  | unread | answered => exact avoids_done ..

omit hbad in
/-- A write refuses a key for what stands under it only because it is there. -/
theorem Txn.meet_error {table : Table} {flags : WriteFlags}
    (h : meet table key flags = .error condition) : condition = .keyExist := by
  unfold meet at h
  split at h
  · split at h <;> cases h
    rfl
  · split at h
    · split at h <;> cases h
      rfl
    · cases h

/-- A write of a value, with flags that the engine knows as far as that matters. -/
theorem Txn.avoids_put {flags : WriteFlags} {payload : Payload} (h : txn.Suits bad slots slot)
    (hflags : bad invalid → WriteFlags.accepted.contains flags = true) :
    Avoids bad (txn.put limit slots blocked slot key payload flags) := by
  have houtcome := txn.put_outcome limit slots blocked slot key payload flags
  generalize txn.put limit slots blocked slot key payload flags = answer at houtcome ⊢
  cases houtcome with
  | unusable hunusable => exact avoids_error (h.not_invalid hunusable) _
  | misflagged _ hother =>
      refine avoids_error (fun hcode ↦ ?_) _
      rw [hflags hcode] at hother
      cases hother
  | reader => exact avoids_denied hbad _
  | blocked | missized => exact avoids_refuse hbad (by decide) _
  | unread hwritable _ hload =>
      exact avoids_error
        (not_bad_of_load hbad (fun hcode ↦ h.current hcode _ hwritable.usable) hload) _
  | seeded _ _ _ _ _ hfirst | first _ _ _ _ hfirst =>
      subst hfirst
      exact avoids_insertFirst hbad ..
  | unmet _ _ _ hmeet => exact avoids_refuse hbad (by rw [meet_error hmeet]; nofun) _
  | untouched hwritable _ hload _ htouch =>
      exact (avoids_touch_of_load hbad h hwritable.usable hload).error (congrArg Prod.fst htouch)
  | stored _ _ _ _ _ hstore =>
      subst hstore
      exact avoids_store hbad ..

/-- A removal of values. -/
theorem Txn.avoids_del {item : Option Bytes} (h : txn.Suits bad slots slot) :
    Avoids bad (txn.del limit slots blocked slot key item) := by
  have houtcome := txn.del_outcome limit slots blocked slot key item
  generalize txn.del limit slots blocked slot key item = answer at houtcome ⊢
  cases houtcome with
  | unusable hunusable => exact avoids_error (h.not_invalid hunusable) _
  | reader => exact avoids_denied hbad _
  | blocked | nameless | missed | unlisted | database => exact avoids_refuse hbad (by decide) _
  | unread hwritable _ hload =>
      exact avoids_error
        (not_bad_of_load hbad (fun hcode ↦ h.current hcode _ hwritable.usable) hload) _
  | untouched hwritable _ hload htouch =>
      exact (avoids_touch_of_load hbad h hwritable.usable hload).error (congrArg Prod.fst htouch)
  | removed => exact avoids_done ..

/-- The removal of the record of a named database. -/
theorem avoids_dropSlot (engine : Engine) (txn : Txn) (slot : Nat) :
    Avoids bad (engine.dropSlot txn slot) := by
  unfold dropSlot
  dsimp only
  split
  · exact avoids_refuse hbad (by decide) _
  split
  · exact avoids_refuse hbad (by decide) _
  split
  · rename_i htouch
    exact (Txn.avoids_touchMain hbad txn ..).error (congrArg Prod.fst htouch)
  split
  · exact avoids_refuse hbad (by decide) _
  · exact avoids_done ..

/-- The removal of a named database, or of its entries. -/
theorem avoids_drop (hunknown : engine.txn? handle = none → ¬ bad invalid)
    (h : ∀ txn, engine.txn? handle = some txn → txn.Suits bad engine.slots slot) (delete : Bool) :
    Avoids bad (engine.drop handle slot delete) := by
  have houtcome := engine.drop_outcome handle slot delete
  generalize engine.drop handle slot delete = answer at houtcome ⊢
  cases houtcome with
  | unknown htxn => exact avoids_error (hunknown htxn) _
  | unusable htxn hunusable => exact avoids_error ((h _ htxn).not_invalid hunusable) _
  | reader => exact avoids_denied hbad _
  | outdated htxn husable _ houtdated =>
      refine avoids_error (fun hcode ↦ ?_) _
      rw [(h _ htxn).current hcode _ husable] at houtdated
      cases houtdated
  | blocked | unread => exact avoids_refuse hbad (by decide) _
  | dropped _ _ _ _ hdropped => exact hdropped ▸ avoids_dropSlot hbad ..
  | cleared => exact avoids_done ..

end Selective

end MappedStore.Engine
