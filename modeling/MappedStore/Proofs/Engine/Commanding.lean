import MappedStore.Proofs.Engine.Refusing

/-!
# Slots that a transaction commands

A transaction commands a slot if it can use it and, in case it writes, has kept up with the occupant
(`Txn.Commands`). Through such a slot the engine may refuse a use for many reasons, but the slot is
none of them (`refusal_commands`).
-/

namespace MappedStore.Engine

variable {α σ : Type} {engine : Engine} {handle slot : Nat} {txn : Txn} {content : TxnSlot}
  {slots : SlotTable} {limit : Nat} {blocked : Bool} {key : Bytes} {code : Code}

/-- The counter of a slot that a transaction can use, as it has learnt of it. -/
def Txn.footing (txn : Txn) (slot : Nat) : Option Nat := (txn.usable? slot).map (·.sequence)

/-- A transaction can use a slot, and has kept up with the occupant if it writes. -/
def Txn.Commands (slots : SlotTable) (slot : Nat) (txn : Txn) : Prop :=
  ∃ sequence, txn.footing slot = some sequence ∧
    (txn.readOnly = true ∨ sequence = (slots.info slot).sequence)

/-- What a transaction holds of a slot that it commands. -/
theorem Txn.Commands.usable (h : txn.Commands slots slot) :
    ∃ content, txn.usable? slot = some content ∧ txn.isOutdated slots slot content = false := by
  obtain ⟨sequence, hfooting, hcurrent⟩ := h
  obtain ⟨content, husable, rfl⟩ := Option.map_eq_some_iff.mp hfooting
  refine ⟨content, husable, ?_⟩
  rcases hcurrent with hreader | hsequence
  · exact isOutdated_of_readOnly hreader ..
  · simp [isOutdated, hsequence]

/-! ## Refusals that are not about the slot -/

/-- The codes for a slot that cannot be used, and for one whose occupant has changed. -/
def SlotFault (code : Code) : Prop := code = invalid ∨ code = Condition.badDbi.code

/-- Only the codes about a slot are about a slot. -/
theorem selective_slotFault : Selective SlotFault where
  condition := by
    intro condition hne
    cases condition with
    | badDbi => exact absurd rfl hne
    | _ => unfold SlotFault; decide
  denied := by
    unfold SlotFault
    decide

/-- A slot that a transaction commands is not at fault. -/
theorem Txn.Commands.suits (h : txn.Commands slots slot) : txn.Suits SlotFault slots slot := by
  obtain ⟨content, husable, hcurrent⟩ := h.usable
  refine ⟨fun _ ↦ ⟨content, husable⟩, fun _ other hother ↦ ?_⟩
  obtain rfl := Option.some.inj (husable.symm.trans hother)
  exact hcurrent

/-- The flags of a use that stores a value. -/
def Use.flags? : Use → Option WriteFlags
  | .put _ _ _ flags | .reserve _ _ _ flags => some flags
  | _ => none

/-- A use through a slot that the transaction commands may be refused, but not because of the
slot. -/
theorem refusal_commands (htxn : engine.txn? handle = some txn)
    (h : txn.Commands engine.slots slot) {use : Use} (hslot : use.slot? = some slot)
    (hflags : ∀ flags, use.flags? = some flags → WriteFlags.accepted.contains flags = true)
    (hrefusal : engine.refusal handle use = some code) : ¬ SlotFault code := by
  have hsuits : ∀ other, engine.txn? handle = some other →
      other.Suits SlotFault engine.slots slot := by
    intro other hother
    obtain rfl := Option.some.inj (htxn.symm.trans hother)
    exact h.suits
  have hknown : engine.txn? handle = none → ¬ SlotFault invalid := by
    intro hunknown
    rw [htxn] at hunknown
    cases hunknown
  have hcode : ∀ {α : Type} {answer : Answer Engine α}, Avoids SlotFault answer →
      failure answer.1 = some code → ¬ SlotFault code := by
    intro α answer hanswer hfailure
    cases hresult : answer.1 with
    | ok value =>
        rw [hresult] at hfailure
        cases hfailure
    | error other =>
        rw [hresult] at hfailure
        exact Option.some.inj hfailure ▸ hanswer.not_bad other hresult
  have honTxn : ∀ {α : Type} {operation : Txn → Answer Txn α},
      (∀ txn : Txn, txn.Suits SlotFault engine.slots slot → Avoids SlotFault (operation txn)) →
      Avoids SlotFault (engine.onTxn handle operation) :=
    fun hoperation ↦ avoids_onTxn hknown fun txn htxn ↦ hoperation txn (hsuits txn htxn)
  have hput : ∀ key payload flags, WriteFlags.accepted.contains flags = true →
      Avoids SlotFault (engine.put handle slot key payload flags) :=
    fun key payload flags hflags ↦
      honTxn fun txn h ↦ Txn.avoids_put selective_slotFault h fun _ ↦ hflags
  cases use with
  | get => cases hslot; exact hcode (honTxn fun _ ↦ Txn.avoids_get selective_slotFault) hrefusal
  | stat => cases hslot; exact hcode (honTxn fun _ ↦ Txn.avoids_stat selective_slotFault) hrefusal
  | put => cases hslot; exact hcode (hput _ _ _ (hflags _ rfl)) hrefusal
  | reserve => cases hslot; exact hcode (hput _ _ _ (hflags _ rfl)) hrefusal
  | del => cases hslot; exact hcode (honTxn fun _ ↦ Txn.avoids_del selective_slotFault) hrefusal
  | drop => cases hslot; exact hcode (avoids_drop selective_slotFault hknown hsuits _) hrefusal
  | openDatabase => cases hslot

end MappedStore.Engine
