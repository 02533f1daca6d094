import MappedStore.Proofs.Engine.Footing
import MappedStore.Proofs.Engine.Opening
import MappedStore.Proofs.Engine.Refusing

/-!
# Uses of readers

A transaction that only reads loads tables and opens databases, and that is all that a use of it
does (`Roster.use_reader`). The table of a slot that it has read stays as it is until the
transaction gives the slot to another name. A slot that it has opened itself has the table of its
own snapshot (`Roster.opens_reader`), is offered to others once it has committed
(`OwnsTable.offers`), and is freed when it is reset (`OwnsTable.freed`).
-/

namespace MappedStore.Engine

variable {engine after : Engine} {slots slots' : SlotTable} {handle slot index : Nat}
  {txn txn' last : Txn} {content : TxnSlot} {table : Table} {name : Option Bytes} {text : Bytes}
  {flags : DbFlags}

/-! ## What is retained -/

/-- A transaction after a use that keeps what it has read of a slot, as long as the counter of the
slot stands. -/
structure Txn.Retains (slots slots' : SlotTable) (slot : Nat) (before after : Txn) : Prop where
  kin : Txn.Kin before after
  broken : after.broken = before.broken
  kept : ∀ content, before.slot? slot = some content → content.stale = false →
    (slots'.info slot).sequence = (slots.info slot).sequence → after.slot? slot = some content

/-- A transaction keeps what it has. -/
theorem Txn.Retains.refl (txn : Txn) : Txn.Retains slots slots' slot txn txn :=
  ⟨.refl txn, rfl, fun _ hcontent _ _ ↦ hcontent⟩

/-- A read leaves what was read before. -/
theorem Txn.Peeked.retains (h : Txn.Peeked slots txn last) (slot : Nat) :
    Txn.Retains slots slots' slot txn last := by
  cases h with
  | same => exact .refl txn
  | @loaded other held loaded husable hload =>
      obtain ⟨hheld, -, -⟩ := slot?_of_usable? husable
      have hset := Txn.slot?_setSlot hheld loaded slot
      refine ⟨?_, ?_, fun content hcontent hread _ ↦ ?_⟩
      · unfold Txn.setSlot
        split <;> exact ⟨rfl, rfl, rfl, rfl, rfl⟩
      · unfold Txn.setSlot
        split <;> rfl
      · rw [hset]
        split
        · rename_i hsame
          subst hsame
          obtain rfl : held = content := Option.some.inj (hheld.symm.trans hcontent)
          exact congrArg some (Except.ok.inj (hload.symm.trans (Txn.load_read hread)))
        · exact hcontent

/-! ## Opens -/

/-- The answer to an open through a transaction that only reads: it changes nothing, or gives the
main table other flags, or gives a position to a name, with the table that the snapshot has of it.
-/
inductive Views (engine : Engine) (txn : Txn) : Option Bytes → Answer Engine Nat → Prop where
  | same {name : Option Bytes} (result : Except Code Nat) : Views engine txn name (result, engine)
  | mainFlags {name : Option Bytes} (flags : DbFlags) :
      Views engine txn name (.ok mainSlot, engine.replace
        { txn with
          main := { txn.main with table := { txn.main.table with flags := flags } }
          changed := true })
  | occupied {index : Nat} {text : Bytes} {placed : TxnSlot} (hindex : index ≤ txn.named.length)
      (hname : text ≠ []) (hblocked : engine.isBlocked txn = false) (husable : placed.usable = true)
      (hread : placed.stale = false) (hfresh : placed.fresh = true)
      (htable : placed.table = txn.snapshot.table text) :
      Views engine txn (some text)
        (.ok (index + firstSlot),
          { engine.replace { txn with named := placeSlot txn.named index placed } with
            slots := occupied engine.slots index text })

/-- Every open through a transaction that only reads is among these. -/
theorem Roster.openDatabase_reader (h : Roster engine) (htxn : engine.txn? handle = some txn)
    (hreader : txn.readOnly = true) (name : Option Bytes) (flags : DbFlags) :
    Views engine txn name (engine.openDatabase handle name flags) := by
  have houtcome := engine.openDatabase_outcome handle name flags
  generalize engine.openDatabase handle name flags = answer at houtcome ⊢
  have hroot : ∀ {found : Txn}, engine.txn? handle = some found → txn = found := fun hfound ↦
    Option.some.inj (htxn.symm.trans hfound)
  -- a transaction that only reads cannot record a new name
  have hrefused : ∀ {text : Bytes}, engine.createRecord txn text flags
      = (.error (.system SystemText.denied), txn) := by
    intro text
    unfold createRecord
    rw [if_pos hreader]
    rfl
  cases houtcome with
  | unknown | misflagged | blocked | main => exact .same _
  | mainFlags hfound =>
      obtain rfl := hroot hfound
      exact .mainFlags _
  | named hfound hblocked hnamed =>
      obtain rfl := hroot hfound
      cases hnamed with
      | known | refused => exact .same _
      | unrecorded _ _ _ hcreate =>
          obtain ⟨-, rfl⟩ := Prod.mk.inj (hrefused.symm.trans hcreate)
          rw [h.replace_self htxn]
          exact .same _
      | found _ hname hindex =>
          exact .occupied (hindex ▸ searchSlots_snd_le ..) hname hblocked rfl rfl rfl rfl
      | created _ _ _ _ hcreate => cases hrefused.symm.trans hcreate

/-- A position that is given away goes to the slot of the position. -/
theorem slot?_placed (txn : Txn) (hindex : index ≤ txn.named.length) (placed : TxnSlot)
    (hslot : slot ≠ mainSlot) :
    ({ txn with named := placeSlot txn.named index placed } : Txn).slot? slot =
      if slot = index + firstSlot then some placed else txn.slot? slot :=
  slot?_occupied (.refl [] txn) hindex placed hslot

/-- A use of a transaction that only reads leaves what it has read, unless the transaction gives the
slot to another name. The counter of the slot moves only then. -/
theorem Roster.use_reader (h : Roster engine) (htxn : engine.txn? handle = some txn)
    (hreader : txn.readOnly = true) (use : Use) (hslot : slot ≠ mainSlot) :
    ∃ txn', (engine.use handle use).reading = (engine.replace txn').reading ∧
      Txn.Retains engine.slots (engine.use handle use).slots slot txn txn' ∧
      ((engine.use handle use).slots.info slot = engine.slots.info slot ∨
        ((engine.use handle use).slots.info slot).name ≠ []) := by
  have hsame : ∃ txn', engine.reading = (engine.replace txn').reading ∧
      Txn.Retains engine.slots engine.slots slot txn txn' ∧
      (engine.slots.info slot = engine.slots.info slot ∨ (engine.slots.info slot).name ≠ []) :=
    ⟨txn, by rw [h.replace_self htxn], .refl txn, .inl rfl⟩
  have hpeeked : ∀ {after : Engine}, Peeked engine handle after →
      ∃ txn', after.reading = (engine.replace txn').reading ∧
        Txn.Retains engine.slots after.slots slot txn txn' ∧
        (after.slots.info slot = engine.slots.info slot ∨ (after.slots.info slot).name ≠ []) := by
    intro after h
    cases h with
    | same => exact hsame
    | @read before peeked hbefore hread =>
        obtain rfl : before = txn := Option.some.inj (hbefore.symm.trans htxn)
        exact ⟨peeked, rfl, hread.retains slot, .inl rfl⟩
  by_cases hwrites : use.writes = true
  · obtain ⟨-, -, -, huse⟩ := h.refusal_reader htxn hreader hwrites
    rw [huse]
    exact hsame
  cases use with
  | put | reserve | del | drop => exact absurd rfl hwrites
  | get used key => exact hpeeked (peeked_get engine handle used key)
  | stat used => exact hpeeked (peeked_onTxn fun txn _ ↦ txn.peeked_stat ..)
  | openDatabase name flags =>
      have hviews := h.openDatabase_reader htxn hreader name flags
      rw [Engine.use]
      cases hanswer : engine.openDatabase handle name flags with
      | mk result after =>
      rw [hanswer] at hviews
      cases hviews with
      | same => exact hsame
      | mainFlags flags =>
          refine ⟨_, rfl, ⟨⟨rfl, rfl, rfl, rfl, rfl⟩, rfl, fun content hcontent _ _ ↦ ?_⟩, .inl rfl⟩
          rw [← hcontent]
          rcases slot with _ | _ | index
          · rfl
          · exact absurd rfl hslot
          · rfl
      | @occupied index text placed hindex hname =>
          by_cases hplace : slot = index + firstSlot
          · subst hplace
            have hinfo : SlotTable.info (occupied engine.slots index text) (index + firstSlot) = _ :=
              info_occupied_self engine.slots index text
            refine ⟨_, rfl, ⟨⟨rfl, rfl, rfl, rfl, rfl⟩, rfl, fun content _ _ hstands ↦ ?_⟩, .inr ?_⟩
            · dsimp only at hstands
              rw [hinfo] at hstands
              exact absurd hstands (Nat.succ_ne_self _)
            · dsimp only
              rw [hinfo]
              exact hname
          · refine ⟨_, rfl, ⟨⟨rfl, rfl, rfl, rfl, rfl⟩, rfl, fun content hcontent _ _ ↦ ?_⟩,
              .inl (info_occupied_of_ne engine.slots text hplace)⟩
            rw [slot?_placed txn hindex placed hslot, if_neg hplace, hcontent]

/-! ## Slots that a reader has opened -/

/-- A transaction that is awake and not broken, and has the table of a slot that it has opened. -/
structure Txn.OwnsTable (slot : Nat) (table : Table) (txn : Txn) : Prop where
  awake : txn.idle = false
  whole : txn.broken = false
  held : ∃ content, txn.slot? slot = some content ∧ content.usable = true ∧ content.stale = false ∧
    content.fresh = true ∧ content.table = table

/-- An open that moves the counter of its slot gives the slot to the name, with the table that the
snapshot has of it. -/
theorem Roster.opens_reader (h : Roster engine) (htxn : engine.txn? handle = some txn)
    (hreader : txn.readOnly = true) (hawake : txn.idle = false)
    (hopen : engine.openDatabase handle name flags = (.ok slot, after))
    (hmoved : (after.slots.info slot).sequence ≠ (engine.slots.info slot).sequence) :
    slot ≠ mainSlot ∧ ∃ text txn', name = some text ∧
      after.reading = (engine.replace txn').reading ∧ Txn.Kin txn txn' ∧
      txn'.OwnsTable slot (txn.snapshot.table text) := by
  have hviews := h.openDatabase_reader htxn hreader name flags
  rw [hopen] at hviews
  cases hviews with
  | same | mainFlags => exact absurd rfl hmoved
  | @occupied index text placed hindex hname hblocked husable hread hfresh htable =>
      have hslot : index + firstSlot ≠ mainSlot := by
        unfold firstSlot mainSlot
        omega
      refine ⟨hslot, text, _, rfl, rfl, ⟨rfl, rfl, rfl, rfl, rfl⟩, hawake,
        (Bool.or_eq_false_iff.mp hblocked).1, placed, ?_, husable, hread, hfresh, htable⟩
      rw [slot?_placed txn hindex placed hslot, if_pos rfl]

namespace Txn.OwnsTable

/-- A transaction that retains what it has read still has the table. -/
theorem retained (h : txn.OwnsTable slot table) (hretains : Txn.Retains slots slots' slot txn txn')
    (hstands : (slots'.info slot).sequence = (slots.info slot).sequence) :
    txn'.OwnsTable slot table := by
  obtain ⟨content, hcontent, husable, hread, hrest⟩ := h.held
  exact ⟨hretains.kin.idle.trans h.awake, hretains.broken.trans h.whole, content,
    hretains.kept content hcontent hread hstands, husable, hread, hrest⟩

/-- Through the slot the transaction finds the table that it has. -/
theorem load (h : txn.OwnsTable slot table) (slots : SlotTable) : ∃ content,
    txn.usable? slot = some content ∧ (txn.load slots slot content).map (·.table) = .ok table := by
  obtain ⟨content, hcontent, husable, hread, -, rfl⟩ := h.held
  refine ⟨content, ?_, congrArg (Except.map _) (Txn.load_read hread)⟩
  simp [Txn.usable?, h.awake, hcontent, husable]

/-- The transaction has opened the slot. -/
theorem hasOpened (h : txn.OwnsTable slot table) (hslot : slot ≠ mainSlot) :
    txn.hasOpened slot = true := by
  obtain ⟨content, hcontent, -, -, hfresh, -⟩ := h.held
  match slot with
  | 0 => cases hcontent
  | 1 => exact absurd rfl hslot
  | index + 2 =>
      have hnamed : txn.named[index]? = some content := hcontent
      rw [Txn.hasOpened, List.getD_eq_getElem?_getD, hnamed]
      exact hfresh

/-- When the transaction commits, a slot that still has an occupant is offered from then on. -/
theorem offers (h : txn.OwnsTable slot table) (hslot : slot ≠ mainSlot)
    (hname : (engine.slots.info slot).name ≠ []) : (engine.endReader txn true).Offers slot := by
  have hopened := h.hasOpened hslot
  obtain ⟨content, hcontent, -⟩ := h.held
  obtain ⟨readers, hleave⟩ := leaveReader_eq engine txn true
  unfold endReader
  simp only [hleave, h.awake, Bool.false_eq_true, if_false, if_true]
  match slot with
  | 0 => cases hcontent
  | 1 => exact absurd rfl hslot
  | index + 2 =>
      have hlength : index < txn.named.length := (List.getElem?_eq_some_iff.mp hcontent).1
      refine .inr ⟨index, Nat.lt_of_lt_of_le hlength (Nat.le_max_right _ _), rfl, ?_⟩
      have hoccupied : index < engine.slots.length := by
        by_contra hge
        refine hname ?_
        rw [SlotTable.info, List.getD_eq_getElem?_getD,
          List.getElem?_eq_none (Nat.le_of_not_lt hge)]
        rfl
      have hfresh : (txn.named.getD index {}).fresh = true := hopened
      simp only [SlotTable.info, SlotTable.keep]
      rw [List.getD_eq_getElem?_getD, List.getElem?_mapIdx, List.getElem?_eq_getElem hoccupied]
      dsimp only [Option.map_some, Option.getD_some]
      rw [if_pos hfresh]

/-- When the transaction is reset, the slot is freed. -/
theorem freed (h : txn.OwnsTable slot table) (hslot : slot ≠ mainSlot)
    (htxn : engine.txn? handle = some txn) (hreader : txn.readOnly = true) :
    ((engine.reset handle).slots.info slot).name = [] := by
  unfold reset
  rw [htxn]
  simp only [hreader, h.awake, Bool.not_true, Bool.or_false, Bool.false_eq_true, if_false]
  obtain ⟨readers, hleave⟩ := leaveReader_eq engine txn false
  rw [hleave, info_discard, if_pos (h.hasOpened hslot)]
  exact SlotInfo.name_closed _

end Txn.OwnsTable

end MappedStore.Engine
