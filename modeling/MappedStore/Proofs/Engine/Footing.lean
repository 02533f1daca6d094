import MappedStore.Proofs.Coherence
import MappedStore.Proofs.Engine.Commanding

/-!
# How transactions stand to a slot

Whatever happens to an engine, each transaction stands to a slot as before, but for three kinds of
steps: one that gives the slot a new occupant, one that frees it, and the renewal of a reader
(`Txn.Shifts`). `Turn.restacks` says what this makes of the writers, of which each may have opened
the slot for those that are nested in it. As long as the counter of the slot stands, writers that
command the slot do so still (`Restacks.commanded`), and unless one of them gives the slot an
occupant, those who cannot use the slot still cannot (`Restacks.lacking`).
-/

namespace MappedStore.Engine

variable {engine after : Engine} {handle slot : Nat} {actor : Option Nat} {slots slots' : SlotTable}
  {txn txn' before last : Txn} {txns txns' inner : List Txn}

/-! ## Standing to a slot -/

/-- Whether a transaction has opened a slot. -/
def Txn.hasOpened (txn : Txn) : Nat → Bool
  | 0 | 1 => false
  | index + 2 => (txn.named.getD index {}).fresh

/-- A transaction that stands to a slot as another does. -/
structure Txn.Alike (slot : Nat) (txn txn' : Txn) : Prop where
  readOnly : txn'.readOnly = txn.readOnly
  idle : txn'.idle = txn.idle
  footing : txn'.footing slot = txn.footing slot
  opened : txn'.hasOpened slot = txn.hasOpened slot

/-- A transaction stands to a slot as it does. -/
theorem Txn.Alike.refl (txn : Txn) : Txn.Alike slot txn txn := ⟨rfl, rfl, rfl, rfl⟩

/-- Transactions that stand to a slot as others do, which stand to it as yet others do. -/
theorem Txn.Alike.trans (h : Txn.Alike slot txn txn') (h' : Txn.Alike slot txn' last) :
    Txn.Alike slot txn last :=
  ⟨h'.readOnly.trans h.readOnly, h'.idle.trans h.idle, h'.footing.trans h.footing,
    h'.opened.trans h.opened⟩

/-- What decides whether a slot can be used, and whether it has kept up with its occupant. -/
def TxnSlot.stance (content : TxnSlot) : Bool × Nat := (content.usable, content.sequence)

/-- A transaction that holds a slot in the same stance can use it in the same way. -/
theorem Txn.footing_congr (hidle : txn'.idle = txn.idle)
    (husable : txn'.main.usable = txn.main.usable)
    (hsequence : txn'.main.sequence = txn.main.sequence)
    (hnamed : ∀ index, index + firstSlot = slot →
      txn'.named[index]?.map TxnSlot.stance = txn.named[index]?.map TxnSlot.stance) :
    txn'.footing slot = txn.footing slot := by
  have hstance : ∀ held : Option TxnSlot, (held.filter (·.usable)).map (·.sequence)
      = ((held.map TxnSlot.stance).filter (·.1)).map (·.2) := by
    intro held
    cases held with
    | none => rfl
    | some content => simp [TxnSlot.stance, Option.filter, apply_ite]
  have hslot : (txn'.slot? slot).map TxnSlot.stance = (txn.slot? slot).map TxnSlot.stance := by
    match slot with
    | 0 => rfl
    | 1 => simp [slot?, TxnSlot.stance, husable, hsequence]
    | index + 2 => exact hnamed index rfl
  unfold footing usable?
  rw [hidle]
  split
  · rfl
  · rw [hstance, hstance, hslot]

/-- Transactions that hold a slot in the same stance, as one that they have opened or not. -/
theorem Txn.alike_of_slots (hkin : Txn.Kin txn txn') (husable : txn'.main.usable = txn.main.usable)
    (hsequence : txn'.main.sequence = txn.main.sequence)
    (hnamed : ∀ index, index + firstSlot = slot → txn'.named[index]?.map
        (fun content ↦ (content.stance, content.fresh))
      = txn.named[index]?.map fun content ↦ (content.stance, content.fresh)) :
    Txn.Alike slot txn txn' := by
  refine ⟨hkin.readOnly, hkin.idle,
    footing_congr hkin.idle husable hsequence fun index hindex ↦ ?_, ?_⟩
  · have hstance := congrArg (Option.map Prod.fst) (hnamed index hindex)
    simp only [Option.map_map] at hstance
    exact hstance
  · match slot with
    | 0 | 1 => rfl
    | index + 2 =>
        have hfresh := congrArg (Option.map Prod.snd) (hnamed index rfl)
        simp only [Option.map_map] at hfresh
        have hgetD : ∀ named : List TxnSlot, (named.getD index {}).fresh
            = (named[index]?.map TxnSlot.fresh).getD false := by
          intro named
          rw [List.getD_eq_getElem?_getD]
          cases named[index]? <;> rfl
        rw [hasOpened, hasOpened, hgetD, hgetD]
        exact congrArg (Option.getD · false) hfresh

/-- A transaction with the same slots. -/
theorem Txn.SameSlots.alike (h : Txn.SameSlots txn txn') (slot : Nat) : Txn.Alike slot txn txn' :=
  alike_of_slots h.kin h.mainUsable h.mainSequence fun index _ ↦ by rw [h.named]

/-- A use of a slot does not change how the transaction stands to any. -/
theorem Txn.Uses.alike {used : Nat} (h : Txn.Uses slots used txn txn') (slot : Nat) :
    Txn.Alike slot txn txn' := by
  refine alike_of_slots h.kin h.mainUsable h.mainSequence fun index _ ↦ ?_
  by_cases hused : index + firstSlot = used
  · cases hheld : txn.named[index]? with
    | none =>
        have hlength : txn.named.length ≤ index := List.getElem?_eq_none_iff.mp hheld
        rw [List.getElem?_eq_none (Nat.le_trans (Nat.le_of_eq h.length) hlength)]
    | some content =>
        obtain ⟨content', hheld', hfollows⟩ := h.here index hused content hheld
        rw [hheld']
        simp [TxnSlot.stance, hfollows.usable, hfollows.sequence, hfollows.fresh]
  · rw [h.other index hused]

/-- A slot that an engine offers to those who begin: the main one, or one that a committed open has
made known. -/
def Offers (engine : Engine) (slot : Nat) : Prop :=
  slot = mainSlot ∨
    ∃ index < engine.known, slot = index + firstSlot ∧ (engine.slots.info slot).known = true

/-- A transaction that has just begun, or was just renewed, can use the slots that the engine
offers. -/
theorem Txn.footing_of_fresh {snapshot : Snapshot} {memory : List (Option Table)}
    (hidle : txn.idle = false) (hmain : txn.main = mainOf snapshot)
    (hnamed : txn.named = engine.slots.fresh engine.known memory) (slot : Nat) :
    (engine.Offers slot → txn.footing slot = some (engine.slots.info slot).sequence) ∧
      (¬engine.Offers slot → txn.footing slot = none) := by
  rcases slot with _ | _ | index
  · refine ⟨fun hoffers ↦ ?_, fun _ ↦ ?_⟩
    · rcases hoffers with hslot | ⟨_, _, hslot, _⟩ <;> cases hslot
    · simp [footing, usable?, slot?, hidle]
  · refine ⟨fun _ ↦ ?_, fun hoffers ↦ absurd (.inl rfl) hoffers⟩
    simp [footing, usable?, slot?, hidle, hmain, mainOf, Option.filter, SlotTable.info]
  · have hoffers : engine.Offers (index + 2) ↔
        index < engine.known ∧ (engine.slots.getD index {}).known = true := by
      simp [Offers, mainSlot, firstSlot, SlotTable.info]
    rw [hoffers]
    by_cases hknown : index < engine.known
    · simp [footing, usable?, slot?, hidle, hnamed, SlotTable.fresh, hknown, Option.filter,
        SlotTable.info]
    · simp [footing, usable?, slot?, hidle, hnamed, SlotTable.fresh, hknown]

/-! ## Uses -/

/-- How a transaction, which may be blocked, stands to a slot after a use of it. The slot is as it
was, unless the use has given it an occupant, or has freed it. -/
inductive Txn.Shifts (slots slots' : SlotTable) (slot : Nat) (blocked : Bool) (txn txn' : Txn) :
    Prop where
  | alike (h : Txn.Alike slot txn txn') (hinfo : slots'.info slot = slots.info slot)
  | placed (hreadOnly : txn'.readOnly = txn.readOnly) (hidle : txn'.idle = txn.idle)
      (hfooting : txn.idle = false → txn'.footing slot = some (slots'.info slot).sequence)
      (hopened : txn'.hasOpened slot = true) (hname : (slots'.info slot).name ≠ [])
      (hmoved : (slots.info slot).sequence < (slots'.info slot).sequence)
      (hblocked : blocked = false)
  | freed (hwriter : txn.readOnly = false) (hidle : txn'.idle = txn.idle)
      (hfooting : txn'.footing slot = none) (hoccupied : (slots.info slot).name ≠ [])
      (hname : (slots'.info slot).name = [])

/-- A closed slot is free. -/
theorem SlotInfo.name_closed (info : SlotInfo) : info.closed.name = [] := by
  unfold closed
  split
  · rename_i hfree
    simpa [isFree] using hfree
  · rfl

/-- Giving a position to a name. -/
theorem shifts_occupied {index : Nat} {name : Bytes} {base : Txn} {content : TxnSlot}
    (h : Occupies slots index name txn base content) (slot : Nat) :
    Txn.Shifts slots (occupied slots index name) slot false txn
      { base with named := placeSlot base.named index content } := by
  have hnamed := h.records.named
  have hplaced : ∀ other, (placeSlot base.named index content)[other]?
      = if other = index then some content else base.named[other]? := fun _ ↦
    Txn.Coherent.getElem?_placeSlot base.named content (hnamed ▸ h.index_le)
  by_cases hslot : slot = index + firstSlot
  · subst hslot
    have hinfo : (occupied slots index name).info (index + firstSlot)
        = { slots.getD index {} with
            name := name, sequence := (slots.getD index {}).sequence + 1 } :=
      SlotTable.getD_updateAt_self _ _ index
    have hheld : (placeSlot base.named index content)[index]? = some content := by
      rw [hplaced, if_pos rfl]
    refine .placed h.records.kin.readOnly h.records.kin.idle (fun hidle ↦ ?_) ?_ ?_ ?_ rfl
    · have hawake : base.idle = false := h.records.kin.idle.trans hidle
      simp only [Txn.footing, Txn.usable?, hawake, Txn.slot?, firstSlot, hheld, Option.filter,
        h.usable, Bool.false_eq_true, if_false, if_true, Option.map_some, h.sequence]
      exact congrArg (fun info : SlotInfo ↦ some info.sequence) hinfo.symm
    · show ((placeSlot base.named index content).getD index {}).fresh = true
      rw [List.getD_eq_getElem?_getD, hheld]
      exact h.fresh
    · rw [hinfo]
      exact h.name_ne
    · rw [hinfo]
      exact Nat.lt_succ_self _
  · have hkin := h.records.kin
    refine .alike (Txn.alike_of_slots ⟨hkin.handle, hkin.readOnly, hkin.idle, hkin.commit,
      hkin.reader⟩ h.records.mainUsable h.records.mainSequence fun other hother ↦ ?_) ?_
    · have hne : other ≠ index := fun heq ↦ hslot (hother.symm.trans (congrArg (· + firstSlot) heq))
      dsimp only
      rw [hplaced, if_neg hne, hnamed]
    · exact SlotTable.info_update_of_ne slots _ hslot

/-- Removing a named database. -/
theorem shifts_dropped {dropped : Nat} {base : Txn} (hwriter : txn.readOnly = false)
    (hdropped : dropped ≠ mainSlot) (h : Txn.Uses slots dropped txn base)
    (hoccupied : (slots.info dropped).name ≠ []) (blocked : Bool) (slot : Nat) :
    Txn.Shifts slots (slots.update SlotInfo.closed dropped) slot blocked txn
      (base.without dropped (slots.info dropped).name) := by
  obtain ⟨hmain, -, hothers, -⟩ := base.without_eq (slots.info dropped).name hdropped
  have hkin := Txn.kin_without base dropped (slots.info dropped).name
  by_cases hslot : slot = dropped
  · subst hslot
    rcases slot with _ | _ | index
    · exact .alike ((h.alike 0).trans ⟨hkin.readOnly, hkin.idle, by simp [Txn.footing, Txn.usable?,
        Txn.slot?], rfl⟩) rfl
    · exact absurd rfl hdropped
    · refine .freed hwriter (hkin.idle.trans h.kin.idle) ?_ hoccupied ?_
      · have hslot? : (base.without (index + 2) (slots.info (index + 2)).name).slot? (index + 2)
            = (base.slot? (index + 2)).map fun content ↦
              { content with usable := false, stale := true, fresh := false, dirty := false } :=
          Txn.slot?_modifySlot base (index + 2) _
        unfold Txn.footing Txn.usable?
        rw [hslot?]
        split
        · rfl
        · cases base.slot? (index + 2) <;> rfl
      · rw [SlotTable.info_update_self]
        exact SlotInfo.name_closed _
  · refine .alike ((h.alike slot).trans (Txn.alike_of_slots hkin (by rw [hmain]) (by rw [hmain])
      fun index hindex ↦ ?_)) (SlotTable.info_update_of_ne _ _ hslot)
    rw [hothers index (hindex ▸ hslot)]

/-- A use of a transaction replaces it. -/
theorem Used.shifts (h : Used engine handle after) (hroster : Roster engine)
    (htxn : engine.txn? handle = some txn) (slot : Nat) :
    ∃ txn' : Txn, txn'.handle = handle ∧ after.writers = (engine.replace txn').writers ∧
      after.reading = (engine.replace txn').reading ∧
      Txn.Shifts engine.slots after.slots slot (engine.isBlocked txn) txn txn' := by
  have hhandle := handle_of_txn? htxn
  cases h with
  | same =>
      refine ⟨txn, hhandle, ?_, ?_, .alike (.refl txn) rfl⟩
      · rw [hroster.replace_self htxn]
      · rw [hroster.replace_self htxn]
  | @through used before last hbefore huses =>
      obtain rfl : before = txn := Option.some.inj (hbefore.symm.trans htxn)
      exact ⟨last, huses.kin.handle.trans hhandle, rfl, rfl, .alike (huses.alike slot) rfl⟩
  | @mainFlags flags before hbefore =>
      obtain rfl : before = txn := Option.some.inj (hbefore.symm.trans htxn)
      exact ⟨_, by exact hhandle, rfl, rfl,
        .alike (Txn.alike_of_slots ⟨rfl, rfl, rfl, rfl, rfl⟩ rfl rfl fun _ _ ↦ rfl) rfl⟩
  | @occupied index name before base content hbefore hoccupies hblocked =>
      obtain rfl : before = txn := Option.some.inj (hbefore.symm.trans htxn)
      refine ⟨_, by exact hoccupies.records.kin.handle.trans hhandle, rfl, rfl, ?_⟩
      rw [hblocked]
      exact shifts_occupied hoccupies slot
  | @dropped dropped before base hbefore hdropped hwriter huses hname =>
      obtain rfl : before = txn := Option.some.inj (hbefore.symm.trans htxn)
      exact ⟨_, ((Txn.kin_without _ _ _).handle.trans huses.kin.handle).trans hhandle, rfl, rfl,
        shifts_dropped hwriter hdropped huses hname _ slot⟩

/-! ## Endings -/

/-- What is known of a slot once the slots that a transaction opened were freed. -/
theorem info_discard (slots : SlotTable) (txn : Txn) (slot : Nat) :
    (slots.discard txn.named).info slot =
      if txn.hasOpened slot then (slots.info slot).closed else slots.info slot := by
  match slot with
  | 0 | 1 => rfl
  | index + 2 => exact SlotTable.getD_discard slots txn.named index

/-- A free slot cannot be closed. -/
theorem SlotInfo.closed_closed (info : SlotInfo) : info.closed.closed = info.closed := by
  unfold closed
  split <;> rfl

/-- Writers that are aborted free the slot if one of them has opened it. -/
theorem abortWriters_info (engine : Engine) (outer : List Txn) (hhandle : txn.handle = handle)
    (hinner : ∀ other ∈ inner, other.handle ≠ handle) (slot : Nat) :
    (engine.abortWriters handle (inner ++ txn :: outer)).slots.info slot =
      if (inner ++ [txn]).any (·.hasOpened slot) then (engine.slots.info slot).closed
      else engine.slots.info slot := by
  induction inner generalizing engine with
  | nil =>
      simp only [List.nil_append, abortWriters, hhandle, if_true, List.any_cons, List.any_nil,
        Bool.or_false]
      exact info_discard ..
  | cons first rest ih =>
      have hne : first.handle ≠ handle := hinner first List.mem_cons_self
      simp only [List.cons_append, abortWriters, if_neg hne, List.any_cons]
      rw [ih _ fun other hother ↦ hinner other (List.mem_cons_of_mem _ hother)]
      dsimp only
      rw [info_discard]
      by_cases hopened : first.hasOpened slot = true
      · simp [hopened, SlotInfo.closed_closed]
      · simp [hopened]

/-- An abort ends writers from the innermost on, or none. The slot is as it was, or closed, and it
is closed if one of the writers has opened it. -/
theorem Roster.abort_stack (h : Roster engine) (handle slot : Nat) :
    ∃ inner, engine.writers = inner ++ (engine.abort handle).writers ∧
      (∀ txn ∈ inner, txn.hasOpened slot = true →
        (engine.abort handle).slots.info slot = (engine.slots.info slot).closed) ∧
      ((engine.abort handle).slots.info slot = engine.slots.info slot ∨
        (engine.abort handle).slots.info slot = (engine.slots.info slot).closed) := by
  have hnone : ∀ {property : Txn → Prop}, ∀ txn ∈ ([] : List Txn), property txn :=
    fun txn htxn ↦ absurd htxn List.not_mem_nil
  unfold abort
  cases htxn : engine.txn? handle with
  | none => exact ⟨[], rfl, hnone, .inl rfl⟩
  | some txn =>
      dsimp only
      split
      · refine ⟨[], ?_, hnone, ?_⟩
        · exact (endReader_cases engine txn false).1.symm
        · obtain ⟨readers, hleave⟩ := leaveReader_eq engine txn true
          unfold endReader
          dsimp only
          rw [hleave]
          split
          · exact .inl rfl
          · simp only [Bool.false_eq_true, if_false]
            rw [info_discard]
            split
            · exact .inr rfl
            · exact .inl rfl
      · rename_i hwriter
        have hhandle := handle_of_txn? htxn
        obtain ⟨inner, outer, hsplit⟩ :=
          List.append_of_mem (h.mem_writers htxn (by simpa using hwriter))
        have hinner := h.inner_ne hhandle hsplit
        have hinfo := abortWriters_info engine outer hhandle hinner slot
        have hwriters : (engine.abortWriters handle (inner ++ txn :: outer)).writers = outer :=
          (abortWriters_cases engine hhandle hinner).1
        rw [hsplit]
        refine ⟨inner ++ [txn], by rw [hwriters]; simp, fun other hother hopened ↦ ?_, ?_⟩
        · rw [hinfo, if_pos (List.any_eq_true.mpr ⟨other, hother, hopened⟩)]
        · rw [hinfo]
          split
          · exact .inr rfl
          · exact .inl rfl

/-- A transaction that takes over what a nested one holds can use the slots that this one can. -/
theorem footing_absorb (parent txn : Txn) (slot : Nat) :
    (absorb parent txn).footing slot = txn.footing slot := by
  refine Txn.footing_congr rfl rfl rfl fun index _ ↦ ?_
  simp only [absorb, List.getElem?_mapIdx, Option.map_map]
  rfl

/-- A slot that a nested transaction holds has been opened, after it has committed, by its parent if
either has opened it. -/
theorem hasOpened_absorb (parent : Txn) (hfooting : txn.footing slot ≠ none) :
    (absorb parent txn).hasOpened slot = (txn.hasOpened slot || parent.hasOpened slot) := by
  match slot with
  | 0 | 1 => rfl
  | index + 2 =>
      cases hheld : txn.named[index]? with
      | none => simp [Txn.footing, Txn.usable?, Txn.slot?, hheld] at hfooting
      | some content =>
          simp [Txn.hasOpened, absorb, List.getD_eq_getElem?_getD, List.getElem?_mapIdx, hheld]

/-! ## Steps -/

/-- How a transaction stands to a slot after a step in which the one with the handle of the actor
acts. -/
inductive Txn.Goes (engine after : Engine) (actor : Option Nat) (slot : Nat) (txn txn' : Txn) :
    Prop where
  | alike (h : Txn.Alike slot txn txn')
  | shifts (hactor : actor = some txn.handle)
      (h : Txn.Shifts engine.slots after.slots slot (engine.isBlocked txn) txn txn')

/-- What a step makes of the writers, and of how they stand to a slot: each goes on, or another
begins in the innermost, or this one commits into its parent, or some are aborted from the innermost
on, or the root has committed. -/
inductive Restacks (engine after : Engine) (actor : Option Nat) (slot : Nat) : Prop where
  | goes (h : List.Forall₂ (Txn.Goes engine after actor slot) engine.writers after.writers)
  | nested {child parent : Txn} {rest : List Txn} (hbefore : engine.writers = parent :: rest)
      (hafter : after.writers = child :: parent :: rest)
      (hreadOnly : child.readOnly = parent.readOnly)
      (hidle : child.idle = parent.idle) (hfooting : child.footing slot = parent.footing slot)
  | absorbed {child parent : Txn} {rest : List Txn}
      (hbefore : engine.writers = child :: parent :: rest)
      (hafter : after.writers = absorb parent child :: rest)
  | aborted {inner : List Txn}
      (h : List.Forall₂ (Txn.Alike slot) engine.writers (inner ++ after.writers))
      (hopened : ∀ txn ∈ inner, txn.hasOpened slot = true →
        after.slots.info slot = (engine.slots.info slot).closed)
  | cleared (h : after.writers = [])

/-- Each member of the second of two lists that are related stems from one of the first. -/
theorem exists_of_forall₂ {α β : Type} {relation : α → β → Prop} {first : List α} {second : List β}
    (h : List.Forall₂ relation first second) :
    ∀ later ∈ second, ∃ before ∈ first, relation before later := by
  induction h with
  | nil => exact fun _ hmem ↦ absurd hmem List.not_mem_nil
  | @cons before later _ _ hrelated _ ih =>
      refine List.forall_mem_cons.mpr ⟨⟨before, List.mem_cons_self, hrelated⟩, fun other hother ↦ ?_⟩
      obtain ⟨source, hsource, hrelated⟩ := ih other hother
      exact ⟨source, List.mem_cons_of_mem _ hsource, hrelated⟩

/-- No writer is at rest. -/
def Wakeful (engine : Engine) : Prop := ∀ txn ∈ engine.writers, txn.idle = false

/-- Writers that stay go on. -/
theorem Restacks.of_eq (h : after.writers = engine.writers) : Restacks engine after actor slot :=
  .goes (h ▸ List.forall₂_same.mpr fun txn _ ↦ .alike (.refl txn))

/-- Writers of which at most one is replaced. -/
theorem Restacks.of_replace (h : after.writers = (engine.replace txn').writers)
    (hgoes : ∀ txn ∈ engine.writers, txn.handle = txn'.handle →
      Txn.Goes engine after actor slot txn txn') : Restacks engine after actor slot := by
  refine .goes ?_
  rw [h]
  refine List.forall₂_map_right_iff.mpr (List.forall₂_same.mpr fun txn htxn ↦ ?_)
  split
  · exact hgoes txn htxn ‹_›
  · exact .alike (.refl txn)

/-- What a begin makes of the writers, unless a new root begins. -/
theorem Began.restacks {parent : Option Nat} {flags : TxnFlags}
    (h : Began engine parent flags handle after) (hroster : Roster engine) (slot : Nat) :
    Restacks engine after none slot ∨
      parent = none ∧ flags.contains TxnFlags.readOnly = false ∧
        ∃ txn : Txn, after.writers = txn :: engine.writers ∧ txn.idle = false ∧
          txn.handle = engine.nextHandle := by
  cases h with
  | reading readers reader => exact .inl (.of_eq rfl)
  | root hparent hflags => exact .inr ⟨hparent, hflags, _, rfl, rfl, rfl⟩
  | @nested outer txn hparent hflags htxn hwriter hblocked =>
      obtain ⟨rest, hwriters⟩ := hroster.innermost htxn hwriter hblocked
      refine .inl (.nested hwriters (congrArg _ hwriters) rfl rfl ?_)
      refine Txn.footing_congr rfl rfl rfl fun index _ ↦ ?_
      simp only [List.getElem?_map, Option.map_map]
      rfl

/-- What any step makes of the writers, unless a new root begins. -/
theorem Turn.restacks (h : Turn engine actor after) (hroster : Roster engine)
    (hwakeful : Wakeful engine) (slot : Nat) :
    Restacks engine after actor slot ∨ ∃ txn : Txn, after.writers = txn :: engine.writers ∧
      txn.idle = false ∧ txn.handle = engine.nextHandle := by
  cases h with
  | aside haside =>
      obtain ⟨readers, next, -, rfl⟩ := haside
      exact .inl (.of_eq rfl)
  | @used handle _ hused =>
      refine .inl ?_
      cases htxn : engine.txn? handle with
      | none =>
          cases hused with
          | same => exact .of_eq rfl
          | through _ hfound | mainFlags _ hfound | occupied hfound | dropped hfound =>
              simp [htxn] at hfound
      | some txn =>
          obtain ⟨txn', hhandle, hwriters, -, hshifts⟩ := hused.shifts hroster htxn slot
          refine .of_replace hwriters fun other hother heq ↦ ?_
          obtain rfl := hroster.eq_of_handle (List.mem_append_left _ hother) htxn
            (heq.trans hhandle)
          exact .shifts (congrArg some (handle_of_txn? htxn).symm) hshifts
  | @reset handle _ hreset =>
      cases hreset with
      | same => exact .inl (.of_eq rfl)
      | @idle txn readers reader htxn hreader hidle =>
          refine .inl (.of_replace rfl fun other hother heq ↦ ?_)
          -- what is put to rest is a reader
          have hhandle : txn.handle = handle := handle_of_txn? htxn
          obtain rfl := hroster.eq_of_handle (List.mem_append_left _ hother) htxn
            (heq.trans hhandle)
          rw [hroster.writers other hother] at hreader
          cases hreader
  | @renewed handle _ hrenewed =>
      cases hrenewed with
      | @mk txn readers reader htxn hidle =>
          refine .inl (.of_replace rfl fun other hother heq ↦ ?_)
          have hhandle : txn.handle = handle := handle_of_txn? htxn
          obtain rfl := hroster.eq_of_handle (List.mem_append_left _ hother) htxn
            (heq.trans hhandle)
          rw [hwakeful other hother] at hidle
          cases hidle
  | began hbegan => exact (hbegan.restacks hroster slot).imp_right fun hroot ↦ hroot.2.2
  | committed hcommitted =>
      cases hcommitted with
      | @reader txn htxn hreader => exact .inl (.of_eq (endReader_cases engine txn true).1)
      | nested hwriters hhandle => exact .inl (.absorbed hwriters rfl)
      | root image hwriters hhandle hnamed => exact .inl (.cleared rfl)
  | @ended handle middle hrefused =>
      have hmiddle := hroster.of_stays hrefused.stays
      obtain ⟨inner, hinner, hopened, -⟩ := hmiddle.abort_stack handle slot
      refine .inl (.aborted ?_ (hrefused.slots ▸ hopened))
      rw [← hinner]
      exact hrefused.writers.imp fun _ _ hsame ↦ hsame.alike slot

/-- Writers that are awake stay so. -/
theorem Wakeful.turn (h : Wakeful engine) (hroster : Roster engine)
    (hturn : Turn engine actor after) : Wakeful after := by
  intro txn htxn
  rcases hturn.restacks hroster h 0 with hrestacks | ⟨root, hwriters, hidle, -⟩
  · cases hrestacks with
    | goes hgoes =>
        obtain ⟨before, hbefore, hgoes⟩ := exists_of_forall₂ hgoes txn htxn
        refine Eq.trans ?_ (h before hbefore)
        cases hgoes with
        | alike halike => exact halike.idle
        | shifts _ hshifts =>
            cases hshifts with
            | alike halike => exact halike.idle
            | placed _ hidle => exact hidle
            | freed _ hidle => exact hidle
    | @nested child parent rest hbefore hafter _ hidle =>
        rw [hafter] at htxn
        rcases List.mem_cons.mp htxn with rfl | hrest
        · exact hidle.trans (h parent (hbefore ▸ List.mem_cons_self))
        · exact h txn (hbefore ▸ hrest)
    | @absorbed child parent rest hbefore hafter =>
        rw [hafter] at htxn
        rcases List.mem_cons.mp htxn with rfl | hrest
        · exact h child (hbefore ▸ List.mem_cons_self)
        · exact h txn (hbefore ▸ List.mem_cons_of_mem _ (List.mem_cons_of_mem _ hrest))
    | @aborted inner halike =>
        obtain ⟨before, hbefore, halike⟩ :=
          exists_of_forall₂ halike txn (List.mem_append_right _ htxn)
        exact halike.idle.trans (h before hbefore)
    | cleared hempty =>
        rw [hempty] at htxn
        cases htxn
  · rw [hwriters] at htxn
    rcases List.mem_cons.mp htxn with rfl | hrest
    · exact hidle
    · exact h txn hrest

/-! ## What lasts -/

/-- A step after which the counter of a slot stands does not change how a transaction stands to it.
-/
theorem Txn.Goes.alike_of_stands (h : Txn.Goes engine after actor slot txn txn')
    (hlater : SlotTable.Later engine.slots after.slots)
    (hstands : (after.slots.info slot).sequence = (engine.slots.info slot).sequence) :
    Txn.Alike slot txn txn' := by
  cases h with
  | alike h => exact h
  | shifts _ h =>
      cases h with
      | alike h => exact h
      | placed _ _ _ _ _ hmoved => exact absurd hstands (Nat.ne_of_gt hmoved)
      | freed _ _ _ hoccupied hname =>
          exact absurd (((hlater slot).name_eq hstands).symm.trans hname) hoccupied

/-- Writers, each nested in the next, of which the innermost commands a slot, and so does each that
is further out, up to the first that has opened the slot itself. -/
def Commanded (slots : SlotTable) (slot : Nat) : List Txn → Prop
  | [] => True
  | txn :: rest => txn.Commands slots slot ∧
      (txn.hasOpened slot = true ∧ (slots.info slot).name ≠ [] ∨ Commanded slots slot rest)

/-- A transaction that stands to a slot as one that commands it. -/
theorem Txn.Commands.congr (h : txn.Commands slots slot) (halike : Txn.Alike slot txn txn')
    (hstands : (slots'.info slot).sequence = (slots.info slot).sequence) :
    txn'.Commands slots' slot := by
  obtain ⟨sequence, hfooting, hcurrent⟩ := h
  exact ⟨sequence, halike.footing.trans hfooting,
    hcurrent.imp halike.readOnly.trans fun hsequence ↦ hsequence.trans hstands.symm⟩

namespace Commanded

/-- Writers that stand to a slot as those that command it. -/
theorem congr (h : Commanded slots slot txns) (halike : List.Forall₂ (Txn.Alike slot) txns txns')
    (hlater : SlotTable.Later slots slots')
    (hstands : (slots'.info slot).sequence = (slots.info slot).sequence) :
    Commanded slots' slot txns' := by
  induction halike with
  | nil => trivial
  | cons hfirst hrest ih =>
      refine ⟨h.1.congr hfirst hstands, h.2.imp (fun hopened ↦ ?_) ih⟩
      exact ⟨hfirst.opened.trans hopened.1, (hlater slot).name_eq hstands ▸ hopened.2⟩

/-- Those that are further out command the slot as well, if none of the others has opened it. -/
theorem outer {outer : List Txn} (h : Commanded slots slot (inner ++ outer))
    (hinner : (slots.info slot).name ≠ [] → ∀ txn ∈ inner, txn.hasOpened slot = false) :
    Commanded slots slot outer := by
  induction inner with
  | nil => exact h
  | cons first rest ih =>
      rcases h.2 with ⟨hopened, hname⟩ | hrest
      · rw [hinner hname first List.mem_cons_self] at hopened
        cases hopened
      · exact ih hrest fun hname txn htxn ↦ hinner hname txn (List.mem_cons_of_mem _ htxn)

end Commanded

/-- Writers that command a slot do so as long as the counter of the slot stands. -/
theorem Restacks.commanded (h : Restacks engine after actor slot)
    (hlater : SlotTable.Later engine.slots after.slots)
    (hstands : (after.slots.info slot).sequence = (engine.slots.info slot).sequence)
    (hcommanded : Commanded engine.slots slot engine.writers) :
    Commanded after.slots slot after.writers := by
  have hsame : ∀ txns : List Txn, List.Forall₂ (Txn.Alike slot) txns txns := fun txns ↦
    List.forall₂_same.mpr fun txn _ ↦ .refl txn
  cases h with
  | goes hgoes =>
      exact hcommanded.congr (hgoes.imp fun _ _ hgoes ↦ hgoes.alike_of_stands hlater hstands) hlater
        hstands
  | @nested child parent rest hbefore hafter hreadOnly hidle hfooting =>
      rw [hbefore] at hcommanded
      rw [hafter]
      have houter := hcommanded.congr (hsame _) hlater hstands
      obtain ⟨sequence, hparent, hcurrent⟩ := houter.1
      exact ⟨⟨sequence, hfooting.trans hparent, hcurrent.imp_left hreadOnly.trans⟩, .inr houter⟩
  | @absorbed child parent rest hbefore hafter =>
      rw [hbefore] at hcommanded
      rw [hafter]
      obtain ⟨hchild, hrest⟩ := hcommanded.congr (hsame _) hlater hstands
      obtain ⟨sequence, hfooting, hcurrent⟩ := hchild
      have hopened := hasOpened_absorb parent (hfooting ▸ Option.some_ne_none _)
      refine ⟨⟨sequence, (footing_absorb parent child slot).trans hfooting, hcurrent⟩, ?_⟩
      rcases hrest with ⟨hchild, hname⟩ | ⟨-, ⟨hparent, hname⟩ | houter⟩
      · exact .inl ⟨by rw [hopened, hchild, Bool.true_or], hname⟩
      · exact .inl ⟨by rw [hopened, hparent, Bool.or_true], hname⟩
      · exact .inr houter
  | @aborted inner halike hopened =>
      refine (hcommanded.congr halike hlater hstands).outer fun hname txn htxn ↦ ?_
      -- had it opened the slot, its end would have moved the counter
      by_contra hfresh
      have hclosed := hopened txn htxn (by simpa using hfresh)
      rw [hclosed] at hname
      exact hname (SlotInfo.name_closed _)
  | cleared hempty =>
      rw [hempty]
      trivial

/-- Writers that cannot use a slot still cannot, unless one of them has given it an occupant. -/
theorem Restacks.lacking (h : Restacks engine after actor slot)
    (hplaced : ∀ txn ∈ engine.writers, actor = some txn.handle → (after.slots.info slot).name ≠ [] →
      (after.slots.info slot).sequence = (engine.slots.info slot).sequence)
    (hlacks : ∀ txn ∈ engine.writers, txn.footing slot = none) :
    ∀ txn ∈ after.writers, txn.footing slot = none := by
  intro txn htxn
  cases h with
  | goes hgoes =>
      obtain ⟨before, hbefore, hgoes⟩ := exists_of_forall₂ hgoes txn htxn
      have hlack := hlacks before hbefore
      cases hgoes with
      | alike halike => exact halike.footing.trans hlack
      | shifts hactor hshifts =>
          cases hshifts with
          | alike halike => exact halike.footing.trans hlack
          | placed _ _ _ _ hname hmoved =>
              exact absurd (hplaced before hbefore hactor hname) (Nat.ne_of_gt hmoved)
          | freed _ _ hfooting => exact hfooting
  | @nested child parent rest hbefore hafter _ _ hfooting =>
      rw [hafter] at htxn
      rcases List.mem_cons.mp htxn with rfl | hrest
      · exact hfooting.trans (hlacks parent (hbefore ▸ List.mem_cons_self))
      · exact hlacks txn (hbefore ▸ hrest)
  | @absorbed child parent rest hbefore hafter =>
      rw [hafter] at htxn
      rcases List.mem_cons.mp htxn with rfl | hrest
      · exact (footing_absorb ..).trans (hlacks child (hbefore ▸ List.mem_cons_self))
      · exact hlacks txn (hbefore ▸ List.mem_cons_of_mem _ (List.mem_cons_of_mem _ hrest))
  | @aborted inner halike =>
      obtain ⟨before, hbefore, halike⟩ := exists_of_forall₂ halike txn (List.mem_append_right _ htxn)
      exact halike.footing.trans (hlacks before hbefore)
  | cleared hempty =>
      rw [hempty] at htxn
      cases htxn

/-- Only a use by a transaction that is not blocked gives a slot another occupant. The transaction
has then opened the slot, and can use it. -/
theorem Turn.placed (h : Turn engine actor after) (hroster : Roster engine)
    (hname : (after.slots.info slot).name ≠ [])
    (hmoved : (after.slots.info slot).sequence ≠ (engine.slots.info slot).sequence) :
    ∃ handle txn txn', actor = some handle ∧ engine.txn? handle = some txn ∧
      engine.isBlocked txn = false ∧ txn'.handle = handle ∧ txn'.readOnly = txn.readOnly ∧
      txn'.idle = txn.idle ∧ after.writers = (engine.replace txn').writers ∧
      after.reading = (engine.replace txn').reading ∧
      (txn.idle = false → txn'.footing slot = some (after.slots.info slot).sequence) ∧
      txn'.hasOpened slot = true := by
  -- Whatever frees the slot leaves it without a name, and whatever keeps it leaves the counter as
  -- it is. Only an open does neither.
  have hclosed : ∀ {info : SlotInfo}, after.slots.info slot ≠ info.closed := fun hinfo ↦
    hname (hinfo ▸ SlotInfo.name_closed _)
  have hkept : after.slots.info slot ≠ engine.slots.info slot := fun hinfo ↦
    hmoved (congrArg SlotInfo.sequence hinfo)
  cases h with
  | aside haside =>
      obtain ⟨readers, next, -, rfl⟩ := haside
      exact absurd rfl hkept
  | @used handle _ hused =>
      cases htxn : engine.txn? handle with
      | none =>
          cases hused with
          | same => exact absurd rfl hkept
          | through _ hfound | mainFlags _ hfound | occupied hfound | dropped hfound =>
              simp [htxn] at hfound
      | some txn =>
          obtain ⟨txn', hhandle, hwriters, hreading, hshifts⟩ := hused.shifts hroster htxn slot
          cases hshifts with
          | alike _ hinfo => exact absurd hinfo hkept
          | freed _ _ _ _ hfree => exact absurd hfree hname
          | placed hreadOnly hidle hfooting hopened _ _ hblocked =>
              exact ⟨handle, txn, txn', rfl, htxn, hblocked, hhandle, hreadOnly, hidle, hwriters,
                hreading, hfooting, hopened⟩
  | reset hreset =>
      cases hreset with
      | same => exact absurd rfl hkept
      | @idle txn readers reader htxn =>
          have hinfo := info_discard engine.slots txn slot
          split at hinfo
          · exact absurd hinfo hclosed
          · exact absurd hinfo hkept
  | renewed hrenewed =>
      cases hrenewed
      exact absurd rfl hkept
  | began hbegan => exact absurd (congrArg (·.info slot) hbegan.later.1) hkept
  | committed hcommitted => exact absurd (hcommitted.occupants slot).2 hmoved
  | @ended handle middle hrefused =>
      obtain ⟨-, -, -, hinfo⟩ := (hroster.of_stays hrefused.stays).abort_stack handle slot
      rw [hrefused.slots] at hinfo
      rcases hinfo with hinfo | hinfo
      · exact absurd hinfo hkept
      · exact absurd hinfo hclosed

end MappedStore.Engine
