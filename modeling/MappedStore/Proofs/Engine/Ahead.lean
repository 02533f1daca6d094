import MappedStore.Proofs.Coherence
import MappedStore.Proofs.Engine.Levels

/-!
# What a transaction leaves behind in its engine

An engine in which a transaction has begun, and been used with those nested in it, is ahead of what
it was before (`Engine.Ahead`). Each slot is then as it was, or free, or occupied by a name that one
of these transactions has opened and that goes with it. Everything that such a transaction can do
but its own commit keeps the engine ahead, and once they all have ended only slots that have become
free, counters and the reader slots are not as they were.
-/

namespace MappedStore

open Engine

namespace Engine

variable {first last after : Engine} {nested : Prop} {inner newer txns txns' : List Txn}
  {slots slots' : SlotTable} {index handle : Nat} {txn before : Txn}

/-! ## Slots -/

/-- Nothing occupies a slot and nothing is known of an occupant. The counter tells of earlier
ones. -/
def SlotInfo.Blank (info : SlotInfo) : Prop := info = { sequence := info.sequence }

/-- A transaction that is no reader at rest has opened the slot at a position. -/
def Txn.Opened (txn : Txn) (index : Nat) : Prop :=
  (txn.readOnly = true → txn.idle = false) ∧ (txn.named.getD index {}).fresh = true

/-- The slot at a position is as it was, or free, or occupied by a name that one of some
transactions has opened. -/
inductive SlotTable.Strays (slots slots' : SlotTable) (txns : List Txn) (index : Nat) : Prop where
  | same (h : slots'.getD index {} = slots.getD index {})
  | blank (h : (slots'.getD index {}).Blank)
  | opened {txn : Txn} (hname : (slots'.getD index {}).name ≠ []) (hmem : txn ∈ txns)
      (h : txn.Opened index)

/-- A slot that is closed becomes blank, unless it was free. -/
theorem SlotInfo.closed_cases (info : SlotInfo) :
    info.name = [] ∧ info.closed = info ∨ info.closed.Blank := by
  unfold closed
  split
  · rename_i hfree
    exact .inl ⟨List.isEmpty_iff.mp hfree, rfl⟩
  · exact .inr rfl

/-- What was opened by some transactions was opened by others. -/
theorem SlotTable.Strays.mono (h : SlotTable.Strays slots slots' txns index)
    (htxns : ∀ txn ∈ txns, txn.Opened index → ∃ other ∈ txns', other.Opened index) :
    SlotTable.Strays slots slots' txns' index := by
  cases h with
  | same h => exact .same h
  | blank h => exact .blank h
  | opened hname hmem h =>
      obtain ⟨other, hother, hopened⟩ := htxns _ hmem h
      exact .opened hname hother hopened

/-- A slot that has stayed as it was. -/
theorem SlotTable.Strays.congr (h : SlotTable.Strays slots slots' txns index) {after : SlotTable}
    (hafter : after.getD index {} = slots'.getD index {}) :
    SlotTable.Strays slots after txns index := by
  cases h with
  | same h => exact .same (hafter.trans h)
  | blank h => exact .blank (hafter ▸ h)
  | opened hname hmem h => exact .opened (hafter ▸ hname) hmem h

/-- A slot that is closed goes without those who have opened it. -/
theorem SlotTable.Strays.closed (h : SlotTable.Strays slots slots' txns index) {after : SlotTable}
    (hafter : after.getD index {} = (slots'.getD index {}).closed) :
    SlotTable.Strays slots after txns' index := by
  rcases (slots'.getD index {}).closed_cases with ⟨hname, hsame⟩ | hblank
  · rw [hsame] at hafter
    cases h with
    | same h => exact .same (hafter.trans h)
    | blank h => exact .blank (hafter ▸ h)
    | opened hoccupied => exact absurd hname hoccupied
  · exact .blank (hafter ▸ hblank)

/-- The slots that a transaction has opened go when it ends without a commit. -/
theorem SlotTable.Strays.discard (h : SlotTable.Strays slots slots' txns index)
    (htxns : ∀ other ∈ txns, other = txn ∨ other ∈ txns') :
    SlotTable.Strays slots (slots'.discard txn.named) txns' index := by
  have hdiscard := SlotTable.getD_discard slots' txn.named index
  cases hfresh : (txn.named.getD index {}).fresh with
  | true =>
      rw [hfresh, if_pos rfl] at hdiscard
      exact h.closed hdiscard
  | false =>
      rw [hfresh, if_neg (by decide)] at hdiscard
      cases h with
      | same h => exact .same (hdiscard.trans h)
      | blank h => exact .blank (hdiscard ▸ h)
      | opened hname hmem h =>
          rcases htxns _ hmem with rfl | hrest
          · exact absurd h.2 (by rw [hfresh]; decide)
          · exact .opened (hdiscard ▸ hname) hrest h

/-! ## Engines -/

/-- An engine without its slots, its transactions, and what they use. -/
def core (engine : Engine) : Engine :=
  { engine with
    slots := []
    readers := {}
    writers := []
    reading := []
    memory := []
    nextHandle := 0 }

/-- Transactions of which one was replaced by another of the same handle. -/
def swap (txn : Txn) (txns : List Txn) : List Txn :=
  txns.map fun other ↦ if other.handle = txn.handle then txn else other

/-- An engine that since some earlier time has begun transactions and used them: the writers
`inner`, of which each is nested in the next, and the readers `newer`. The first handle was that of
the outermost, and what is `nested` in a transaction of before leaves the readers. -/
structure Ahead (first : Engine) (nested : Prop) (inner newer : List Txn) (last : Engine) : Prop where
  core : last.core = first.core
  writers : last.writers = inner ++ first.writers
  reading : last.reading = newer ++ first.reading
  handles : ∀ txn ∈ inner ++ newer, first.nextHandle ≤ txn.handle
  outermost : ∀ txn ∈ inner.getLast?, txn.handle = first.nextHandle
  reader : ∀ txn ∈ newer, txn.handle = first.nextHandle
  lengths : inner.Pairwise fun txn outer ↦ outer.named.length ≤ txn.named.length
  slots : ∀ index, SlotTable.Strays first.slots last.slots (inner ++ newer) index
  aside : nested → first.writers ≠ [] ∧ newer = [] ∧ last.readers = first.readers ∧
    last.memory = first.memory

/-- A transaction found under a handle that was not given out before is one of those that began
since. -/
theorem Ahead.mem (h : Ahead first nested inner newer last) (hfirst : Roster first)
    (htxn : last.txn? handle = some txn) (hhandle : first.nextHandle ≤ handle) :
    txn ∈ inner ++ newer := by
  have hmem := mem_of_txn? htxn
  have heq := handle_of_txn? htxn
  rw [h.writers, h.reading] at hmem
  have hearlier : txn ∉ first.writers ++ first.reading := by
    intro hbefore
    have hlt := hfirst.lt txn hbefore
    omega
  simp only [List.mem_append] at hmem hearlier ⊢
  tauto

/-- A reader found under such a handle is one of the readers. -/
theorem Ahead.mem_newer (h : Ahead first nested inner newer last) (hfirst : Roster first)
    (hroster : Roster last) (htxn : last.txn? handle = some txn)
    (hhandle : first.nextHandle ≤ handle) (hreader : txn.readOnly = true) : txn ∈ newer := by
  rcases List.mem_append.mp (h.mem hfirst htxn hhandle) with hmem | hmem
  · have hwriter := hroster.writers txn (h.writers ▸ List.mem_append_left _ hmem)
    rw [hreader] at hwriter
    cases hwriter
  · exact hmem

/-- A writer found under such a handle is one of the writers. -/
theorem Ahead.mem_inner (h : Ahead first nested inner newer last) (hfirst : Roster first)
    (hroster : Roster last) (htxn : last.txn? handle = some txn)
    (hhandle : first.nextHandle ≤ handle) (hwriter : ¬txn.readOnly = true) : txn ∈ inner := by
  rcases List.mem_append.mp (h.mem hfirst htxn hhandle) with hmem | hmem
  · exact hmem
  · exact absurd (hroster.reading txn (h.reading ▸ List.mem_append_left _ hmem)) hwriter

/-- Transactions of which none has the handle of another stay when that is replaced. -/
theorem swap_of_ne (h : ∀ other ∈ txns, other.handle ≠ txn.handle) : swap txn txns = txns :=
  (List.map_congr_left fun other hother ↦ if_neg (h other hother)).trans (List.map_id txns)

/-- Replacing a transaction that began since leaves those of before. -/
theorem swap_earlier (hfirst : Roster first) (hhandle : first.nextHandle ≤ txn.handle)
    (htxns : ∀ other ∈ txns, other ∈ first.writers ++ first.reading) : swap txn txns = txns := by
  refine swap_of_ne fun other hother heq ↦ ?_
  have hlt := hfirst.lt other (htxns other hother)
  omega

/-- Replacing a transaction that began since. -/
theorem Ahead.replaced (h : Ahead first nested inner newer last) (hfirst : Roster first)
    (hhandle : first.nextHandle ≤ handle) (hbefore : last.txn? handle = some before)
    (hsame : txn.handle = before.handle)
    (hlengths : (swap txn inner).Pairwise fun txn outer ↦ outer.named.length ≤ txn.named.length)
    (hslots : ∀ index, SlotTable.Strays first.slots slots (swap txn inner ++ swap txn newer) index) :
    Ahead first nested (swap txn inner) (swap txn newer)
      { last.replace txn with slots := slots } := by
  have hfound : txn.handle = handle := hsame.trans (handle_of_txn? hbefore)
  have hswap (other : Txn) :
      (if other.handle = txn.handle then txn else other).handle = other.handle := by
    split
    · rename_i heq
      exact heq.symm
    · rfl
  refine ⟨h.core, ?_, ?_, ?_, ?_, ?_, hlengths, hslots, ?_⟩
  · show swap txn last.writers = _
    rw [h.writers, swap, List.map_append]
    exact congrArg _ (swap_earlier hfirst (hfound ▸ hhandle) fun _ ↦ List.mem_append_left _)
  · show swap txn last.reading = _
    rw [h.reading, swap, List.map_append]
    exact congrArg _ (swap_earlier hfirst (hfound ▸ hhandle) fun _ ↦ List.mem_append_right _)
  · intro other hother
    rw [swap, swap, ← List.map_append] at hother
    obtain ⟨earlier, hearlier, rfl⟩ := List.mem_map.mp hother
    rw [hswap]
    exact h.handles earlier hearlier
  · intro other hother
    rw [swap, List.getLast?_map] at hother
    obtain ⟨earlier, hearlier, rfl⟩ := Option.mem_map.mp hother
    rw [hswap]
    exact h.outermost earlier hearlier
  · intro other hother
    obtain ⟨earlier, hearlier, rfl⟩ := List.mem_map.mp hother
    rw [hswap]
    exact h.reader earlier hearlier
  · intro hnested
    obtain ⟨houter, rfl, hreaders, hmemory⟩ := h.aside hnested
    exact ⟨houter, rfl, hreaders, hmemory⟩

/-- Only one transaction has the handle of another that it is replaced by. -/
theorem Ahead.eq_of_handle (h : Ahead first nested inner newer last) (hroster : Roster last)
    (hbefore : last.txn? handle = some before) (hsame : txn.handle = before.handle) :
    ∀ other ∈ inner ++ newer, other.handle = txn.handle → other = before := by
  intro other hother heq
  refine hroster.eq_of_handle ?_ hbefore (heq.trans (hsame.trans (handle_of_txn? hbefore)))
  rw [h.writers, h.reading]
  simp only [List.mem_append] at hother ⊢
  tauto

/-- Replacing a transaction by one that has opened what it has opened. -/
theorem SlotTable.Strays.swap (h : SlotTable.Strays slots slots' (inner ++ newer) index)
    (hunique : ∀ other ∈ inner ++ newer, other.handle = txn.handle → other = before)
    (hopened : before.Opened index → txn.Opened index) :
    SlotTable.Strays slots slots' (Engine.swap txn inner ++ Engine.swap txn newer) index := by
  refine h.mono fun other hother hfresh ↦ ?_
  rw [Engine.swap, Engine.swap, ← List.map_append]
  refine ⟨_, List.mem_map_of_mem hother, ?_⟩
  split
  · rename_i heq
    exact hopened (hunique other hother heq ▸ hfresh)
  · exact hfresh

/-- Replacing a transaction by one with as many slots keeps the writers in order. -/
theorem Ahead.lengths_swap (h : Ahead first nested inner newer last)
    (hunique : ∀ other ∈ inner ++ newer, other.handle = txn.handle → other = before)
    (hlength : txn.named.length = before.named.length) :
    (swap txn inner).Pairwise fun txn outer ↦ outer.named.length ≤ txn.named.length := by
  have hsame : ∀ other ∈ inner,
      (if other.handle = txn.handle then txn else other).named.length = other.named.length := by
    intro other hother
    split
    · rename_i heq
      rw [hlength, hunique other (List.mem_append_left _ hother) heq]
    · rfl
  rw [swap, List.pairwise_map]
  refine h.lengths.imp_of_mem fun {inner' outer} hinner houter hle ↦ ?_
  rw [hsame _ hinner, hsame _ houter]
  exact hle

/-- A writer that began since and is not blocked is the innermost one. -/
theorem Ahead.innermost (h : Ahead first nested inner newer last) (hfirst : Roster first)
    (hroster : Roster last) (hhandle : first.nextHandle ≤ handle)
    (htxn : last.txn? handle = some txn) (hwriter : txn.readOnly = false)
    (hblocked : last.isBlocked txn = false) : ∃ rest, inner = txn :: rest := by
  obtain ⟨others, hwriters⟩ := hroster.innermost htxn hwriter hblocked
  have hfound := handle_of_txn? htxn
  have hsplit := h.writers.symm.trans hwriters
  cases inner with
  | nil =>
      have hmem : txn ∈ first.writers := by
        rw [List.nil_append] at hsplit
        exact hsplit ▸ List.mem_cons_self
      have hlt := hfirst.lt txn (List.mem_append_left _ hmem)
      omega
  | cons head rest => exact ⟨rest, congrArg (· :: rest) (List.cons.inj hsplit).1⟩

/-- No writer is replaced with a reader. -/
theorem Ahead.swap_inner (h : Ahead first nested inner newer last) (hroster : Roster last)
    (hbefore : last.txn? handle = some before) (hreader : before.readOnly = true)
    (hsame : txn.handle = before.handle) : swap txn inner = inner := by
  refine swap_of_ne fun other hother heq ↦ ?_
  obtain rfl := h.eq_of_handle hroster hbefore hsame other (List.mem_append_left _ hother) heq
  have hwriter := hroster.writers other (h.writers ▸ List.mem_append_left _ hother)
  rw [hreader] at hwriter
  cases hwriter

/-- Replacing the innermost writer, or a reader, by one that has more slots. -/
theorem Ahead.lengths_grown (h : Ahead first nested inner newer last) (hfirst : Roster first)
    (hroster : Roster last) (hhandle : first.nextHandle ≤ handle)
    (hbefore : last.txn? handle = some before) (hblocked : last.isBlocked before = false)
    (hsame : txn.handle = before.handle) (hlength : before.named.length ≤ txn.named.length) :
    (swap txn inner).Pairwise fun txn outer ↦ outer.named.length ≤ txn.named.length := by
  cases hreader : before.readOnly with
  | true =>
      rw [h.swap_inner hroster hbefore hreader hsame]
      exact h.lengths
  | false =>
      obtain ⟨rest, rfl⟩ := h.innermost hfirst hroster hhandle hbefore hreader hblocked
      have hnodup := hroster.nodup
      have hlengths := h.lengths
      rw [h.writers, List.cons_append, List.cons_append, List.map_cons, List.nodup_cons] at hnodup
      have hrest : swap txn rest = rest := swap_of_ne fun other hother heq ↦ hnodup.1
        (List.mem_map.mpr ⟨other, by simp [hother], heq.trans hsame⟩)
      have hswap : swap txn (before :: rest) = txn :: rest := by
        rw [swap, List.map_cons, if_pos hsame.symm]
        exact congrArg _ hrest
      rw [hswap]
      rw [List.pairwise_cons] at hlengths ⊢
      exact ⟨fun outer houter ↦ (hlengths.1 outer houter).trans hlength, hlengths.2⟩

/-- Transactions of one kin have opened the same if their slots say so. -/
theorem opened_of_fresh (hkin : Txn.Kin before txn)
    (hfresh : (txn.named.getD index {}).fresh = (before.named.getD index {}).fresh) :
    before.Opened index → txn.Opened index := by
  intro hopened
  refine ⟨fun hreader ↦ ?_, hfresh.trans hopened.2⟩
  rw [hkin.idle]
  exact hopened.1 (hkin.readOnly ▸ hreader)

/-- A use of a slot opens nothing and closes nothing. -/
theorem opened_of_uses {slot : Nat} (h : Txn.Uses slots slot before txn) :
    before.Opened index → txn.Opened index := by
  refine opened_of_fresh h.kin ?_
  rw [List.getD_eq_getElem?_getD, List.getD_eq_getElem?_getD]
  cases hbefore : before.named[index]? with
  | none =>
      have hnone : txn.named[index]? = none := by
        rw [List.getElem?_eq_none_iff] at hbefore ⊢
        rw [h.length]
        exact hbefore
      rw [hnone]
  | some content =>
      by_cases hslot : index + firstSlot = slot
      · obtain ⟨content', hcontent', hfollows⟩ := h.here index hslot content hbefore
        rw [hcontent']
        exact hfollows.fresh
      · rw [h.other index hslot, hbefore]

/-- A transaction without a database has as many slots as before. -/
theorem length_without (txn : Txn) (slot : Nat) (name : Bytes) :
    (txn.without slot name).named.length = txn.named.length := by
  unfold Txn.without Txn.modifySlot
  cases txn.slot? slot with
  | none => rfl
  | some content =>
      match slot with
      | 0 | 1 => rfl
      | index + 2 => exact List.length_set

/-- An open of a name that gets a position. The transaction has opened that one, and of the others
what it had opened before. -/
theorem Ahead.placed {base : Txn} {content : TxnSlot} {name : Bytes}
    (h : Ahead first nested inner newer last) (hfirst : Roster first) (hroster : Roster last)
    (hhandle : first.nextHandle ≤ handle)
    (hawake : before.readOnly = true → before.idle = false)
    (htxn : last.txn? handle = some before)
    (hoccupies : Occupies last.slots index name before base content) (other : Nat) :
    SlotTable.Strays first.slots (occupied last.slots index name)
      (swap { base with named := placeSlot base.named index content } inner ++
        swap { base with named := placeSlot base.named index content } newer) other := by
  have hkin := hoccupies.records.kin
  have hnamed := hoccupies.records.named
  have hindex : index ≤ base.named.length := hnamed ▸ hoccupies.index_le
  have hplaced : (placeSlot base.named index content)[other]? =
      if other = index then some content else base.named[other]? :=
    Txn.Coherent.getElem?_placeSlot base.named content hindex
  by_cases hother : other = index
  · subst hother
    have hself := SlotTable.getD_updateAt_self
      (fun info ↦ { info with name := name, sequence := info.sequence + 1 }) last.slots other
    rw [if_pos rfl] at hplaced
    have hmem := List.mem_map_of_mem
      (f := fun earlier ↦ if earlier.handle = base.handle then
        { base with named := placeSlot base.named other content } else earlier)
      (h.mem hfirst htxn hhandle)
    rw [if_pos hkin.handle.symm, List.map_append] at hmem
    refine .opened ?_ hmem ⟨fun hreader ↦ ?_, ?_⟩
    · unfold occupied
      rw [hself]
      exact hoccupies.name_ne
    · exact hkin.idle.trans (hawake (hkin.readOnly ▸ hreader))
    · rw [List.getD_eq_getElem?_getD, hplaced]
      exact hoccupies.fresh
  · rw [if_neg hother] at hplaced
    have hsame : (placeSlot base.named index content).getD other {} =
        before.named.getD other {} := by
      rw [List.getD_eq_getElem?_getD, hplaced, hnamed, List.getD_eq_getElem?_getD]
    have hunique := h.eq_of_handle hroster htxn hkin.handle
    refine ((h.slots other).congr ?_).swap hunique (opened_of_fresh ?_ ?_)
    · exact SlotTable.getD_updateAt_of_ne _ _ hother
    · exact ⟨hkin.handle, hkin.readOnly, hkin.idle, hkin.commit, hkin.reader⟩
    · exact congrArg TxnSlot.fresh hsame

/-- A use of a transaction that began since and is no reader at rest. -/
theorem Ahead.used (h : Ahead first nested inner newer last) (hfirst : Roster first)
    (hroster : Roster last) (hhandle : first.nextHandle ≤ handle)
    (hawake : ∀ txn, last.txn? handle = some txn → txn.readOnly = true → txn.idle = false)
    (hused : Used last handle after) : ∃ inner' newer', Ahead first nested inner' newer' after := by
  cases hused with
  | same => exact ⟨inner, newer, h⟩
  | through slot htxn huses =>
      have hunique := h.eq_of_handle hroster htxn huses.kin.handle
      exact ⟨_, _, h.replaced hfirst hhandle htxn huses.kin.handle
        (h.lengths_swap hunique huses.length)
        fun index ↦ (h.slots index).swap hunique (opened_of_uses huses)⟩
  | @mainFlags flags before htxn =>
      have hunique : ∀ other ∈ inner ++ newer, other.handle = before.handle → other = before :=
        h.eq_of_handle hroster htxn rfl
      exact ⟨_, _, h.replaced hfirst hhandle htxn rfl (h.lengths_swap hunique rfl)
        fun index ↦ (h.slots index).swap hunique id⟩
  | @occupied index name before base content htxn hoccupies hblocked =>
      have hkin := hoccupies.records.kin
      have hlength : before.named.length ≤ (placeSlot base.named index content).length := by
        rw [← hoccupies.records.named]
        unfold placeSlot
        split <;> simp
      exact ⟨_, _, h.replaced hfirst hhandle htxn hkin.handle
        (h.lengths_grown hfirst hroster hhandle htxn hblocked hkin.handle hlength)
        (h.placed hfirst hroster hhandle (hawake before htxn) htxn hoccupies)⟩
  | @dropped slot before base htxn hslot hwriter huses =>
      have hkin := huses.kin.trans (Txn.kin_without base slot (last.slots.info slot).name)
      have hunique := h.eq_of_handle hroster htxn hkin.handle
      obtain ⟨-, -, hothers, -⟩ := base.without_eq (last.slots.info slot).name hslot
      refine ⟨_, _, h.replaced hfirst hhandle htxn hkin.handle
        (h.lengths_swap hunique ((length_without base slot _).trans huses.length)) fun index ↦ ?_⟩
      by_cases hindex : index + firstSlot = slot
      · subst hindex
        exact (h.slots index).closed (SlotTable.getD_updateAt_self _ _ _)
      · refine ((h.slots index).congr ?_).swap hunique (opened_of_fresh hkin ?_)
        · exact last.slots.info_update_of_ne SlotInfo.closed hindex
        · rw [List.getD_eq_getElem?_getD, hothers index hindex, huses.other index hindex,
            List.getD_eq_getElem?_getD]

/-! ## Beginnings -/

/-- The begin of a first writer, which is nested in another or is the root. -/
theorem ahead_writer (hhandle : txn.handle = first.nextHandle)
    (hlast : last = { first with writers := txn :: first.writers, nextHandle := last.nextHandle })
    (hnested : nested → first.writers ≠ []) : Ahead first nested [txn] [] last := by
  rw [hlast]
  refine ⟨rfl, rfl, rfl, ?_, ?_, by simp, List.pairwise_singleton _ _, fun _ ↦ .same rfl,
    fun h ↦ ⟨hnested h, rfl, rfl, rfl⟩⟩
  · intro other hother
    obtain rfl := List.mem_singleton.mp hother
    exact Nat.le_of_eq hhandle.symm
  · intro other hother
    obtain rfl : txn = other := by simpa using hother
    exact hhandle

/-- The begin of the outermost transaction. -/
theorem Began.ahead {parent : Option Nat} {flags : TxnFlags} (hfirst : Roster first)
    (h : Began first parent flags handle last) (hnested : nested → parent ≠ none) :
    ∃ inner newer, Ahead first nested inner newer last := by
  cases h with
  | reading readers reader hparent hflags =>
      have hhandle : ∀ txn ∈ [first.newReader reader], txn.handle = first.nextHandle := by
        intro txn htxn
        obtain rfl := List.mem_singleton.mp htxn
        rfl
      exact ⟨[], [first.newReader reader], rfl, rfl, rfl,
        fun txn htxn ↦ Nat.le_of_eq (hhandle txn htxn).symm, by simp, hhandle, .nil,
        fun _ ↦ .same rfl, fun h ↦ absurd hparent (hnested h)⟩
  | root hparent hflags =>
      exact ⟨[_], [], ahead_writer rfl rfl fun h ↦ absurd hparent (hnested h)⟩
  | nested hparent hflags htxn hwriter hblocked =>
      refine ⟨[_], [], ahead_writer rfl rfl fun _ ↦ ?_⟩
      exact List.ne_nil_of_mem (hfirst.mem_writers htxn hwriter)

/-- The begin of a transaction nested in one that began since. -/
theorem Ahead.began {outer : Nat} {flags : TxnFlags} (h : Ahead first nested inner newer last)
    (hfirst : Roster first) (hroster : Roster last) (houter : first.nextHandle ≤ outer)
    (hbegan : Began last (some outer) flags handle after) :
    ∃ inner' newer', Ahead first nested inner' newer' after := by
  cases hbegan with
  | reading readers reader hparent => cases hparent
  | root hparent => cases hparent
  | @nested outer' txn hparent hflags htxn hwriter hblocked =>
      obtain rfl : outer = outer' := Option.some.inj hparent
      -- The writer that this one is nested in is not blocked, so it is the innermost.
      obtain ⟨rest, rfl⟩ := h.innermost hfirst hroster houter htxn hwriter hblocked
      have hlt : outer < last.nextHandle :=
        handle_of_txn? htxn ▸ hroster.lt txn (mem_of_txn? htxn)
      have hlengths := h.lengths
      refine ⟨_ :: txn :: rest, newer, h.core, congrArg _ h.writers, h.reading, ?_, ?_, h.reader, ?_,
        ?_, h.aside⟩
      · intro other hother
        rcases List.mem_cons.mp hother with rfl | hother
        · show first.nextHandle ≤ last.nextHandle
          omega
        · exact h.handles other hother
      · rw [List.getLast?_cons_cons]
        exact h.outermost
      · refine List.pairwise_cons.mpr ⟨fun other hother ↦ ?_, hlengths⟩
        show other.named.length ≤ (txn.named.map _).length
        rw [List.length_map]
        rcases List.mem_cons.mp hother with rfl | hother
        · exact Nat.le_refl _
        · exact (List.pairwise_cons.mp hlengths).1 other hother
      · exact fun index ↦ (h.slots index).mono fun other hother hopened ↦
          ⟨other, List.mem_cons_of_mem _ hother, hopened⟩

/-! ## Endings -/

/-- The innermost writer goes, with the slots that it has opened. -/
theorem Ahead.pop (h : Ahead first nested (txn :: inner) newer last) :
    Ahead first nested inner newer
      { last with
        slots := last.slots.discard txn.named
        memory :=
          if (inner ++ first.writers).isEmpty then remember last.memory txn.named else last.memory
        writers := inner ++ first.writers } where
  core := h.core
  writers := rfl
  reading := h.reading
  handles := fun other hother ↦ h.handles other (List.mem_cons_of_mem _ hother)
  outermost := by
    intro other hother
    refine h.outermost other ?_
    cases inner with
    | nil => cases hother
    | cons head rest =>
        rw [List.getLast?_cons_cons]
        exact hother
  reader := h.reader
  lengths := (List.pairwise_cons.mp h.lengths).2
  slots := fun index ↦ (h.slots index).discard fun _ hother ↦ List.mem_cons.mp hother
  aside := by
    intro hnested
    obtain ⟨houter, hnewer, hreaders, hmemory⟩ := h.aside hnested
    have hrest : (inner ++ first.writers).isEmpty = false := by simp [houter]
    exact ⟨houter, hnewer, hreaders, by rw [hrest, if_neg (by decide), hmemory]⟩

/-- Writers that began since go up to one of them. -/
theorem Ahead.abortWriters {engine : Engine}
    (h : Ahead first nested inner newer { engine with writers := inner ++ first.writers })
    (hmem : ∃ txn ∈ inner, txn.handle = handle) :
    ∃ inner', Ahead first nested inner' newer
      (engine.abortWriters handle (inner ++ first.writers)) := by
  -- The writers go one by one from the innermost, each with its slots, up to the one asked for.
  induction inner generalizing engine with
  | nil => simp at hmem
  | cons txn rest ih =>
      have hpop := h.pop
      rw [List.cons_append, Engine.abortWriters]
      split
      · exact ⟨rest, hpop⟩
      · rename_i hne
        refine ih hpop ?_
        obtain ⟨other, hother, hhandle⟩ := hmem
        rcases List.mem_cons.mp hother with rfl | hother
        · exact absurd hhandle hne
        · exact ⟨other, hother, hhandle⟩

/-- A reader that began since goes, with the slots that it has opened. -/
theorem Ahead.endReader (h : Ahead first nested inner newer last) (hfirst : Roster first)
    (hroster : Roster last) (hhandle : first.nextHandle ≤ handle)
    (htxn : last.txn? handle = some txn) (hreader : txn.readOnly = true) :
    ∃ newer', Ahead first nested inner newer' (last.endReader txn false) := by
  have hfound := handle_of_txn? htxn
  have hmem := h.mem_newer hfirst hroster htxn hhandle hreader
  have hunique := h.eq_of_handle hroster htxn rfl
  have hmembers : ∀ other ∈ inner ++ newer, other = txn ∨
      other ∈ inner ++ newer.filter fun other ↦ other.handle ≠ txn.handle := by
    intro other hother
    by_cases heq : other.handle = txn.handle
    · exact .inl (hunique other hother heq)
    · refine .inr ?_
      rcases List.mem_append.mp hother with hinner | hnewer
      · exact List.mem_append_left _ hinner
      · exact List.mem_append_right _ (List.mem_filter.mpr ⟨hnewer, by simpa using heq⟩)
  have hreading : last.reading.filter (fun other ↦ other.handle ≠ txn.handle) =
      newer.filter (fun other ↦ other.handle ≠ txn.handle) ++ first.reading := by
    rw [h.reading, List.filter_append]
    congr 1
    refine List.filter_eq_self.mpr fun other hother ↦ ?_
    have hlt := hfirst.lt other (List.mem_append_right _ hother)
    exact decide_eq_true (by omega)
  obtain ⟨readers, hleave⟩ := leaveReader_eq last txn true
  have hafter {slots : SlotTable}
      (hslots : ∀ index, SlotTable.Strays first.slots slots
        (inner ++ newer.filter fun other ↦ other.handle ≠ txn.handle) index) :
      Ahead first nested inner (newer.filter fun other ↦ other.handle ≠ txn.handle)
        { last with
          readers := readers
          reading := last.reading.filter fun other ↦ other.handle ≠ txn.handle
          slots := slots } := by
    refine ⟨h.core, h.writers, hreading, ?_, h.outermost, ?_, h.lengths, hslots, ?_⟩
    · intro other hother
      refine h.handles other (List.mem_append.mpr ((List.mem_append.mp hother).imp_right ?_))
      exact fun hkept ↦ (List.mem_filter.mp hkept).1
    · exact fun other hother ↦ h.reader other (List.mem_filter.mp hother).1
    · intro hnested
      obtain ⟨-, rfl, -⟩ := h.aside hnested
      cases hmem
  refine ⟨newer.filter fun other ↦ other.handle ≠ txn.handle, ?_⟩
  unfold Engine.endReader
  dsimp only
  rw [hleave]
  split
  · -- A reader at rest has no slots that it has opened, so that none are discarded.
    rename_i hidle
    refine hafter fun index ↦ (h.slots index).mono fun other hother hopened ↦ ⟨other, ?_, hopened⟩
    refine (hmembers other hother).resolve_left ?_
    rintro rfl
    exact absurd (hopened.1 hreader) (by rw [hidle]; decide)
  · exact hafter fun index ↦ (h.slots index).discard hmembers

/-- An abort of a transaction that began since. -/
theorem Ahead.aborted (h : Ahead first nested inner newer last) (hfirst : Roster first)
    (hroster : Roster last) (hhandle : first.nextHandle ≤ handle) :
    ∃ inner' newer', Ahead first nested inner' newer' (last.abort handle) := by
  unfold abort
  cases htxn : last.txn? handle with
  | none => exact ⟨inner, newer, h⟩
  | some txn =>
      dsimp only
      split
      · rename_i hreader
        obtain ⟨newer', hended⟩ := h.endReader hfirst hroster hhandle htxn hreader
        exact ⟨inner, newer', hended⟩
      · rename_i hwriter
        have hmem := h.mem_inner hfirst hroster htxn hhandle hwriter
        rw [h.writers]
        have hsame : { last with writers := inner ++ first.writers } = last := by rw [← h.writers]
        obtain ⟨inner', hended⟩ := Ahead.abortWriters (hsame.symm ▸ h)
          ⟨txn, hmem, handle_of_txn? htxn⟩
        exact ⟨inner', newer, hended⟩

/-- A slot that was opened in a transaction is one that it holds. -/
theorem lt_of_fresh {named : List TxnSlot} (h : (named.getD index {}).fresh = true) :
    index < named.length := by
  by_contra hge
  rw [List.getD_eq_getElem?_getD, List.getElem?_eq_none (by omega)] at h
  cases h

/-- A parent that takes over what a writer holds has opened what either had. -/
theorem opened_absorb {parent other : Txn} (hwriter : txn.readOnly = false)
    (hlength : parent.named.length ≤ txn.named.length) (hother : other = txn ∨ other = parent)
    (hopened : other.Opened index) : (absorb parent txn).Opened index := by
  constructor
  · intro hreader
    have hsame : (absorb parent txn).readOnly = txn.readOnly := rfl
    rw [hsame, hwriter] at hreader
    cases hreader
  · have hlt : index < txn.named.length := by
      rcases hother with rfl | rfl
      · exact lt_of_fresh hopened.2
      · exact (lt_of_fresh hopened.2).trans_le hlength
    have habsorbed : ((absorb parent txn).named.getD index {}).fresh =
        ((txn.named.getD index {}).fresh || (parent.named.getD index {}).fresh) := by
      rw [List.getD_eq_getElem?_getD, absorb, List.getElem?_mapIdx, List.getElem?_eq_getElem hlt,
        txn.named.getD_eq_getElem?_getD, List.getElem?_eq_getElem hlt]
      rfl
    rw [habsorbed]
    rcases hother with rfl | rfl
    · rw [hopened.2, Bool.true_or]
    · rw [hopened.2, Bool.or_true]

/-- The outermost keeps its handle when the parent of the innermost changes. -/
theorem Ahead.outermost_parent {parent parent' : Txn}
    (h : Ahead first nested (txn :: parent :: inner) newer last)
    (hhandle : parent'.handle = parent.handle) :
    ∀ other ∈ (parent' :: inner).getLast?, other.handle = first.nextHandle := by
  have houtermost := h.outermost
  rw [List.getLast?_cons_cons] at houtermost
  intro other hother
  cases inner with
  | nil =>
      obtain rfl : parent' = other := by simpa using hother
      exact hhandle.trans (houtermost parent (by simp))
  | cons head rest =>
      rw [List.getLast?_cons_cons] at hother houtermost
      exact houtermost other hother

/-- The innermost writer hands what it holds to its parent, which began since as well. -/
theorem Ahead.absorbed {parent : Txn} (h : Ahead first nested (txn :: parent :: inner) newer last)
    (hroster : Roster last) :
    Ahead first nested (absorb parent txn :: inner) newer
      { last with writers := absorb parent txn :: (inner ++ first.writers) } := by
  have hlengths := h.lengths
  rw [List.pairwise_cons, List.pairwise_cons] at hlengths
  have hlength : (absorb parent txn).named.length = txn.named.length := List.length_mapIdx
  have hwriter : txn.readOnly = false :=
    hroster.writers txn (h.writers ▸ List.mem_cons_self)
  have hopened {other : Txn} {index : Nat} (hother : other = txn ∨ other = parent)
      (hopens : other.Opened index) : (absorb parent txn).Opened index :=
    opened_absorb hwriter (hlengths.1 parent List.mem_cons_self) hother hopens
  refine ⟨h.core, rfl, h.reading, ?_, h.outermost_parent (by exact rfl), h.reader, ?_, ?_,
    h.aside⟩
  · intro other hother
    rcases List.mem_cons.mp hother with rfl | hother
    · exact h.handles parent (by simp)
    · exact h.handles other (List.mem_cons_of_mem _ (List.mem_cons_of_mem _ hother))
  · refine List.pairwise_cons.mpr ⟨fun other hother ↦ ?_, hlengths.2.2⟩
    rw [hlength]
    exact hlengths.1 other (List.mem_cons_of_mem _ hother)
  · refine fun index ↦ (h.slots index).mono fun other hother hopens ↦ ?_
    simp only [List.cons_append, List.mem_cons] at hother
    rcases hother with rfl | rfl | hother
    · exact ⟨_, List.mem_cons_self, hopened (.inl rfl) hopens⟩
    · exact ⟨_, List.mem_cons_self, hopened (.inr rfl) hopens⟩
    · exact ⟨other, List.mem_cons_of_mem _ hother, hopens⟩

/-- The parent of the innermost writer breaks. -/
theorem Ahead.broken {parent : Txn} (h : Ahead first nested (txn :: parent :: inner) newer last)
    (hroster : Roster last) :
    ∃ inner', Ahead first nested inner' newer
        { last with writers := txn :: { parent with broken := true } :: (inner ++ first.writers) } ∧
      Roster
        { last with writers := txn :: { parent with broken := true } :: (inner ++ first.writers) } := by
  have hlengths := h.lengths
  refine ⟨txn :: { parent with broken := true } :: inner, ⟨h.core, rfl, h.reading, ?_, ?_, h.reader,
    ?_, ?_, h.aside⟩, hroster.of_stays ⟨?_, rfl, rfl, rfl, .refl _⟩⟩
  · intro other hother
    simp only [List.cons_append, List.mem_cons] at hother
    rcases hother with rfl | rfl | hother
    · exact h.handles other List.mem_cons_self
    · exact h.handles parent (by simp)
    · exact h.handles other (List.mem_cons_of_mem _ (List.mem_cons_of_mem _ hother))
  · rw [List.getLast?_cons_cons]
    exact h.outermost_parent rfl
  · rw [List.pairwise_cons, List.pairwise_cons] at hlengths ⊢
    refine ⟨fun other hother ↦ ?_, hlengths.2⟩
    rcases List.mem_cons.mp hother with rfl | hother
    · exact hlengths.1 parent List.mem_cons_self
    · exact hlengths.1 other (List.mem_cons_of_mem _ hother)
  · refine fun index ↦ (h.slots index).mono fun other hother hopens ↦ ?_
    simp only [List.cons_append, List.mem_cons] at hother
    rcases hother with rfl | rfl | hother
    · exact ⟨other, List.mem_cons_self, hopens⟩
    · exact ⟨{ other with broken := true }, by simp, hopens⟩
    · exact ⟨other, by simp [hother], hopens⟩
  · rw [h.writers]
    rfl

/-- A commit of a transaction that began since, but not first. Within these it goes to a parent. -/
theorem Ahead.committed (h : Ahead first nested inner newer last) (hfirst : Roster first)
    (hroster : Roster last) (hhandle : first.nextHandle < handle) :
    ∃ inner' newer', Ahead first nested inner' newer' (last.commit handle).2 := by
  unfold commit
  cases htxn : last.txn? handle with
  | none => exact ⟨inner, newer, h⟩
  | some txn =>
      have hfound := handle_of_txn? htxn
      dsimp only
      split
      · -- A reader that began since is the outermost, which does not commit.
        rename_i hreader
        have hmem := h.mem_newer hfirst hroster htxn (Nat.le_of_lt hhandle) hreader
        have holdest := h.reader txn hmem
        omega
      rename_i hwriter
      have hmem := h.mem_inner hfirst hroster htxn (Nat.le_of_lt hhandle) hwriter
      cases hwriters : last.writers with
      | nil => exact ⟨inner, newer, h⟩
      | cons innermost outer =>
          dsimp only
          split
          swap
          · exact h.aborted hfirst hroster (Nat.le_of_lt hhandle)
          rename_i hinnermost
          have hsplit := h.writers.symm.trans hwriters
          -- Nor is the writer that commits the outermost, so its parent began since as well.
          match inner, h, hmem, hsplit with
          | [head], h, _, hsplit =>
              obtain ⟨rfl, -⟩ := List.cons.inj hsplit
              have houtermost := h.outermost head (by simp)
              omega
          | head :: parent :: rest, h, _, hsplit =>
              obtain ⟨rfl, rfl⟩ := List.cons.inj hsplit
              show ∃ inner' newer', Ahead first nested inner' newer'
                (last.commitWriter head (parent :: (rest ++ first.writers))).2
              unfold commitWriter
              dsimp only
              split
              · obtain ⟨inner', hbroken, hroster'⟩ := h.broken hroster
                exact hbroken.aborted hfirst hroster' (hinnermost ▸ Nat.le_of_lt hhandle)
              · exact ⟨_, _, h.absorbed hroster⟩

/-! ## Rest -/

/-- The reader slots are no concern of a transaction that is not nested. -/
theorem Ahead.withReaders (h : Ahead first nested inner newer last) (hnewer : newer ≠ [])
    (readers : ReaderTable) : Ahead first nested inner newer { last with readers := readers } :=
  ⟨h.core, h.writers, h.reading, h.handles, h.outermost, h.reader, h.lengths, h.slots,
    fun hnested ↦ absurd (h.aside hnested).2.1 hnewer⟩

/-- Replacing a reader. -/
theorem Ahead.replacedReader (h : Ahead first nested inner newer last) (hfirst : Roster first)
    (hroster : Roster last) (hhandle : first.nextHandle ≤ handle)
    (hbefore : last.txn? handle = some before) (hreader : before.readOnly = true)
    (txn : Txn) (hsame : txn.handle = before.handle) (readers : ReaderTable)
    (hslots : ∀ index, SlotTable.Strays first.slots slots (swap txn inner ++ swap txn newer) index) :
    ∃ inner' newer', Ahead first nested inner' newer'
      { last.replace txn with readers := readers, slots := slots } := by
  have hmem := h.mem_newer hfirst hroster hbefore hhandle hreader
  refine ⟨_, _, (h.replaced hfirst hhandle hbefore hsame ?_ hslots).withReaders ?_ readers⟩
  · rw [h.swap_inner hroster hbefore hreader hsame]
    exact h.lengths
  · exact List.ne_nil_of_mem (List.mem_map_of_mem hmem)

/-- A reset of a transaction that began since. -/
theorem Ahead.wasReset (h : Ahead first nested inner newer last) (hfirst : Roster first)
    (hroster : Roster last) (hhandle : first.nextHandle ≤ handle)
    (hreset : WasReset last handle after) :
    ∃ inner' newer', Ahead first nested inner' newer' after := by
  cases hreset with
  | same => exact ⟨inner, newer, h⟩
  | @idle before readers reader htxn hreader hidle =>
      have hunique := h.eq_of_handle hroster htxn rfl
      refine h.replacedReader hfirst hroster hhandle htxn hreader
        { before with idle := true, reader := reader } rfl readers fun index ↦ ?_
      refine (h.slots index).discard fun other hother ↦ ?_
      by_cases heq : other.handle = before.handle
      · exact .inl (hunique other hother heq)
      · refine .inr ?_
        rw [swap, swap, ← List.map_append]
        exact List.mem_map.mpr ⟨other, hother, if_neg heq⟩

/-- A renewal of a reader that began since. -/
theorem Ahead.renewed (h : Ahead first nested inner newer last) (hfirst : Roster first)
    (hroster : Roster last) (hhandle : first.nextHandle ≤ handle)
    (hreader : ∀ txn, last.txn? handle = some txn → txn.readOnly = true)
    (hrenewed : Renewed last handle after) :
    ∃ inner' newer', Ahead first nested inner' newer' after := by
  cases hrenewed with
  | @mk before readers reader htxn hidle =>
      have hunique := h.eq_of_handle hroster htxn rfl
      refine h.replacedReader hfirst hroster hhandle htxn (hreader before htxn) _ (by exact rfl)
        readers fun index ↦ (h.slots index).swap hunique fun hopened ↦ ?_
      have hawake := hopened.1 (hreader before htxn)
      rw [hidle] at hawake
      cases hawake

/-! ## What is left -/

/-- What is known of the occupant of a slot, whenever it came. -/
def SlotInfo.face (info : SlotInfo) : Bytes × DbFlags × Bool := (info.name, info.flags, info.known)

/-- A slot with the counter of another. -/
def SlotInfo.counted (info later : SlotInfo) : SlotInfo := { info with sequence := later.sequence }

/-- Slots with the same occupant differ in their counters only. -/
theorem SlotInfo.counted_of_face {info later : SlotInfo} (h : later.face = info.face) :
    info.counted later = later := by
  obtain ⟨name, flags, known, sequence⟩ := info
  obtain ⟨name', flags', known', sequence'⟩ := later
  simp only [face, Prod.mk.injEq] at h
  obtain ⟨rfl, rfl, rfl⟩ := h
  rfl

/-- The slots of before, each with a counter that has gone on. -/
def SlotTable.countedTo (slots later : SlotTable) : SlotTable :=
  (List.range later.length).map fun index ↦ (slots.getD index {}).counted (later.getD index {})

/-- If the occupants of the slots are as they were, so are the slots but for their counters. -/
theorem countedTo_of_faces (h : ∀ slot, (slots'.info slot).face = (slots.info slot).face) :
    slots.countedTo slots' = slots' := by
  refine List.ext_getElem (by simp [SlotTable.countedTo]) fun index _ hindex ↦ ?_
  have hsame : (slots.getD index {}).counted (slots'.getD index {}) = slots'.getD index {} :=
    SlotInfo.counted_of_face (h (index + 2))
  have hlater : slots'.getD index {} = slots'[index] := by
    rw [List.getD_eq_getElem?_getD, List.getElem?_eq_getElem hindex]
    rfl
  rw [← hlater, ← hsame]
  simp only [SlotTable.countedTo, List.getElem_map, List.getElem_range]

/-- An engine of before that has passed over the handles and counters that were used since. -/
def passedTo (first last : Engine) : Engine :=
  { first with slots := first.slots.countedTo last.slots, nextHandle := last.nextHandle }

/-- What is left when all have ended whose begin has put an engine ahead: nothing but the counters
and the handles that were used, if the occupants of the slots are as they were. -/
theorem Ahead.restored (h : Ahead first nested [] [] last)
    (hfaces : ∀ slot, (last.slots.info slot).face = (first.slots.info slot).face) :
    last = { first.passedTo last with readers := last.readers, memory := last.memory } := by
  have hlast : last =
      { last.core with
        slots := last.slots
        readers := last.readers
        writers := last.writers
        reading := last.reading
        memory := last.memory
        nextHandle := last.nextHandle } := rfl
  rw [h.core, h.writers, h.reading] at hlast
  unfold passedTo
  rw [countedTo_of_faces hfaces]
  exact hlast

/-- What is left of a transaction that was nested in another. -/
theorem Ahead.restored_nested (h : Ahead first nested [] [] last) (hnested : nested)
    (hfaces : ∀ slot, (last.slots.info slot).face = (first.slots.info slot).face) :
    last = first.passedTo last := by
  obtain ⟨-, -, hreaders, hmemory⟩ := h.aside hnested
  have hlast := h.restored hfaces
  rw [hreaders, hmemory] at hlast
  exact hlast

/-- Only counters of blank slots have gone on. -/
theorem Ahead.counters (h : Ahead first nested [] [] last) (index : Nat) :
    last.slots.getD index {} = first.slots.getD index {} ∨ (last.slots.getD index {}).Blank := by
  cases h.slots index with
  | same h => exact .inl h
  | blank h => exact .inr h
  | opened _ hmem => cases hmem

/-- A slot that is occupied or known is not blank. -/
theorem SlotInfo.Blank.vacant {info : SlotInfo} (h : info.Blank) :
    ¬(info.name ≠ [] ∨ info.known = true) := by
  rw [h]
  rintro (hname | hknown)
  · exact hname rfl
  · cases hknown

/-- For no transaction has a slot become outdated, nor up to date again, if the occupants are as
they were: those whose counters have gone on were of no use to any. -/
theorem Ahead.outdated (h : Ahead first nested [] [] last) (hfirst : first.Each Txn.Alert)
    (hlast : last.Each Txn.Alert)
    (hfaces : ∀ slot, (last.slots.info slot).face = (first.slots.info slot).face) {slot : Nat}
    {content : TxnSlot} (htxn : txn ∈ last.writers ++ last.reading)
    (husable : txn.usable? slot = some content) :
    txn.isOutdated last.slots slot content = txn.isOutdated first.slots slot content := by
  obtain ⟨hslot, hready, -⟩ := Txn.slot?_of_usable? husable
  have hbefore : txn ∈ first.writers ++ first.reading := by
    rw [h.writers, h.reading] at htxn
    exact htxn
  match slot with
  | 0 | 1 => rfl
  | index + 2 =>
      unfold Txn.isOutdated
      show (!txn.readOnly && content.sequence != (last.slots.getD index {}).sequence) =
        (!txn.readOnly && content.sequence != (first.slots.getD index {}).sequence)
      rcases h.counters index with hsame | hblank
      · rw [hsame]
      · have hface : (last.slots.getD index {}).face = (first.slots.getD index {}).face :=
          hfaces (index + 2)
        simp only [SlotInfo.face, Prod.mk.injEq] at hface
        have hvacant := hblank.vacant
        have hne : content.sequence ≠ (last.slots.getD index {}).sequence :=
          fun heq ↦ hvacant ((hlast txn htxn).occupied index content hslot hready heq)
        rw [hface.1, hface.2.2] at hvacant
        have hne' : content.sequence ≠ (first.slots.getD index {}).sequence :=
          fun heq ↦ hvacant ((hfirst txn hbefore).occupied index content hslot hready heq)
        rw [bne_iff_ne.mpr hne, bne_iff_ne.mpr hne']

end Engine

end MappedStore
