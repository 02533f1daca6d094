import MappedStore.Proofs.Engine.Frame
import MappedStore.Engine.Lifecycle

/-!
# What transactions leave behind in an engine

Two things outlive a transaction that ends without a commit: the reader slot that its thread keeps,
and the tables that a root writer leaves in its slots, which the next root writer finds there until
it reads its own. `Engine.bare` is an engine without both. Operations commute with `Txn.bare`, so no
answer depends on the residue, but for questions about a slot whose table cannot be read and for
writes to it.
-/

namespace MappedStore.Engine

/-! ## Slots -/

namespace TxnSlot

/-- Whether the table of a slot is the transaction's own: read in it, or to be recorded by it. -/
def isOwn (content : TxnSlot) : Bool := content.dirty || (content.usable && !content.stale)

/-- A slot without a table that an earlier transaction left in its place, but for the flags. A
transaction that only reads finds none there. -/
def bare (readOnly : Bool) (content : TxnSlot) : TxnSlot :=
  if readOnly then content
  else
    { content with
      unread := false
      table := if content.isOwn then content.table else { flags := content.table.flags } }

/-- A bare slot has nothing more to lose. -/
@[simp]
theorem bare_bare (readOnly : Bool) (content : TxnSlot) :
    (content.bare readOnly).bare readOnly = content.bare readOnly := by
  cases readOnly with
  | true => rfl
  | false =>
      obtain ⟨usable, stale, unread, fresh, dirty, touched, sequence, table⟩ := content
      cases usable <;> cases stale <;> cases dirty <;> rfl

end TxnSlot

namespace Txn

variable {txn : Txn} {slots : SlotTable} {slot : Nat} {content : TxnSlot}

/-- A transaction without its reader slot and without tables that are not its own. -/
def bare (txn : Txn) : Txn :=
  { txn with reader := none, named := txn.named.map (TxnSlot.bare txn.readOnly) }

/-- A bare transaction has nothing more to lose. -/
@[simp]
theorem bare_bare (txn : Txn) : txn.bare.bare = txn.bare := by
  simp [Txn.bare, Function.comp_def]

/-- What a bare transaction holds of a slot. The main table is always the transaction's own. -/
def bareSlot (txn : Txn) (slot : Nat) (content : TxnSlot) : TxnSlot :=
  if slot = mainSlot then content else content.bare txn.readOnly

/-- A bare slot keeps its marks, and the flags of its table. -/
theorem bareSlot_marks (txn : Txn) (slot : Nat) (content : TxnSlot) :
    (txn.bareSlot slot content).usable = content.usable ∧
      (txn.bareSlot slot content).stale = content.stale ∧
      (txn.bareSlot slot content).dirty = content.dirty ∧
      (txn.bareSlot slot content).touched = content.touched ∧
      (txn.bareSlot slot content).sequence = content.sequence ∧
      (txn.bareSlot slot content).table.flags = content.table.flags := by
  unfold bareSlot TxnSlot.bare
  split
  · exact ⟨rfl, rfl, rfl, rfl, rfl, rfl⟩
  · split
    · exact ⟨rfl, rfl, rfl, rfl, rfl, rfl⟩
    · refine ⟨rfl, rfl, rfl, rfl, rfl, ?_⟩
      dsimp only
      split <;> rfl

/-- A bare slot keeps a table of the transaction's own. -/
theorem bareSlot_own (h : slot = mainSlot ∨ content.isOwn = true) : txn.bareSlot slot content =
    { content with unread := content.unread && (decide (slot = mainSlot) || txn.readOnly) } := by
  unfold bareSlot TxnSlot.bare
  by_cases hslot : slot = mainSlot
  · simp [hslot]
  · have hown := h.resolve_left hslot
    cases hreader : txn.readOnly <;> simp [hslot, hown]

/-- What a bare transaction holds of a slot. -/
theorem slot?_bare (txn : Txn) (slot : Nat) :
    txn.bare.slot? slot = (txn.slot? slot).map (txn.bareSlot slot) := by
  match slot with
  | 0 | 1 => rfl
  | index + 2 =>
      have hslot : txn.bareSlot (index + 2) = TxnSlot.bare txn.readOnly := by
        funext content
        simp [bareSlot, mainSlot]
      simp [slot?, bare, hslot]

/-- The slots of a bare transaction that can be used. -/
theorem usable?_bare (txn : Txn) (slot : Nat) :
    txn.bare.usable? slot = (txn.usable? slot).map (txn.bareSlot slot) := by
  unfold usable?
  rw [slot?_bare]
  cases txn.slot? slot with
  | none => cases hidle : txn.idle <;> simp [bare, hidle]
  | some content =>
      have husable := (txn.bareSlot_marks slot content).1
      cases hidle : txn.idle <;> cases hcontent : content.usable <;>
        simp [bare, hidle, hcontent, husable, Option.filter]

/-- Replacing what a transaction holds of a slot. -/
theorem bare_setSlot (txn : Txn) (slot : Nat) (content : TxnSlot) :
    (txn.setSlot slot content).bare = txn.bare.setSlot slot (txn.bareSlot slot content) := by
  match slot with
  | 0 | 1 => rfl
  | index + 2 => simp [setSlot, bare, bareSlot, mainSlot, List.map_set]

/-- Changing what a transaction holds of a slot, in a way that does not depend on a table that is
not its own. -/
theorem bare_modifySlot {change : TxnSlot → TxnSlot}
    (h : ∀ content, txn.slot? slot = some content →
      txn.bareSlot slot (change content) = change (txn.bareSlot slot content)) :
    (txn.modifySlot slot change).bare = txn.bare.modifySlot slot change := by
  unfold modifySlot
  rw [slot?_bare]
  cases hcontent : txn.slot? slot with
  | none => rfl
  | some content => exact (txn.bare_setSlot slot _).trans (by rw [h content hcontent]; rfl)

/-- Changing what a transaction holds of a slot, with a result that is the same when it is bare. -/
theorem bare_modifySlot_bare {change : TxnSlot → TxnSlot}
    (h : ∀ content, txn.bareSlot slot (change (txn.bareSlot slot content))
      = txn.bareSlot slot (change content)) :
    (txn.bare.modifySlot slot change).bare = (txn.modifySlot slot change).bare := by
  unfold modifySlot
  rw [slot?_bare]
  cases txn.slot? slot with
  | none => exact txn.bare_bare
  | some content =>
      have hbare := txn.bare.bare_setSlot slot (change (txn.bareSlot slot content))
      rw [bare_bare] at hbare
      refine hbare.trans (.trans ?_ (txn.bare_setSlot slot _).symm)
      exact congrArg (txn.bare.setSlot slot) (h content)

/-- Whether the table that a transaction holds of a slot is its own. -/
def Owns (txn : Txn) (slot : Nat) : Prop :=
  ∀ content, txn.slot? slot = some content → slot = mainSlot ∨ content.isOwn = true

/-- A slot that is prepared for a change has a table of the transaction's own. -/
theorem Prepared.owns (h : txn.Prepared slot) : txn.Owns slot := by
  intro content hcontent
  by_cases hslot : slot = mainSlot
  · exact .inl hslot
  · exact .inr (by simp [TxnSlot.isOwn, h hslot content hcontent])

/-- Page accounting is no concern of the named slots. -/
theorem Owns.of_uses {after : Txn} (h : txn.Owns slot) (huses : Uses slots 0 txn after) :
    after.Owns slot := by
  intro content hcontent
  match slot with
  | 0 => simp [slot?] at hcontent
  | 1 => exact .inl rfl
  | index + 2 => exact h content (by rwa [slot?, huses.named_eq] at hcontent)

/-- Changing a table of the transaction's own. -/
theorem bare_modifyTable (h : txn.Owns slot) (change : Table → Table) :
    (txn.modifyTable slot change).bare = txn.bare.modifyTable slot change := by
  refine bare_modifySlot fun content hcontent ↦ ?_
  have hown := h content hcontent
  have hown' : slot = mainSlot ∨
      TxnSlot.isOwn { content with table := change content.table } = true := hown
  rw [bareSlot_own hown, bareSlot_own hown']

/-! ## Pages -/

/-- Claiming pages. -/
theorem claim_bare (txn : Txn) (limit pages : Nat) :
    txn.bare.claim limit pages = (txn.claim limit pages).map id bare := by
  unfold claim
  split
  · rfl
  · rw [show txn.bare.nextPage = txn.nextPage from rfl]
    split <;> rfl

/-- Claiming a page for the first change of a tree. -/
theorem touchTree_bare (txn : Txn) (limit slot : Nat) :
    txn.bare.touchTree limit slot = (txn.touchTree limit slot).map id bare := by
  unfold touchTree
  rw [slot?_bare, claim_bare]
  cases hcontent : txn.slot? slot with
  | none => rfl
  | some content =>
      obtain ⟨-, -, -, htouched, -⟩ := txn.bareSlot_marks slot content
      simp only [Option.map_some, htouched]
      split
      · rfl
      · rcases txn.claim limit 1 with ⟨code | ⟨⟨⟩⟩, claimed⟩
        · rfl
        · refine Prod.ext rfl ?_
          have hmodify : (claimed.modifySlot slot ({ · with touched := true })).bare = _ :=
            bare_modifySlot fun content _ ↦ by
              unfold bareSlot TxnSlot.bare
              split
              · rfl
              · split <;> rfl
          exact congrArg (fun txn : Txn ↦ { txn with changed := true }) hmodify.symm

/-- Whether a slot is out of date does not depend on its table. -/
theorem isOutdated_bare (txn : Txn) (slots : SlotTable) (slot : Nat) (content : TxnSlot) :
    txn.bare.isOutdated slots slot (txn.bareSlot slot content)
      = txn.isOutdated slots slot content := by
  obtain ⟨-, -, -, -, hsequence, -⟩ := txn.bareSlot_marks slot content
  unfold isOutdated
  rw [hsequence]
  rfl

/-- Preparing a slot for a change, whose table is the transaction's own. -/
theorem touch_bare (h : txn.Owns slot) (limit : Nat) (slots : SlotTable) :
    txn.bare.touch limit slots slot = (txn.touch limit slots slot).map id bare := by
  unfold touch
  rw [slot?_bare, touchTree_bare, touchTree_bare]
  cases hcontent : txn.slot? slot with
  | none => rfl
  | some content =>
      obtain ⟨-, -, hdirty, -⟩ := txn.bareSlot_marks slot content
      simp only [Option.map_some, hdirty, isOutdated_bare]
      split
      · rfl
      cases houtdated : txn.isOutdated slots slot content with
      | true => rfl
      | false =>
          have huses := uses_touchMain slots 0 txn limit
          rcases htouch : txn.touchTree limit mainSlot with ⟨code | ⟨⟨⟩⟩, claimed⟩
          · rfl
          · rw [htouch] at huses
            have howns := h.of_uses huses
            have hmodify : (claimed.modifySlot slot ({ · with dirty := true })).bare = _ :=
              bare_modifySlot fun content hcontent ↦ by
                have hown := howns content hcontent
                have hown' : slot = mainSlot ∨
                    TxnSlot.isOwn { content with dirty := true } = true := .inr rfl
                rw [bareSlot_own hown, bareSlot_own hown']
            refine (congrArg (fun txn : Txn ↦ txn.touchTree limit slot) hmodify.symm).trans ?_
            exact touchTree_bare _ limit slot

/-- Claiming the pages for an entry. -/
theorem claimEntry_bare (txn : Txn) (limit : Nat) (key : Bytes) (size : Nat) :
    txn.bare.claimEntry limit key size = (txn.claimEntry limit key size).map id bare := by
  unfold claimEntry
  rw [show txn.bare.written = txn.written from rfl, claim_bare]
  split
  · rcases txn.claim limit (overflowRun size) with ⟨code | ⟨⟨⟩⟩, claimed⟩ <;> rfl
  · dsimp only
    rw [claim_bare]
    generalize txn.claim limit _ = claimed
    rcases claimed with ⟨code | ⟨⟨⟩⟩, claimed⟩ <;> rfl

/-! ## Reading -/

/-- A table that can be read is read in the same way into a bare transaction. -/
theorem load_bare (husable : txn.usable? slot = some content) :
    txn.bare.load slots slot (txn.bareSlot slot content)
      = (txn.load slots slot content).map (txn.bareSlot slot) := by
  obtain ⟨-, hstale, -, -, -, hflags⟩ := txn.bareSlot_marks slot content
  unfold load
  rw [isOutdated_bare, hstale, hflags]
  split
  · rfl
  split
  · rfl
  rw [show txn.bare.main = txn.main from rfl]
  split
  · rfl
  · rfl
  · rw [show txn.bare.snapshot = txn.snapshot from rfl]
    dsimp only
    split
    · rfl
    · have hown : TxnSlot.isOwn
          { content with
            stale := false
            unread := false
            table := txn.snapshot.table (slots.info slot).name } = true := by
        simp [TxnSlot.isOwn, (slot?_of_usable? husable).2.1]
      refine congrArg Except.ok ?_
      rw [bareSlot_own (.inr hown)]
      unfold bareSlot TxnSlot.bare
      split
      · rfl
      · split <;> rfl

/-- A table that could be read is the transaction's own. -/
theorem own_of_load {loaded : TxnSlot} (husable : txn.usable? slot = some content)
    (hload : txn.load slots slot content = .ok loaded) : loaded.isOwn = true := by
  obtain ⟨hfollows, hstale, -⟩ := load_follows hload
  have husable' := hfollows.usable.trans (slot?_of_usable? husable).2.1
  simp [TxnSlot.isOwn, hstale, husable']

/-- Keeping a table that could be read. -/
theorem owns_of_load {loaded : TxnSlot} (husable : txn.usable? slot = some content)
    (hload : txn.load slots slot content = .ok loaded) : (txn.setSlot slot loaded).Owns slot := by
  intro other hother
  obtain rfl : other = loaded := by
    have hmodified := txn.slot?_modifySlot slot fun _ ↦ loaded
    unfold modifySlot at hmodified
    rw [(slot?_of_usable? husable).1] at hmodified
    exact Option.some.inj (hother.symm.trans hmodified)
  exact .inr (own_of_load husable hload)

/-- Reading the table of a slot if that is possible. -/
theorem tryLoad_bare (husable : txn.usable? slot = some content) :
    txn.bare.tryLoad slots slot (txn.bareSlot slot content)
      = (txn.tryLoad slots slot content).bare := by
  unfold tryLoad
  rw [load_bare husable]
  cases txn.load slots slot content with
  | error condition => rfl
  | ok loaded => exact (txn.bare_setSlot slot loaded).symm

/-- The table of a slot that a writer can use can be read. -/
def Reads (txn : Txn) (slots : SlotTable) (slot : Nat) : Prop :=
  txn.readOnly = false → ∀ content, txn.usable? slot = some content →
    ∃ loaded, txn.load slots slot content = .ok loaded

/-- Reading the value of a key. -/
theorem get_bare (txn : Txn) (slots : SlotTable) (blocked : Bool) (slot : Nat) (key : Bytes) :
    txn.bare.get slots blocked slot key = (txn.get slots blocked slot key).map id bare := by
  unfold get
  rw [usable?_bare]
  cases husable : txn.usable? slot with
  | none => rfl
  | some content =>
      simp only [Option.map_some]
      rw [load_bare husable]
      split
      · rfl
      cases hload : txn.load slots slot content with
      | error condition => rfl
      | ok loaded =>
          simp only [Except.map, ← bare_setSlot]
          have htable : (txn.bareSlot slot loaded).table = loaded.table := by
            rw [bareSlot_own (.inr (own_of_load husable hload))]
          rw [htable]
          split
          · rfl
          · cases loaded.table.find? key <;> rfl

/-- The figures of the table behind a slot, if it can be read. -/
theorem stat_bare (h : txn.Reads slots slot) (blocked : Bool) :
    txn.bare.stat slots blocked slot = (txn.stat slots blocked slot).map id bare := by
  unfold stat
  rw [usable?_bare]
  cases husable : txn.usable? slot with
  | none => rfl
  | some content =>
      simp only [Option.map_some]
      rw [load_bare husable]
      split
      · rfl
      cases hload : txn.load slots slot content with
      | error condition =>
          cases hreader : txn.readOnly with
          | true => simp [Except.map, bareSlot, TxnSlot.bare, hreader, Prod.map]
          | false =>
              obtain ⟨loaded, hloaded⟩ := h hreader content husable
              rw [hload] at hloaded
              cases hloaded
      | ok loaded =>
          have htable : (txn.bareSlot slot loaded).table = loaded.table := by
            rw [bareSlot_own (.inr (own_of_load husable hload))]
          simp only [Except.map, ← bare_setSlot, htable]
          rfl

/-! ## Writing -/

/-- Giving a new key its value. -/
theorem insertNew_bare (h : txn.Owns slot) (limit : Nat) (key : Bytes) (payload : Payload) :
    txn.bare.insertNew limit slot key payload
      = (txn.insertNew limit slot key payload).map id bare := by
  unfold insertNew
  rw [claimEntry_bare]
  have huses := uses_claimEntry [] 0 txn limit key payload.size
  rcases hclaim : txn.claimEntry limit key payload.size with ⟨code | run, claimed⟩
  · rfl
  · rw [hclaim] at huses
    simp only [Prod.map, id, bare_modifyTable (h.of_uses huses)]

/-- Replacing the value of a key. -/
theorem overwrite_bare (h : txn.Owns slot) (limit : Nat) (key : Bytes) (payload : Payload)
    (items : List Bytes) (run : Run) :
    txn.bare.overwrite limit slot key payload items run
      = (txn.overwrite limit slot key payload items run).map id bare := by
  unfold overwrite
  rw [claimEntry_bare, show txn.bare.commit = txn.commit from rfl]
  dsimp only
  generalize (if run.pages = 0 then _ else _ : Bool) = inPlace
  cases inPlace with
  | true => simp only [if_true, Prod.map, id, bare_modifyTable h]
  | false =>
      have huses := uses_claimEntry [] 0 txn limit key payload.size
      rcases hclaim : txn.claimEntry limit key payload.size with ⟨code | run, claimed⟩
      · rfl
      · rw [hclaim] at huses
        simp only [Bool.false_eq_true, if_false, Prod.map, id, bare_modifyTable (h.of_uses huses)]

/-- Storing a value in a table of the transaction's own. -/
theorem store_bare (h : txn.Owns slot) (limit : Nat) (table : Table) (key : Bytes)
    (payload : Payload) (flags : WriteFlags) (found : Option Record) :
    txn.bare.store limit slot table key payload flags found
      = (txn.store limit slot table key payload flags found).map id bare := by
  unfold store
  rcases found with _ | ⟨items, run⟩ | _
  · exact insertNew_bare h limit key payload
  · dsimp only
    rw [overwrite_bare h, claimEntry_bare]
    split
    · split
      · rfl
      split
      · rfl
      have huses := uses_claimEntry [] 0 txn limit key payload.size
      rcases hclaim : txn.claimEntry limit key payload.size with ⟨code | run, claimed⟩
      · rfl
      · rw [hclaim] at huses
        simp only [Prod.map, id, bare_modifyTable (h.of_uses huses)]
    · rfl
  · rfl

/-- Giving an empty table its first page. -/
theorem newRoot_bare (h : txn.Owns slot) (limit : Nat) :
    txn.bare.newRoot limit slot = (txn.newRoot limit slot).map id bare := by
  unfold newRoot
  rw [claim_bare]
  have huses := uses_claim [] 0 txn limit 1
  rcases hclaim : txn.claim limit 1 with ⟨code | ⟨⟨⟩⟩, claimed⟩
  · rfl
  · rw [hclaim] at huses
    have howns := h.of_uses huses
    have hmodify : (claimed.modifySlot slot ({ · with dirty := true, touched := true })).bare = _ :=
      bare_modifySlot fun content hcontent ↦ by
        have hown := howns content hcontent
        have hown' : slot = mainSlot ∨
            TxnSlot.isOwn { content with dirty := true, touched := true } = true := .inr rfl
        rw [bareSlot_own hown, bareSlot_own hown']
    exact Prod.ext rfl (congrArg (fun txn : Txn ↦ { txn with changed := true }) hmodify.symm)

/-- Giving an empty table its first entry. -/
theorem insertFirst_bare (h : txn.Owns slot) (limit : Nat) (key : Bytes) (payload : Payload) :
    txn.bare.insertFirst limit slot key payload
      = (txn.insertFirst limit slot key payload).map id bare := by
  unfold insertFirst
  rw [newRoot_bare h]
  have hroot := (uses_newRoot [] txn limit slot).2
  rcases hnew : txn.newRoot limit slot with ⟨code | ⟨⟨⟩⟩, rooted⟩
  · rfl
  · rw [hnew] at hroot
    exact insertNew_bare (hroot rfl).owns limit key payload

/-- Storing a value through a slot whose table can be read. -/
theorem put_bare (h : txn.Reads slots slot) (limit : Nat) (blocked : Bool) (key : Bytes)
    (payload : Payload) (flags : WriteFlags) :
    txn.bare.put limit slots blocked slot key payload flags
      = (txn.put limit slots blocked slot key payload flags).map id bare := by
  unfold put
  rw [usable?_bare]
  cases husable : txn.usable? slot with
  | none => rfl
  | some content =>
      obtain ⟨-, -, -, -, -, hflags⟩ := txn.bareSlot_marks slot content
      have hmax : maxItemSize (txn.bareSlot slot content).table = maxItemSize content.table := by
        unfold maxItemSize Table.hasDuplicates
        rw [hflags]
      simp only [Option.map_some, hmax]
      rw [load_bare husable, tryLoad_bare husable]
      split
      · rfl
      rw [show txn.bare.readOnly = txn.readOnly from rfl]
      cases hwriter : txn.readOnly with
      | true => rfl
      | false =>
          obtain ⟨loaded, hload⟩ := h hwriter content husable
          have howns := owns_of_load husable hload
          have htable : (txn.bareSlot slot loaded).table = loaded.table := by
            rw [bareSlot_own (.inr (own_of_load husable hload))]
          simp only [hload, Except.map, ← bare_setSlot, htable, insertFirst_bare howns,
            touch_bare howns]
          split
          · rename_i h
            cases h
          split
          · rfl
          split
          · rfl
          split
          · rfl
          cases meet loaded.table key flags with
          | error condition => rfl
          | ok found =>
              have hprepared := (uses_touch (txn.setSlot slot loaded) limit slots slot).2
              rcases htouch : (txn.setSlot slot loaded).touch limit slots slot with
                ⟨code | ⟨⟨⟩⟩, touched⟩
              · rfl
              · rw [htouch] at hprepared
                exact store_bare (hprepared rfl).owns limit loaded.table key payload flags found

/-- A change of the table behind a slot that leaves its flags. They are all that shows of a table
that is not the transaction's own. -/
theorem modifyTable_bare (txn : Txn) (slot : Nat) {change : Table → Table}
    (hflags : ∀ table, (change table).flags = table.flags) :
    (txn.bare.modifyTable slot change).bare = (txn.modifyTable slot change).bare := by
  refine bare_modifySlot_bare fun content ↦ ?_
  by_cases hslot : slot = mainSlot
  · simp [bareSlot, hslot]
  cases hreader : txn.readOnly with
  | true => simp [bareSlot, TxnSlot.bare, hreader]
  | false =>
      obtain ⟨usable, stale, unread, fresh, dirty, touched, sequence, table⟩ := content
      cases usable <;> cases stale <;> cases dirty <;>
        simp [bareSlot, TxnSlot.bare, TxnSlot.isOwn, hslot, hreader, hflags]

/-- Filling a reserved buffer. -/
theorem fill_bare (txn : Txn) (slot : Nat) (key data : Bytes) :
    (txn.bare.fill slot key data).bare = (txn.fill slot key data).bare := by
  refine modifyTable_bare txn slot fun table ↦ ?_
  split
  · split <;> rfl
  · rfl

/-- Removing values through a slot. -/
theorem del_bare (txn : Txn) (limit : Nat) (slots : SlotTable) (blocked : Bool) (slot : Nat)
    (key : Bytes) (item : Option Bytes) :
    txn.bare.del limit slots blocked slot key item
      = (txn.del limit slots blocked slot key item).map id bare := by
  unfold del
  rw [usable?_bare]
  cases husable : txn.usable? slot with
  | none => rfl
  | some content =>
      simp only [Option.map_some]
      rw [load_bare husable, tryLoad_bare husable, show txn.bare.readOnly = txn.readOnly from rfl]
      split
      · rfl
      split
      · rfl
      split
      · rfl
      cases hload : txn.load slots slot content with
      | error condition => rfl
      | ok loaded =>
          have howns := owns_of_load husable hload
          have htable : (txn.bareSlot slot loaded).table = loaded.table := by
            rw [bareSlot_own (.inr (own_of_load husable hload))]
          simp only [Except.map, ← bare_setSlot, htable, touch_bare howns]
          have hprepared := (uses_touch (txn.setSlot slot loaded) limit slots slot).2
          generalize (if loaded.table.hasDuplicates = true then item else none) = item
          rcases loaded.table.find? key with _ | ⟨items, run⟩ | _
          · rfl
          · dsimp only
            split
            · rfl
            rcases htouch : (txn.setSlot slot loaded).touch limit slots slot with
              ⟨code | ⟨⟨⟩⟩, touched⟩
            · rfl
            · rw [htouch] at hprepared
              simp only [Prod.map, id, bare_modifyTable (hprepared rfl).owns]
          · rcases (txn.setSlot slot loaded).touch limit slots slot with
              ⟨code | ⟨⟨⟩⟩, touched⟩ <;> rfl

end Txn

end MappedStore.Engine
