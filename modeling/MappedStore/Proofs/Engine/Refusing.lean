import MappedStore.Proofs.Engine.Codes
import MappedStore.Proofs.Engine.Confinement

/-!
# Uses that the engine refuses

The engine has checks of its own. It lets a transaction use only the slots that it knows
(`Roster.refusal_barred`), refuses writes through one that only reads (`Roster.refusal_reader`), and
refuses to store under keys that are too long (`Roster.refusal_long`). What it refuses in these ways
changes nothing that can be read; at most the transaction has read the table of the slot
(`Engine.Peeked`). It never minds how long a key is that is looked up.
-/

namespace MappedStore.Engine

variable {engine after : Engine} {handle slot : Nat} {txn : Txn} {content : TxnSlot} {key : Bytes}

/-- The code of a failure. -/
def failure {α : Type} : Except Code α → Option Code
  | .ok _ => none
  | .error code => some code

/-- The code with which an engine refuses a use, if it does. -/
def refusal (engine : Engine) (handle : Nat) : Use → Option Code
  | .get slot key => failure (engine.get handle slot key).1
  | .stat slot => failure (engine.statOf handle slot).1
  | .put slot key payload flags => failure (engine.put handle slot key payload flags).1
  | .reserve slot key data flags =>
      failure (engine.put handle slot key (.reserved data.length) flags).1
  | .del slot key item => failure (engine.del handle slot key item).1
  | .drop slot delete => failure (engine.drop handle slot delete).1
  | .openDatabase name flags => failure (engine.openDatabase handle name flags).1

/-- Whether a use writes to the database behind its slot. -/
def Use.writes : Use → Bool
  | .put .. | .reserve .. | .del .. | .drop .. => true
  | .get .. | .stat .. | .openDatabase .. => false

/-- The key under which a use stores a value, if it does so. -/
def Use.stored? : Use → Option Bytes
  | .put _ key _ _ | .reserve _ key _ _ => some key
  | _ => none

/-- An engine does not let a transaction use a slot. -/
def Bars (engine : Engine) (handle slot : Nat) : Prop :=
  ∀ txn, engine.txn? handle = some txn → txn.usable? slot = none

/-! ## Transactions that stay as they are -/

/-- A transaction that is put in its own place. -/
theorem Roster.replace_self (h : Roster engine) (htxn : engine.txn? handle = some txn) :
    engine.replace txn = engine := by
  have hsame : ∀ other ∈ engine.writers ++ engine.reading,
      (if other.handle = txn.handle then txn else other) = other := by
    intro other hother
    split
    · rename_i heq
      exact (h.eq_of_handle hother htxn (heq.trans (handle_of_txn? htxn))).symm
    · rfl
  have hmap : ∀ txns : List Txn, txns ⊆ engine.writers ++ engine.reading →
      (txns.map fun other ↦ if other.handle = txn.handle then txn else other) = txns :=
    fun txns hsub ↦ (List.map_congr_left fun other hother ↦ hsame other (hsub hother)).trans
      (List.map_id txns)
  unfold replace
  rw [hmap _ (List.subset_append_left ..), hmap _ (List.subset_append_right ..)]

/-- An operation that refuses and leaves the transaction as it is. -/
theorem Roster.onTxn_refused {α : Type} (h : Roster engine) {operation : Txn → Answer Txn α}
    {codes : Code → Prop} (hunknown : codes invalid)
    (hrefused : ∀ txn, engine.txn? handle = some txn →
      ∃ code, codes code ∧ operation txn = (.error code, txn)) :
    ∃ code, codes code ∧ engine.onTxn handle operation = (.error code, engine) := by
  unfold onTxn
  cases htxn : engine.txn? handle with
  | none => exact ⟨invalid, hunknown, rfl⟩
  | some txn =>
      obtain ⟨code, hcode, hoperation⟩ := hrefused txn htxn
      refine ⟨code, hcode, ?_⟩
      dsimp only
      rw [hoperation]
      exact Prod.ext rfl (h.replace_self htxn)

/-- A use that is refused with a code out of some, and leaves the engine as it is. -/
def Spurns (engine : Engine) (handle : Nat) (use : Use) (codes : Code → Prop) : Prop :=
  ∃ code, codes code ∧ engine.refusal handle use = some code ∧ engine.use handle use = engine

/-- A refused reservation leaves no buffer to be filled. -/
theorem spurns_reserve {codes : Code → Prop} {data : Bytes} {flags : WriteFlags}
    (h : ∃ code, codes code ∧
      engine.put handle slot key (.reserved data.length) flags = (.error code, engine)) :
    engine.Spurns handle (.reserve slot key data flags) codes := by
  obtain ⟨code, hcode, hput⟩ := h
  refine ⟨code, hcode, ?_, ?_⟩
  · rw [refusal, hput]
    rfl
  · rw [use, hput]

/-- A refused answer to a use. -/
theorem spurns_of_eq {codes : Code → Prop} {use : Use} {α : Type} {answer : Answer Engine α}
    (hrefusal : engine.refusal handle use = failure answer.1)
    (huse : engine.use handle use = answer.2)
    (h : ∃ code, codes code ∧ answer = (.error code, engine)) : engine.Spurns handle use codes := by
  obtain ⟨code, hcode, rfl⟩ := h
  exact ⟨code, hcode, hrefusal, huse⟩

/-! ## Slots that cannot be used -/

/-- Every use of a slot that a transaction cannot use is refused. -/
theorem Roster.refusal_barred (h : Roster engine) (hbars : engine.Bars handle slot) {use : Use}
    (hslot : use.slot? = some slot) : engine.Spurns handle use (· = invalid) := by
  cases use with
  | openDatabase => cases hslot
  | get _ key =>
      cases hslot
      refine spurns_of_eq rfl rfl (h.onTxn_refused rfl fun txn htxn ↦ ⟨invalid, rfl, ?_⟩)
      rw [Txn.get, hbars txn htxn]
      rfl
  | stat =>
      cases hslot
      refine spurns_of_eq rfl rfl (h.onTxn_refused rfl fun txn htxn ↦ ⟨invalid, rfl, ?_⟩)
      rw [Txn.stat, hbars txn htxn]
      rfl
  | put _ key payload flags =>
      cases hslot
      refine spurns_of_eq rfl rfl (h.onTxn_refused rfl fun txn htxn ↦ ⟨invalid, rfl, ?_⟩)
      rw [Txn.put, hbars txn htxn]
      rfl
  | reserve _ key data flags =>
      cases hslot
      refine spurns_reserve (h.onTxn_refused rfl fun txn htxn ↦ ⟨invalid, rfl, ?_⟩)
      rw [Txn.put, hbars txn htxn]
      rfl
  | del _ key item =>
      cases hslot
      refine spurns_of_eq rfl rfl (h.onTxn_refused rfl fun txn htxn ↦ ⟨invalid, rfl, ?_⟩)
      rw [Txn.del, hbars txn htxn]
      rfl
  | drop _ delete =>
      cases hslot
      have hdrop : engine.drop handle slot delete = (.error invalid, engine) := by
        unfold drop
        cases htxn : engine.txn? handle with
        | none => rfl
        | some txn =>
            dsimp only
            rw [hbars txn htxn]
            rfl
      exact spurns_of_eq rfl rfl ⟨invalid, rfl, hdrop⟩

/-! ## Writes through readers -/

/-- A value is not stored through a transaction that only reads. -/
theorem Txn.put_reader (hreader : txn.readOnly = true) (limit : Nat) (slots : SlotTable)
    (blocked : Bool) (slot : Nat) (key : Bytes) (payload : Payload) (flags : WriteFlags) :
    ∃ code, (code = invalid ∨ code = denied) ∧
      txn.put limit slots blocked slot key payload flags = (.error code, txn) := by
  have houtcome := txn.put_outcome limit slots blocked slot key payload flags
  generalize txn.put limit slots blocked slot key payload flags = answer at houtcome ⊢
  cases houtcome with
  | unusable | misflagged => exact ⟨invalid, .inl rfl, rfl⟩
  | reader => exact ⟨denied, .inr rfl, rfl⟩
  | blocked _ hwriter => cases hreader.symm.trans hwriter
  | missized h | unread h | seeded h | first h | unmet h | untouched h | stored h =>
      cases hreader.symm.trans h.writer

/-- Nothing is removed through a transaction that only reads. -/
theorem Txn.del_reader (hreader : txn.readOnly = true) (limit : Nat) (slots : SlotTable)
    (blocked : Bool) (slot : Nat) (key : Bytes) (item : Option Bytes) :
    ∃ code, (code = invalid ∨ code = denied) ∧
      txn.del limit slots blocked slot key item = (.error code, txn) := by
  have houtcome := txn.del_outcome limit slots blocked slot key item
  generalize txn.del limit slots blocked slot key item = answer at houtcome ⊢
  cases houtcome with
  | unusable => exact ⟨invalid, .inl rfl, rfl⟩
  | reader => exact ⟨denied, .inr rfl, rfl⟩
  | blocked _ hwriter => cases hreader.symm.trans hwriter
  | nameless h | unread h | missed h | unlisted h | untouched h | database h | removed h =>
      cases hreader.symm.trans h.writer

/-- No database is dropped through a transaction that only reads. -/
theorem drop_reader (htxn : engine.txn? handle = some txn) (hreader : txn.readOnly = true)
    (slot : Nat) (delete : Bool) :
    ∃ code, (code = invalid ∨ code = denied) ∧
      engine.drop handle slot delete = (.error code, engine) := by
  have houtcome := engine.drop_outcome handle slot delete
  generalize engine.drop handle slot delete = answer at houtcome ⊢
  have hreads : ∀ {found : Txn}, engine.txn? handle = some found → found.readOnly = true := by
    rintro found hfound
    rwa [← Option.some.inj (htxn.symm.trans hfound)]
  cases houtcome with
  | unknown | unusable => exact ⟨invalid, .inl rfl, rfl⟩
  | reader => exact ⟨denied, .inr rfl, rfl⟩
  | outdated hfound _ hwriter | blocked hfound _ hwriter => cases (hreads hfound).symm.trans hwriter
  | unread hfound h | dropped hfound h | cleared hfound h =>
      cases (hreads hfound).symm.trans h.writer

/-- A write through a transaction that only reads is refused. -/
theorem Roster.refusal_reader (h : Roster engine) (htxn : engine.txn? handle = some txn)
    (hreader : txn.readOnly = true) {use : Use} (hwrites : use.writes = true) :
    engine.Spurns handle use fun code ↦ code = invalid ∨ code = denied := by
  have hput : ∀ slot key payload flags, ∃ code, (code = invalid ∨ code = denied) ∧
      engine.put handle slot key payload flags = (.error code, engine) := by
    intro slot key payload flags
    refine h.onTxn_refused (.inl rfl) fun found hfound ↦ ?_
    obtain rfl : txn = found := Option.some.inj (htxn.symm.trans hfound)
    exact Txn.put_reader hreader ..
  cases use with
  | get | stat | openDatabase => cases hwrites
  | put slot key payload flags => exact spurns_of_eq rfl rfl (hput ..)
  | reserve slot key data flags => exact spurns_reserve (hput ..)
  | del slot key item =>
      refine spurns_of_eq rfl rfl (h.onTxn_refused (.inl rfl) fun found hfound ↦ ?_)
      obtain rfl : txn = found := Option.some.inj (htxn.symm.trans hfound)
      exact Txn.del_reader hreader ..
  | drop slot delete => exact spurns_of_eq rfl rfl (drop_reader htxn hreader ..)

/-! ## Long keys -/

/-- An engine in which a transaction has at most read the table of a slot. -/
inductive Peeked (engine : Engine) (handle : Nat) : Engine → Prop where
  | same : Peeked engine handle engine
  | read {before after : Txn} (htxn : engine.txn? handle = some before)
      (h : Txn.Peeked engine.slots before after) : Peeked engine handle (engine.replace after)

/-- An operation that at most reads the table of a slot. -/
theorem peeked_onTxn {α : Type} {operation : Txn → Answer Txn α}
    (h : ∀ txn, engine.txn? handle = some txn → Txn.Peeked engine.slots txn (operation txn).2) :
    Peeked engine handle (engine.onTxn handle operation).2 := by
  unfold onTxn
  cases htxn : engine.txn? handle with
  | none => exact .same
  | some txn => exact .read htxn (h txn htxn)

/-- An attempt to read the table of a slot. -/
theorem Txn.peeked_tryLoad {slots : SlotTable} (husable : txn.usable? slot = some content) :
    Txn.Peeked slots txn (txn.tryLoad slots slot content) := by
  unfold Txn.tryLoad
  split
  · rename_i loaded hload
    exact .loaded husable hload
  · exact .same

/-- A key that is too long to be stored under. -/
theorem Txn.put_long (hkey : maxKeySize < key.length) (txn : Txn) (limit : Nat) (slots : SlotTable)
    (blocked : Bool) (slot : Nat) (payload : Payload) (flags : WriteFlags) :
    (∃ code, (txn.put limit slots blocked slot key payload flags).1 = .error code) ∧
      Txn.Peeked slots txn (txn.put limit slots blocked slot key payload flags).2 := by
  have houtcome := txn.put_outcome limit slots blocked slot key payload flags
  generalize txn.put limit slots blocked slot key payload flags = answer at houtcome ⊢
  cases houtcome with
  | unusable | misflagged | reader | blocked => exact ⟨⟨_, rfl⟩, .same⟩
  | missized h => exact ⟨⟨_, rfl⟩, peeked_tryLoad h.usable⟩
  | unread _ hfits | seeded _ hfits | first _ hfits | unmet _ hfits | untouched _ hfits
  | stored _ hfits => exact absurd hfits (by omega)

/-- A value is not stored under a key that is too long. -/
theorem refusal_long {use : Use} (hstored : use.stored? = some key)
    (hkey : maxKeySize < key.length) :
    (∃ code, engine.refusal handle use = some code) ∧
      Peeked engine handle (engine.use handle use) := by
  have hput : ∀ slot payload flags,
      (∃ code, (engine.put handle slot key payload flags).1 = .error code) ∧
        Peeked engine handle (engine.put handle slot key payload flags).2 := by
    intro slot payload flags
    refine ⟨?_, peeked_onTxn fun txn _ ↦ (txn.put_long hkey ..).2⟩
    unfold put onTxn
    cases engine.txn? handle with
    | none => exact ⟨_, rfl⟩
    | some txn => exact (txn.put_long hkey ..).1
  cases use with
  | put slot _ payload flags =>
      cases hstored
      obtain ⟨⟨code, hcode⟩, hpeeked⟩ := hput slot payload flags
      refine ⟨⟨code, ?_⟩, hpeeked⟩
      rw [refusal, hcode]
      rfl
  | reserve slot _ data flags =>
      cases hstored
      obtain ⟨⟨code, hcode⟩, hpeeked⟩ := hput slot (.reserved data.length) flags
      obtain ⟨result, stored, hanswer⟩ : ∃ result stored,
          engine.put handle slot key (.reserved data.length) flags = (result, stored) := ⟨_, _, rfl⟩
      rw [hanswer] at hcode hpeeked
      obtain rfl : result = .error code := hcode
      refine ⟨⟨code, ?_⟩, ?_⟩
      · rw [refusal, hanswer]
        rfl
      · rw [use, hanswer]
        exact hpeeked
  | _ => cases hstored

/-- A look-up of a value at most reads the table of the slot. -/
theorem peeked_get (engine : Engine) (handle slot : Nat) (key : Bytes) :
    Peeked engine handle (engine.get handle slot key).2 :=
  peeked_onTxn fun txn _ ↦ txn.peeked_get ..

/-- The table that the transaction with a handle sees through a slot. -/
def Sees (engine : Engine) (handle slot : Nat) (table : Table) : Prop :=
  ∃ txn, engine.txn? handle = some txn ∧ txn.Sees engine.slots slot table

/-- The table that the transaction with a handle sees through a slot, if it sees one. -/
def table? (engine : Engine) (handle slot : Nat) : Option Table :=
  (engine.txn? handle).bind fun txn ↦ (txn.usable? slot).bind fun content ↦
    (txn.load engine.slots slot content).toOption.map (·.table)

/-- What a transaction sees can be computed. -/
theorem table?_eq_some {table : Table} :
    engine.table? handle slot = some table ↔ engine.Sees handle slot table := by
  have hloaded : ∀ (result : Except Condition TxnSlot),
      result.toOption.map (·.table) = some table ↔
        ∃ loaded, result = .ok loaded ∧ loaded.table = table := by
    intro result
    cases result <;> simp [Except.toOption]
  simp only [table?, Option.bind_eq_some_iff, hloaded, Sees, Txn.Sees, exists_and_left]

/-- What the transaction with a handle sees. -/
theorem table?_of_txn? {table : Table} (htxn : engine.txn? handle = some txn) :
    engine.table? handle slot = some table ↔ txn.Sees engine.slots slot table := by
  simp [table?_eq_some, Sees, htxn]

/-- A writer finds nothing to remove under a key that is not in the table that it sees. -/
theorem del_absent (htxn : engine.txn? handle = some txn) (hwriter : txn.readOnly = false)
    (hblocked : engine.isBlocked txn = false) (hkey : key ≠ []) {table : Table}
    (hsees : txn.Sees engine.slots slot table) (habsent : table.find? key = none)
    (item : Option Bytes) :
    (engine.del handle slot key item).1 = .error Condition.notFound.code ∧
      Peeked engine handle (engine.del handle slot key item).2 := by
  obtain ⟨content, loaded, husable, hload, rfl⟩ := hsees
  have hempty : key.isEmpty = false := by simpa using hkey
  have hdel : txn.del engine.pageLimit engine.slots (engine.isBlocked txn) slot key item
      = refuse .notFound (txn.setSlot slot loaded) := by
    unfold Txn.del
    rw [husable]
    simp only [hwriter, hblocked, hempty, hload, habsent, Bool.false_eq_true, if_false]
  unfold del onTxn
  rw [htxn]
  dsimp only
  rw [hdel]
  exact ⟨rfl, .read htxn (.loaded husable hload)⟩

/-! ## What reads leave -/

/-- Reading the table of a slot changes nothing that a transaction sees. -/
theorem Txn.Peeked.sees_iff {slots : SlotTable} {before after : Txn}
    (h : Txn.Peeked slots before after) (hmain : before.main.stale = false) {table : Table} :
    after.Sees slots slot table ↔ before.Sees slots slot table := by
  refine ⟨fun hsees ↦ ?_, fun hsees ↦ hsees.peeked h hmain⟩
  have hread := h.hasRead hmain
  obtain ⟨content, loaded, husable, hload, htable⟩ := hsees
  obtain ⟨hslot, hready, hidle⟩ := slot?_of_usable? husable
  cases h with
  | same => exact ⟨content, loaded, husable, hload, htable⟩
  | @loaded other kept read hkept hreadLoad =>
      obtain ⟨hother, hkeptReady, -⟩ := slot?_of_usable? hkept
      have hidle' : before.idle = false := hread.kin.idle.symm.trans hidle
      rw [Txn.slot?_setSlot hother read slot] at hslot
      split at hslot
      · -- the slot that was read shows the table that was read into it
        rename_i hsame
        subst hsame
        obtain rfl : read = content := Option.some.inj hslot
        rw [Txn.load_read (Txn.load_usable hreadLoad).2] at hload
        obtain rfl : read = loaded := Except.ok.inj hload
        exact ⟨kept, read, hkept, hreadLoad, htable⟩
      · refine ⟨content, loaded, ?_, (hread.load_eq ..).symm.trans hload, htable⟩
        simp [Txn.usable?, hidle', hslot, hready]

/-- An engine in which the table of a slot was read shows the same data. -/
theorem Peeked.same_data (h : Peeked engine handle after)
    (hmain : ∀ txn, engine.txn? handle = some txn → txn.main.stale = false) :
    after.image = engine.image ∧ after.slots = engine.slots ∧
      (∀ other, (after.txn? other).map Txn.snapshot = (engine.txn? other).map Txn.snapshot) ∧
      ∀ other slot table, after.Sees other slot table ↔ engine.Sees other slot table := by
  cases h with
  | same => exact ⟨rfl, rfl, fun _ ↦ rfl, fun _ _ _ ↦ .rfl⟩
  | @read before peeked htxn hpeeked =>
      have hstale := hmain before htxn
      have hread := hpeeked.hasRead hstale
      refine ⟨rfl, rfl, fun other ↦ ?_, fun other slot table ↦ ?_⟩
      · by_cases hother : other = peeked.handle
        · subst hother
          have hhandle := hpeeked.handle.trans (handle_of_txn? htxn)
          rw [hhandle, txn?_replace_self htxn hpeeked.handle, htxn, Option.map_some,
            Option.map_some, hread.snapshot]
        · rw [txn?_replace_of_ne hother]
      · unfold Sees
        by_cases hother : other = handle
        · subst hother
          rw [txn?_replace_self htxn hpeeked.handle, htxn]
          simp only [Option.some.injEq, exists_eq_left']
          exact hpeeked.sees_iff hstale
        · have hne : other ≠ peeked.handle := fun heq ↦
            hother (heq.trans (hpeeked.handle.trans (handle_of_txn? htxn)))
          rw [txn?_replace_of_ne hne]
          exact .rfl

end MappedStore.Engine
