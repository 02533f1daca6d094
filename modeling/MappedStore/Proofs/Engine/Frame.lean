import Mathlib.Tactic.Common
import MappedStore.Proofs.Engine.Answers

/-!
# What a use of one slot leaves alone

`Txn.Uses slots slot before after` says that `after` differs from `before` at most by what a use of
one slot may change: page accounting, and what the transaction holds of that slot. Reads and
writes satisfy it (`Txn.uses_get`, `Txn.uses_stat`, `Txn.uses_put`, `Txn.uses_del`). A table that
the transaction has not changed is the one that it held before, or the one that the main table
records for the occupant of the slot (`TxnSlot.Follows.clean`).
-/

namespace MappedStore.Engine

/-- What a transaction holds of a slot, after some uses of it. `record` is the table that the main
table records for the slot, if it records one. -/
structure TxnSlot.Follows (record : Option Table) (before after : TxnSlot) : Prop where
  usable : after.usable = before.usable
  fresh : after.fresh = before.fresh
  sequence : after.sequence = before.sequence
  dirty : before.dirty = true → after.dirty = true
  clean : after.dirty = false →
    after.stale = before.stale ∧ after.table = before.table ∨
      before.stale = true ∧ after.stale = false ∧ record = some after.table

namespace TxnSlot.Follows

variable {record : Option Table} {before after last : TxnSlot}

/-- A slot follows itself. -/
theorem refl (content : TxnSlot) : Follows record content content :=
  ⟨rfl, rfl, rfl, id, fun _ ↦ .inl ⟨rfl, rfl⟩⟩

/-- Uses in turn are uses. A table is read only once, so the first reading is the one that
counts. -/
theorem trans (h : Follows record before after) (h' : Follows record after last) :
    Follows record before last where
  usable := h'.usable.trans h.usable
  fresh := h'.fresh.trans h.fresh
  sequence := h'.sequence.trans h.sequence
  dirty := h'.dirty ∘ h.dirty
  clean hclean := by
    have hmiddle : after.dirty = false := by
      cases hdirty : after.dirty with
      | false => rfl
      | true => simpa [hclean] using h'.dirty hdirty
    rcases h'.clean hclean with ⟨hstale, htable⟩ | ⟨hstale, hlast, hrecord⟩
    · rw [hstale, htable]
      exact h.clean hmiddle
    · rcases h.clean hmiddle with ⟨hs, _⟩ | ⟨_, hs, _⟩
      · exact .inr ⟨hs ▸ hstale, hlast, hrecord⟩
      · simp [hs] at hstale

/-- A slot that is left dirty follows whatever it was. -/
theorem of_dirty (usable : after.usable = before.usable) (fresh : after.fresh = before.fresh)
    (sequence : after.sequence = before.sequence) (hdirty : after.dirty = true) :
    Follows record before after :=
  ⟨usable, fresh, sequence, fun _ ↦ hdirty, fun h ↦ by simp [hdirty] at h⟩

end TxnSlot.Follows

/-- What a transaction holds of the main slot, after some uses. The table stays read, and records a
named database only if it did before. -/
def TxnSlot.AddsNoDatabase (before after : TxnSlot) : Prop :=
  before.stale = false → after.stale = false ∧
    ∀ name, after.table.find? name = some .database → before.table.find? name = some .database

/-- No use adds no database. -/
theorem TxnSlot.AddsNoDatabase.refl (content : TxnSlot) : AddsNoDatabase content content :=
  fun h ↦ ⟨h, fun _ ↦ id⟩

/-- Uses in turn that add no database. -/
theorem TxnSlot.AddsNoDatabase.trans {before after last : TxnSlot} (h : AddsNoDatabase before after)
    (h' : AddsNoDatabase after last) : AddsNoDatabase before last := by
  intro hstale
  obtain ⟨hafter, hrecords⟩ := h hstale
  obtain ⟨hlast, hrecords'⟩ := h' hafter
  exact ⟨hlast, fun name hname ↦ hrecords name (hrecords' name hname)⟩

/-- A table with one more record of values records no other named databases. -/
theorem Table.database_of_insert {table : Table} {key name : Bytes} {items : List Bytes} {run : Run}
    (h : (table.insert key (.values items run)).find? name = some .database) :
    table.find? name = some .database := by
  by_cases hname : name = key
  · subst hname
    rw [Table.find?, Table.insert, Entries.find?_insert_self] at h
    simp at h
  · rwa [Table.find?, Table.insert, Entries.find?_insert_of_ne _ _ _ hname] at h

/-- A table with one record less records no other named databases. -/
theorem Table.database_of_erase {table : Table} {key name : Bytes}
    (h : (table.erase key).find? name = some .database) : table.find? name = some .database := by
  by_cases hname : name = key
  · subst hname
    rw [Table.find?, Table.erase, Entries.find?_erase_self] at h
    simp at h
  · rwa [Table.find?, Table.erase, Entries.find?_erase_of_ne _ hname] at h

namespace Txn

/-- The table that the main table records for the occupant of a slot. -/
def recorded (txn : Txn) (slots : SlotTable) (slot : Nat) : Option Table :=
  match txn.main.table.find? (slots.info slot).name with
  | some .database => some (txn.snapshot.table (slots.info slot).name)
  | _ => none

/-- A slot that could be read holds the table recorded for it, or the one that it held before. -/
theorem load_follows {txn : Txn} {slots : SlotTable} {slot : Nat} {content loaded : TxnSlot}
    (h : txn.load slots slot content = .ok loaded) :
    TxnSlot.Follows (txn.recorded slots slot) content loaded ∧ loaded.stale = false ∧
      (content.stale = false → loaded = content) := by
  unfold load at h
  split at h
  · rename_i hstale
    obtain rfl : content = loaded := by simpa using h
    exact ⟨.refl _, by simpa using hstale, fun _ ↦ rfl⟩
  · rename_i hstale
    split at h
    · simp at h
    · split at h
      · simp at h
      · simp at h
      · rename_i hfind
        dsimp only at h
        split at h
        · simp at h
        · obtain rfl := Except.ok.inj h
          exact ⟨⟨rfl, rfl, rfl, id, fun _ ↦ .inr ⟨by simpa using hstale, rfl,
            by simp [recorded, hfind]⟩⟩, rfl, fun hread ↦ by simp [hread] at hstale⟩

/-- What stays the same about a transaction as long as it lives. -/
structure Kin (before after : Txn) : Prop where
  handle : after.handle = before.handle
  readOnly : after.readOnly = before.readOnly
  idle : after.idle = before.idle
  commit : after.commit = before.commit
  reader : after.reader = before.reader

/-- Nothing about a transaction has changed. -/
theorem Kin.refl (txn : Txn) : Kin txn txn := ⟨rfl, rfl, rfl, rfl, rfl⟩

/-- A transaction that is the same after two steps. -/
theorem Kin.trans {first middle last : Txn} (h : Kin first middle) (h' : Kin middle last) :
    Kin first last :=
  ⟨h'.handle.trans h.handle, h'.readOnly.trans h.readOnly, h'.idle.trans h.idle,
    h'.commit.trans h.commit, h'.reader.trans h.reader⟩

/-- What a use of one slot may change about a transaction. -/
structure Uses (slots : SlotTable) (slot : Nat) (before after : Txn) : Prop where
  kin : Kin before after
  tables : after.tables = before.tables
  mainTable : slot ≠ mainSlot → after.main.table = before.main.table
  mainUsable : after.main.usable = before.main.usable
  mainSequence : after.main.sequence = before.main.sequence
  main : TxnSlot.AddsNoDatabase before.main after.main
  length : after.named.length = before.named.length
  other : ∀ index, index + firstSlot ≠ slot → after.named[index]? = before.named[index]?
  here : ∀ index, index + firstSlot = slot → ∀ content, before.named[index]? = some content →
    ∃ content', after.named[index]? = some content' ∧
      TxnSlot.Follows (before.recorded slots slot) content content'

variable {slots : SlotTable} {slot : Nat} {txn before after last : Txn}

/-- A transaction after no use at all. -/
theorem Uses.refl (txn : Txn) : Uses slots slot txn txn where
  kin := .refl txn
  tables := rfl
  mainTable _ := rfl
  mainUsable := rfl
  mainSequence := rfl
  main := .refl _
  length := rfl
  other _ _ := rfl
  here _ _ content h := ⟨content, h, .refl content⟩

/-- The record of a named slot is not touched by uses of it. -/
theorem Uses.recorded_eq (h : Uses slots slot before after) (hslot : slot ≠ mainSlot) :
    after.recorded slots slot = before.recorded slots slot := by
  simp [recorded, snapshot, h.mainTable hslot, h.tables]

/-- Uses of one slot in turn. -/
theorem Uses.trans (h : Uses slots slot before after) (h' : Uses slots slot after last) :
    Uses slots slot before last where
  kin := h.kin.trans h'.kin
  tables := h'.tables.trans h.tables
  mainTable hslot := (h'.mainTable hslot).trans (h.mainTable hslot)
  mainUsable := h'.mainUsable.trans h.mainUsable
  mainSequence := h'.mainSequence.trans h.mainSequence
  main := h.main.trans h'.main
  length := h'.length.trans h.length
  other index hne := (h'.other index hne).trans (h.other index hne)
  here index hslot content hcontent := by
    obtain ⟨middle, hmiddle, hfollows⟩ := h.here index hslot content hcontent
    obtain ⟨final, hfinal, hfollows'⟩ := h'.here index hslot middle hmiddle
    have hnamed : slot ≠ mainSlot := by
      subst hslot
      simp [firstSlot, mainSlot]
    rw [h.recorded_eq hnamed] at hfollows'
    exact ⟨final, hfinal, hfollows.trans hfollows'⟩

/-- A slot that a transaction holds is held still after a use of it. -/
theorem Uses.slot?_ne_none (h : Uses slots slot before after) (hslot : before.slot? slot ≠ none) :
    after.slot? slot ≠ none := by
  match slot with
  | 0 => exact hslot
  | 1 => simp [slot?]
  | index + 2 =>
      obtain ⟨content, hcontent⟩ := Option.ne_none_iff_exists'.mp hslot
      obtain ⟨content', hafter, -⟩ := h.here index rfl content hcontent
      exact Option.ne_none_iff_exists'.mpr ⟨content', hafter⟩

/-- Page accounting and the marks on a transaction are no concern of its slots. -/
theorem uses_of_eq (kin : Kin before after) (tables : after.tables = before.tables)
    (hmain : after.main = before.main) (named : after.named = before.named) :
    Uses slots slot before after where
  kin := kin
  tables := tables
  mainTable _ := by rw [hmain]
  mainUsable := by rw [hmain]
  mainSequence := by rw [hmain]
  main := hmain ▸ .refl _
  length := by rw [named]
  other _ _ := by rw [named]
  here _ _ content h := ⟨content, by rw [named]; exact h, .refl content⟩

/-- Replacing what a transaction holds of a slot by something that follows it. -/
theorem uses_setSlot {content content' : TxnSlot} (hslot : txn.slot? slot = some content)
    (h : TxnSlot.Follows (txn.recorded slots slot) content content')
    (hmain : slot = mainSlot → TxnSlot.AddsNoDatabase content content') :
    Uses slots slot txn (txn.setSlot slot content') := by
  match slot with
  | 0 => simp [slot?] at hslot
  | 1 =>
      obtain rfl : txn.main = content := by simpa [slot?] using hslot
      exact ⟨⟨rfl, rfl, rfl, rfl, rfl⟩, rfl, fun h ↦ absurd rfl h, h.usable, h.sequence, hmain rfl, rfl,
        fun _ _ ↦ rfl, fun _ hindex ↦ by simp [firstSlot] at hindex⟩
  | position + 2 =>
      have hcontent : txn.named[position]? = some content := hslot
      refine ⟨⟨rfl, rfl, rfl, rfl, rfl⟩, rfl, fun _ ↦ rfl, rfl, rfl, .refl _, by simp [setSlot], ?_, ?_⟩
      · intro index hne
        have hne' : position ≠ index := fun h ↦ hne (by simp [h, firstSlot])
        simp [setSlot, hne']
      · intro index hindex other hother
        obtain rfl : index = position := by simpa [firstSlot] using hindex
        obtain rfl : content = other := by simpa [hcontent] using hother
        have hlength : index < txn.named.length := (List.getElem?_eq_some_iff.mp hcontent).1
        exact ⟨content', by simp [setSlot, hlength], h⟩

/-- Changing what a transaction holds of a slot, if it holds anything. -/
theorem uses_modifySlot {change : TxnSlot → TxnSlot}
    (h : ∀ content, txn.slot? slot = some content →
      TxnSlot.Follows (txn.recorded slots slot) content (change content))
    (hmain : slot = mainSlot → ∀ content, TxnSlot.AddsNoDatabase content (change content)) :
    Uses slots slot txn (txn.modifySlot slot change) := by
  unfold modifySlot
  cases hcontent : txn.slot? slot with
  | none => exact .refl txn
  | some content => exact uses_setSlot hcontent (h content hcontent) fun hs ↦ hmain hs content

/-! ## Preparation -/

/-- A slot that has been prepared for a change: its table will be recorded at the commit. -/
def Prepared (txn : Txn) (slot : Nat) : Prop :=
  slot ≠ mainSlot → ∀ content, txn.slot? slot = some content → content.dirty = true

/-- A slot stays prepared while it is used. -/
theorem Prepared.of_uses (h : Uses slots slot before after) (hbefore : before.Prepared slot) :
    after.Prepared slot := by
  intro hslot content hcontent
  match slot with
  | 0 => simp [slot?] at hcontent
  | 1 => exact absurd rfl hslot
  | index + 2 =>
      have hlength : index < before.named.length := by
        rw [← h.length]
        exact (List.getElem?_eq_some_iff.mp hcontent).1
      obtain ⟨content', hafter, hfollows⟩ :=
        h.here index rfl before.named[index] (List.getElem?_eq_getElem hlength)
      obtain rfl : content' = content := by
        have : some content' = some content := hafter.symm.trans hcontent
        simpa using this
      exact hfollows.dirty (hbefore hslot _ (List.getElem?_eq_getElem hlength))

/-- What a transaction holds of a slot that has been changed. -/
theorem slot?_modifySlot (txn : Txn) (slot : Nat) (change : TxnSlot → TxnSlot) :
    (txn.modifySlot slot change).slot? slot = (txn.slot? slot).map change := by
  unfold modifySlot
  cases hcontent : txn.slot? slot with
  | none => simpa using hcontent
  | some content =>
      match slot with
      | 0 => simp [slot?] at hcontent
      | 1 => rfl
      | index + 2 =>
          have hlength : index < txn.named.length := (List.getElem?_eq_some_iff.mp hcontent).1
          simp [slot?, setSlot, hlength]

/-- A slot is prepared by marking it as dirty. -/
theorem prepared_modifySlot (txn : Txn) (slot : Nat) {change : TxnSlot → TxnSlot}
    (h : ∀ content, (change content).dirty = true) :
    (txn.modifySlot slot change).Prepared slot := by
  intro _ content hcontent
  rw [slot?_modifySlot] at hcontent
  obtain ⟨before, _, rfl⟩ := Option.map_eq_some_iff.mp hcontent
  exact h before

/-- Changing the table behind a prepared slot is a use of it. -/
theorem uses_modifyTable (h : txn.Prepared slot) {change : Table → Table}
    (hchange : ∀ table name, (change table).find? name = some .database →
      table.find? name = some .database) :
    Uses slots slot txn (txn.modifyTable slot change) := by
  by_cases hslot : slot = mainSlot
  · subst hslot
    exact ⟨⟨rfl, rfl, rfl, rfl, rfl⟩, rfl, fun h ↦ absurd rfl h, rfl, rfl,
      fun hstale ↦ ⟨hstale, hchange _⟩, rfl, fun _ _ ↦ rfl,
      fun _ hindex ↦ by simp [firstSlot, mainSlot] at hindex⟩
  · exact uses_modifySlot (fun content hcontent ↦
      .of_dirty rfl rfl rfl (h hslot content hcontent)) fun hs ↦ absurd hs hslot

/-- Claiming pages. -/
theorem uses_claim (slots : SlotTable) (slot : Nat) (txn : Txn) (limit pages : Nat) :
    Uses slots slot txn (txn.claim limit pages).2 := by
  unfold claim
  split
  · exact .refl txn
  · split <;> exact uses_of_eq ⟨rfl, rfl, rfl, rfl, rfl⟩ rfl rfl rfl

/-- Marking the page of the main tree as claimed changes nothing that its slot holds besides. -/
theorem uses_touchMain (slots : SlotTable) (slot : Nat) (txn : Txn) (limit : Nat) :
    Uses slots slot txn (txn.touchTree limit mainSlot).2 := by
  unfold touchTree
  rw [show txn.slot? mainSlot = some txn.main from rfl]
  dsimp only
  split
  · exact uses_of_eq ⟨rfl, rfl, rfl, rfl, rfl⟩ rfl rfl rfl
  · have hclaim := uses_claim slots slot txn limit 1
    split
    · rename_i h
      simpa only [h] using hclaim
    · rename_i claimed h
      rw [h] at hclaim
      exact hclaim.trans ⟨⟨rfl, rfl, rfl, rfl, rfl⟩, rfl, fun _ ↦ rfl, rfl, rfl, .refl _, rfl,
        fun _ _ ↦ rfl, fun _ _ content h ↦ ⟨content, h, .refl content⟩⟩

/-- Claiming a page for the first change of a prepared tree. -/
theorem uses_touchTree (slots : SlotTable) (h : txn.Prepared slot) (limit : Nat) :
    Uses slots slot txn (txn.touchTree limit slot).2 := by
  by_cases hslot : slot = mainSlot
  · subst hslot
    exact uses_touchMain slots mainSlot txn limit
  · unfold touchTree
    split
    · exact .refl txn
    · split
      · exact uses_of_eq ⟨rfl, rfl, rfl, rfl, rfl⟩ rfl rfl rfl
      · have hclaim := uses_claim slots slot txn limit 1
        split
        · rename_i h
          simpa only [h] using hclaim
        · rename_i claimed hc
          simp only [hc] at hclaim
          have hprepared := Prepared.of_uses hclaim h
          have hmark : Uses slots slot claimed
              (claimed.modifySlot slot ({ · with touched := true })) :=
            uses_modifySlot (fun content hcontent ↦
              .of_dirty rfl rfl rfl (hprepared hslot content hcontent)) fun hs ↦ absurd hs hslot
          exact (hclaim.trans hmark).trans (uses_of_eq ⟨rfl, rfl, rfl, rfl, rfl⟩ rfl rfl rfl)

/-- Preparing a slot for a change. -/
theorem uses_touch (txn : Txn) (limit : Nat) (slots : SlotTable) (slot : Nat) :
    Uses slots slot txn (txn.touch limit slots slot).2 ∧
      ((txn.touch limit slots slot).1 = .ok () → (txn.touch limit slots slot).2.Prepared slot) := by
  unfold touch
  cases hcontent : txn.slot? slot with
  | none => exact ⟨.refl txn, fun _ _ content h ↦ by simp [hcontent] at h⟩
  | some content =>
      dsimp only
      split
      · rename_i hready
        have hprepared : txn.Prepared slot := by
          intro hslot other hother
          rw [hcontent] at hother
          simpa [hslot, ← Option.some.inj hother] using hready
        exact ⟨uses_touchTree slots hprepared limit, fun _ ↦
          Prepared.of_uses (uses_touchTree slots hprepared limit) hprepared⟩
      · rename_i hready
        split
        · exact ⟨.refl txn, by simp [refuse]⟩
        · have hmain := uses_touchMain slots slot txn limit
          split
          · rename_i h
            rw [h] at hmain
            exact ⟨hmain, by simp⟩
          · rename_i touched h
            rw [h] at hmain
            have hslot : slot ≠ mainSlot := fun hs ↦ by simp [hs] at hready
            have hdirty : Uses slots slot touched (touched.modifySlot slot ({ · with dirty := true })) :=
              uses_modifySlot (fun _ _ ↦ .of_dirty rfl rfl rfl rfl) fun hs ↦ absurd hs hslot
            have hprepared : (touched.modifySlot slot ({ · with dirty := true })).Prepared slot :=
              prepared_modifySlot touched slot fun _ ↦ rfl
            exact ⟨(hmain.trans hdirty).trans (uses_touchTree slots hprepared limit), fun _ ↦
              Prepared.of_uses (uses_touchTree slots hprepared limit) hprepared⟩

/-- Giving an empty table its first page. -/
theorem uses_newRoot (slots : SlotTable) (txn : Txn) (limit slot : Nat) :
    Uses slots slot txn (txn.newRoot limit slot).2 ∧
      ((txn.newRoot limit slot).1 = .ok () → (txn.newRoot limit slot).2.Prepared slot) := by
  unfold newRoot
  have hclaim := uses_claim slots slot txn limit 1
  split
  · rename_i h
    rw [h] at hclaim
    exact ⟨hclaim, by simp⟩
  · rename_i claimed h
    rw [h] at hclaim
    have hmark : Uses slots slot claimed
        (claimed.modifySlot slot ({ · with dirty := true, touched := true })) :=
      uses_modifySlot (fun _ _ ↦ .of_dirty rfl rfl rfl rfl) fun _ content ↦ .refl content
    have hprepared :
        (claimed.modifySlot slot ({ · with dirty := true, touched := true })).Prepared slot :=
      prepared_modifySlot claimed slot fun _ ↦ rfl
    have hlast : Uses slots slot
        (claimed.modifySlot slot ({ · with dirty := true, touched := true }))
        { claimed.modifySlot slot ({ · with dirty := true, touched := true }) with
          changed := true } := uses_of_eq ⟨rfl, rfl, rfl, rfl, rfl⟩ rfl rfl rfl
    exact ⟨(hclaim.trans hmark).trans hlast,
      fun _ ↦ Prepared.of_uses hlast hprepared⟩

/-- Preparing the main slot, whose table stays as it is. -/
theorem uses_prepareMain (slots : SlotTable) (slot : Nat) (txn : Txn) (limit : Nat)
    (others : SlotTable) :
    Uses slots slot txn (txn.touch limit others mainSlot).2 ∧
      Uses slots slot txn (txn.newRoot limit mainSlot).2 := by
  refine ⟨uses_touchMain slots slot txn limit, ?_⟩
  unfold newRoot
  have hclaim := uses_claim slots slot txn limit 1
  split <;> rename_i hc <;> simp only [hc] at hclaim
  · exact hclaim
  · exact hclaim.trans ⟨⟨rfl, rfl, rfl, rfl, rfl⟩, rfl, fun _ ↦ rfl, rfl, rfl, .refl _, rfl,
      fun _ _ ↦ rfl, fun _ _ content h ↦ ⟨content, h, .refl content⟩⟩

/-- A use of slot 0, which does not exist, leaves all named slots. -/
theorem Uses.named_eq (h : Uses slots 0 before after) : after.named = before.named :=
  List.ext_getElem? fun index ↦ h.other index (by simp [firstSlot])

/-! ## Storing -/

/-- Claiming the pages for an entry. -/
theorem uses_claimEntry (slots : SlotTable) (slot : Nat) (txn : Txn) (limit : Nat) (key : Bytes)
    (size : Nat) : Uses slots slot txn (txn.claimEntry limit key size).2 := by
  unfold claimEntry
  split
  · have hclaim := uses_claim slots slot txn limit (overflowRun size)
    split <;> rename_i h <;> simpa only [h] using hclaim
  · dsimp only
    generalize (txn.written + 8 + key.length + size) / (pageSize / 2) - _ = pages
    have hclaim := uses_claim slots slot txn limit pages
    split <;> rename_i hc <;> simp only [hc] at hclaim
    · exact hclaim
    · exact hclaim.trans (uses_of_eq ⟨rfl, rfl, rfl, rfl, rfl⟩ rfl rfl rfl)

/-- Giving a new key of a prepared slot its value. -/
theorem uses_insertNew (slots : SlotTable) (h : txn.Prepared slot) (limit : Nat) (key : Bytes)
    (payload : Payload) : Uses slots slot txn (txn.insertNew limit slot key payload).2 := by
  unfold insertNew
  have hclaim := uses_claimEntry slots slot txn limit key payload.size
  split <;> rename_i hc <;> simp only [hc] at hclaim
  · exact hclaim
  · dsimp only
    exact hclaim.trans (uses_modifyTable (Prepared.of_uses hclaim h)
        fun _ _ ↦ Table.database_of_insert)

/-- Replacing the value of a key of a prepared slot. -/
theorem uses_overwrite (slots : SlotTable) (h : txn.Prepared slot) (limit : Nat) (key : Bytes)
    (payload : Payload) (items : List Bytes) (run : Run) :
    Uses slots slot txn (txn.overwrite limit slot key payload items run).2 := by
  unfold overwrite
  have hclaim := uses_claimEntry slots slot txn limit key payload.size
  dsimp only
  generalize (if run.pages = 0 then _ else _ : Bool) = inPlace
  split
  · dsimp only
    exact uses_modifyTable h fun _ _ ↦ Table.database_of_insert
  · split <;> rename_i hc <;> simp only [hc] at hclaim
    · exact hclaim
    · dsimp only
      exact hclaim.trans (uses_modifyTable (Prepared.of_uses hclaim h)
        fun _ _ ↦ Table.database_of_insert)

/-- Storing a value in a prepared slot. -/
theorem uses_store (slots : SlotTable) (h : txn.Prepared slot) (limit : Nat) (table : Table)
    (key : Bytes) (payload : Payload) (flags : WriteFlags) (found : Option Record) :
    Uses slots slot txn (txn.store limit slot table key payload flags found).2 := by
  have hclaim := uses_claimEntry slots slot txn limit key payload.size
  unfold store
  split
  · exact uses_insertNew slots h limit key payload
  · exact .refl txn
  · split
    · split
      · exact .refl txn
      · split
        · exact .refl txn
        · split <;> rename_i hc <;> simp only [hc] at hclaim
          · exact hclaim
          · dsimp only
            exact hclaim.trans (uses_modifyTable (Prepared.of_uses hclaim h)
        fun _ _ ↦ Table.database_of_insert)
    · exact uses_overwrite slots h limit key payload _ _

/-- Giving an empty table its first entry. -/
theorem uses_insertFirst (slots : SlotTable) (txn : Txn) (limit slot : Nat) (key : Bytes)
    (payload : Payload) :
    Uses slots slot txn (txn.insertFirst limit slot key payload).2 ∧
      ((txn.insertFirst limit slot key payload).1 = .ok () →
        (txn.insertFirst limit slot key payload).2.Prepared slot) := by
  unfold insertFirst
  have hroot := uses_newRoot slots txn limit slot
  split <;> rename_i hc <;> simp only [hc] at hroot
  · exact ⟨hroot.1, by simp⟩
  · have hinsert := uses_insertNew slots (hroot.2 trivial) limit key payload
    exact ⟨hroot.1.trans hinsert, fun _ ↦ Prepared.of_uses hinsert (hroot.2 trivial)⟩

/-- Keeping a slot that could be read. -/
theorem uses_load {content loaded : TxnSlot} (hslot : txn.slot? slot = some content)
    (h : txn.load slots slot content = .ok loaded) :
    Uses slots slot txn (txn.setSlot slot loaded) := by
  obtain ⟨hfollows, -, hsame⟩ := load_follows h
  refine uses_setSlot hslot hfollows fun _ hstale ↦ ?_
  rw [hsame hstale]
  exact ⟨hstale, fun _ ↦ id⟩

/-- Reading the table of a slot if that is possible. -/
theorem uses_tryLoad {content : TxnSlot} (hslot : txn.slot? slot = some content) :
    Uses slots slot txn (txn.tryLoad slots slot content) := by
  unfold tryLoad
  split
  · exact uses_load hslot ‹_›
  · exact .refl txn

/-- A slot that can be used is one that the transaction holds. -/
theorem slot?_of_usable? {content : TxnSlot} (h : txn.usable? slot = some content) :
    txn.slot? slot = some content ∧ content.usable = true ∧ txn.idle = false := by
  unfold usable? at h
  split at h
  · simp at h
  · rename_i hidle
    obtain ⟨hslot, husable⟩ := Option.filter_eq_some_iff.mp h
    exact ⟨hslot, husable, by simpa using hidle⟩

/-! ## Reads and writes -/

/-- Reading a value through a slot. -/
theorem uses_get (txn : Txn) (slots : SlotTable) (blocked : Bool) (slot : Nat) (key : Bytes) :
    Uses slots slot txn (txn.get slots blocked slot key).2 := by
  have h := txn.get_outcome slots blocked slot key
  generalize txn.get slots blocked slot key = answer at h ⊢
  cases h with
  | unusable | blocked | unread => exact .refl txn
  | nameless husable _ hload | missed husable _ hload | found husable _ hload =>
      exact uses_load (slot?_of_usable? husable).1 hload

/-- Asking for the figures of the table behind a slot. -/
theorem uses_stat (txn : Txn) (slots : SlotTable) (blocked : Bool) (slot : Nat) :
    Uses slots slot txn (txn.stat slots blocked slot).2 := by
  have h := txn.stat_outcome slots blocked slot
  generalize txn.stat slots blocked slot = answer at h ⊢
  cases h with
  | unusable | blocked | unread => exact .refl txn
  | answered husable _ hload => exact uses_load (slot?_of_usable? husable).1 hload

/-- Storing a value through a slot. If that succeeds, the slot is dirty. -/
theorem uses_put (txn : Txn) (limit : Nat) (slots : SlotTable) (blocked : Bool) (slot : Nat)
    (key : Bytes) (payload : Payload) (flags : WriteFlags) :
    Uses slots slot txn (txn.put limit slots blocked slot key payload flags).2 ∧
      ((txn.put limit slots blocked slot key payload flags).1 = .ok () →
        (txn.put limit slots blocked slot key payload flags).2.Prepared slot) := by
  have h := txn.put_outcome limit slots blocked slot key payload flags
  generalize txn.put limit slots blocked slot key payload flags = answer at h ⊢
  cases h with
  | unusable | misflagged | reader | blocked | unread => exact ⟨.refl txn, nofun⟩
  | missized hwritable => exact ⟨uses_tryLoad (slot?_of_usable? hwritable.usable).1, nofun⟩
  | seeded hwritable hkey hload hempty hread hfirst =>
      subst hfirst
      exact uses_insertFirst slots txn limit slot key payload
  | first hwritable hkey hload hempty hfirst =>
      subst hfirst
      obtain ⟨hused, hprepared⟩ := uses_insertFirst slots (txn.setSlot slot _) limit slot key payload
      exact ⟨(uses_load (slot?_of_usable? hwritable.usable).1 hload).trans hused, hprepared⟩
  | unmet hwritable hkey hload =>
      exact ⟨uses_load (slot?_of_usable? hwritable.usable).1 hload, nofun⟩
  | @untouched content loaded found code touched hwritable hkey hload hmeet htouched =>
      have htouch := uses_touch (txn.setSlot slot loaded) limit slots slot
      rw [htouched] at htouch
      exact ⟨(uses_load (slot?_of_usable? hwritable.usable).1 hload).trans htouch.1, nofun⟩
  | @stored content loaded found touched answer hwritable hkey hload hmeet htouched hstored =>
      subst hstored
      have htouch := uses_touch (txn.setSlot slot loaded) limit slots slot
      rw [htouched] at htouch
      have hstore := uses_store slots (htouch.2 rfl) limit loaded.table key payload flags found
      have hset := uses_load (slot?_of_usable? hwritable.usable).1 hload
      exact ⟨(hset.trans htouch.1).trans hstore, fun _ ↦ Prepared.of_uses hstore (htouch.2 rfl)⟩

/-- Filling a reserved buffer of a prepared slot. -/
theorem uses_fill (slots : SlotTable) (h : txn.Prepared slot) (key data : Bytes) :
    Uses slots slot txn (txn.fill slot key data) := by
  refine uses_modifyTable h fun table name hname ↦ ?_
  split at hname
  · split at hname
    · exact Table.database_of_insert hname
    · exact hname
  · exact hname

/-- Removing values through a slot. -/
theorem uses_del (txn : Txn) (limit : Nat) (slots : SlotTable) (blocked : Bool) (slot : Nat)
    (key : Bytes) (item : Option Bytes) :
    Uses slots slot txn (txn.del limit slots blocked slot key item).2 := by
  have h := txn.del_outcome limit slots blocked slot key item
  generalize txn.del limit slots blocked slot key item = answer at h ⊢
  -- the table is read, and then the slot is prepared for a change
  have hread {content loaded : TxnSlot} (hwritable : txn.Writable blocked slot content)
      (hload : txn.load slots slot content = .ok loaded) :
      Uses slots slot txn (txn.setSlot slot loaded) :=
    uses_load (slot?_of_usable? hwritable.usable).1 hload
  have htouch (loaded : TxnSlot) := uses_touch (txn.setSlot slot loaded) limit slots slot
  cases h with
  | unusable | reader | blocked | unread => exact .refl txn
  | nameless hwritable => exact uses_tryLoad (slot?_of_usable? hwritable.usable).1
  | missed hwritable _ hload | unlisted hwritable _ hload => exact hread hwritable hload
  | @untouched content loaded code touched hwritable _ hload htouched =>
      specialize htouch loaded
      rw [htouched] at htouch
      exact (hread hwritable hload).trans htouch.1
  | @database content loaded touched hwritable _ hload _ htouched =>
      specialize htouch loaded
      rw [htouched] at htouch
      exact ((hread hwritable hload).trans htouch.1).trans
        (uses_of_eq ⟨rfl, rfl, rfl, rfl, rfl⟩ rfl rfl rfl)
  | @removed content loaded items run touched hwritable _ hload _ _ htouched =>
      specialize htouch loaded
      rw [htouched] at htouch
      dsimp only
      refine ((hread hwritable hload).trans htouch.1).trans
        (uses_modifyTable (htouch.2 rfl) fun _ _ hname ↦ ?_)
      split at hname
      · exact Table.database_of_erase hname
      · exact Table.database_of_insert hname

end Txn

end MappedStore.Engine
