import MappedStore.Proofs.Engine.Confinement
import MappedStore.Proofs.Engine.Peeking
import MappedStore.Proofs.Sound

/-!
# Tables that a transaction has read

A transaction reads the table of a slot at its first use and keeps it. As long as the counter of the
slot stands where the transaction learnt of it, what it keeps is what its snapshot has under the
name of the occupant, unless it has changed the table itself (`Txn.Coherent`), and something
occupies the slot or is known of it (`Txn.Alert`). Both are properties that survive whatever an
engine does to a transaction (`Txn.Lasting`), so that they hold for every transaction of every
engine that can be reached (`Reachable.each`).
-/

namespace MappedStore

open Engine

namespace Engine

variable {slots slots' : SlotTable} {slot index : Nat} {txn before after : Txn} {name : Bytes}

/-- What a transaction keeps of its slots agrees with the table of slots and with its snapshot. -/
structure Txn.Coherent (slots : SlotTable) (txn : Txn) : Prop where
  mainStale : txn.main.stale = false
  sequence_le : ∀ index content, txn.named[index]? = some content →
    content.sequence ≤ (slots.getD index {}).sequence
  read : ∀ index content, txn.named[index]? = some content → content.usable = true →
    content.stale = false → content.dirty = false →
    content.sequence = (slots.getD index {}).sequence →
    ∀ table, txn.recorded slots (index + firstSlot) = some table → content.table = table

/-- What a transaction keeps of a slot after a use follows what it kept before. -/
theorem Txn.Uses.source (huses : Txn.Uses slots slot txn after) {content : TxnSlot}
    (hcontent : after.named[index]? = some content) :
    ∃ source, txn.named[index]? = some source ∧
      TxnSlot.Follows (txn.recorded slots (index + firstSlot)) source content := by
  by_cases hindex : index + firstSlot = slot
  · have hlength : index < txn.named.length :=
      huses.length ▸ (List.getElem?_eq_some_iff.mp hcontent).1
    obtain ⟨content', hafter, hfollows⟩ :=
      huses.here index hindex _ (List.getElem?_eq_getElem hlength)
    obtain rfl : content' = content := Option.some.inj (hafter.symm.trans hcontent)
    exact ⟨_, List.getElem?_eq_getElem hlength, hindex ▸ hfollows⟩
  · exact ⟨content, (huses.other index hindex).symm.trans hcontent, .refl content⟩

namespace Txn.Coherent

/-- The counter of a slot has stood as long as a transaction is up to date with it. -/
theorem stands (h : txn.Coherent slots) (hlater : SlotTable.Later slots slots')
    {content : TxnSlot} (hcontent : txn.named[index]? = some content)
    (hsequence : content.sequence = (slots'.getD index {}).sequence) :
    (slots'.getD index {}).sequence = (slots.getD index {}).sequence :=
  Nat.le_antisymm (hsequence ▸ h.sequence_le index content hcontent)
    (hlater (index + firstSlot)).sequence_le

/-- A slot whose counter stands has its occupant still, so a later table of slots changes nothing
for those that a transaction has kept up with. -/
theorem later (h : txn.Coherent slots) (hlater : SlotTable.Later slots slots') :
    txn.Coherent slots' := by
  refine ⟨h.mainStale, fun index content hcontent ↦ ?_, ?_⟩
  · have hle := h.sequence_le index content hcontent
    exact Nat.le_trans hle (hlater (index + firstSlot)).sequence_le
  · intro index content hcontent husable hstale hdirty hsequence table htable
    have heq := h.stands hlater hcontent hsequence
    refine h.read index content hcontent husable hstale hdirty (hsequence.trans heq) table ?_
    rwa [Txn.recorded, (hlater (index + firstSlot)).name_eq heq, ← Txn.recorded] at htable

/-- A use of one slot adds no database, so what the main table records afterwards it recorded
before. -/
theorem recorded_of_uses (h : txn.Coherent slots) (huses : Txn.Uses slots slot txn after)
    {other : Nat} {table : Table} (htable : after.recorded slots other = some table) :
    txn.recorded slots other = some table := by
  unfold Txn.recorded at htable ⊢
  split at htable
  · rename_i hfound
    rw [(huses.main h.mainStale).2 _ hfound]
    simpa [Txn.snapshot, Snapshot.table, huses.tables] using htable
  · simp at htable

/-- A use of one slot keeps a transaction coherent. -/
theorem uses (h : txn.Coherent slots) (huses : Txn.Uses slots slot txn after) :
    after.Coherent slots := by
  refine ⟨(huses.main h.mainStale).1, fun index content hcontent ↦ ?_, ?_⟩
  · obtain ⟨source, hbefore, hfollows⟩ := huses.source hcontent
    exact hfollows.sequence ▸ h.sequence_le index source hbefore
  · intro index content hcontent husable hstale hdirty hsequence table htable
    obtain ⟨source, hbefore, hfollows⟩ := huses.source hcontent
    have hrecorded := h.recorded_of_uses huses htable
    rcases hfollows.clean hdirty with ⟨hsame, htables⟩ | ⟨-, -, hread⟩
    · have hclean : source.dirty = false := by
        by_contra hdirty'
        simp [hfollows.dirty (by simpa using hdirty')] at hdirty
      rw [htables]
      exact h.read index source hbefore (hfollows.usable ▸ husable) (hsame ▸ hstale) hclean
        (hfollows.sequence ▸ hsequence) table hrecorded
    · exact Option.some.inj (hread.symm.trans hrecorded)

/-- The flags of the main table do not matter. -/
theorem mainFlags (h : txn.Coherent slots) (flags : DbFlags) : Txn.Coherent slots
    { txn with
      main := { txn.main with table := { txn.main.table with flags := flags } }
      changed := true } :=
  ⟨h.mainStale, h.sequence_le, h.read⟩

/-- What a transaction holds of other positions when one is given away. -/
theorem getElem?_placeSlot (named : List TxnSlot) {index other : Nat} (content : TxnSlot)
    (hindex : index ≤ named.length) : (placeSlot named index content)[other]? =
      if other = index then some content else named[other]? := by
  unfold placeSlot
  split
  · rename_i hlt
    rw [List.getElem?_set]
    split <;> simp_all [eq_comm]
  · rename_i hge
    have hlength : index = named.length := by omega
    subst hlength
    split
    · rename_i hother
      simp [hother]
    · rename_i hother
      by_cases hlt : other < named.length
      · exact List.getElem?_append_left hlt
      · simp only [List.getElem?_append, hlt, if_false]
        rw [List.getElem?_eq_none (Nat.le_of_not_lt hlt), List.getElem?_eq_none]
        simp only [List.length_cons, List.length_nil]
        omega

/-- Giving a position to a name keeps a transaction coherent: none of its other slots has that
name. -/
theorem occupied {content : TxnSlot} {base : Txn} (h : txn.Coherent slots)
    (hoccupies : Occupies slots index name txn base content) :
    Txn.Coherent (Engine.occupied slots index name)
      { base with named := placeSlot base.named index content } := by
  have hnamed := hoccupies.records.named
  have hindex : index ≤ base.named.length := hnamed ▸ hoccupies.index_le
  have hself := SlotTable.getD_updateAt_self
    (fun info ↦ { info with name := name, sequence := info.sequence + 1 }) slots index
  have hother : ∀ {other : Nat}, other ≠ index →
      (Engine.occupied slots index name).getD other {} = slots.getD other {} :=
    fun hne ↦ SlotTable.getD_updateAt_of_ne _ slots hne
  refine ⟨hoccupies.records.mainStale h.mainStale, fun other kept hkept ↦ ?_, ?_⟩
  · rw [getElem?_placeSlot _ _ hindex] at hkept
    split at hkept
    · rename_i heq
      obtain rfl := Option.some.inj hkept
      rw [heq, hoccupies.sequence]
      exact Nat.le_of_eq (congrArg SlotInfo.sequence hself).symm
    · rename_i hne
      rw [hother hne]
      exact h.sequence_le other kept (hnamed ▸ hkept)
  · intro other kept hkept husable hstale hdirty hsequence table htable
    rw [getElem?_placeSlot _ _ hindex] at hkept
    split at hkept
    · rename_i heq
      subst heq
      obtain rfl := Option.some.inj hkept
      obtain ⟨rfl, hclean⟩ := hoccupies.clean hdirty
      have hname : (SlotTable.info (Engine.occupied slots other name) (other + firstSlot)).name
          = name := congrArg SlotInfo.name hself
      rw [Txn.recorded, hname] at htable
      split at htable
      · rw [hclean]
        exact Option.some.inj htable
      · simp at htable
    · rename_i hne
      have hbefore : txn.named[other]? = some kept := hnamed ▸ hkept
      -- The record of the new name is of no concern to a slot that stands for another name.
      have hunseen : (SlotTable.info slots (other + firstSlot)).name ≠ name :=
        hoccupies.unseen other (List.getElem?_eq_some_iff.mp hbefore).1
      have hinfo : SlotTable.info (Engine.occupied slots index name) (other + firstSlot)
          = SlotTable.info slots (other + firstSlot) := hother hne
      refine h.read other kept hbefore husable hstale hdirty
        (hsequence.trans (congrArg SlotInfo.sequence (hother hne))) table ?_
      unfold Txn.recorded at htable ⊢
      rw [hinfo] at htable
      rw [← hoccupies.records.records _ hunseen, ← hoccupies.records.tables _ hunseen]
      exact htable

/-- Removing a named database keeps a transaction coherent. -/
theorem without (h : txn.Coherent slots) (hslot : slot ≠ mainSlot) :
    Txn.Coherent (slots.update SlotInfo.closed slot) (txn.without slot (slots.info slot).name) := by
  suffices hopen : Txn.Coherent slots (txn.without slot (slots.info slot).name) from
    hopen.later (SlotTable.later_close slots slot)
  obtain ⟨hmain, htables, -, hsource⟩ := txn.without_eq (slots.info slot).name hslot
  refine ⟨(congrArg TxnSlot.stale hmain).trans h.mainStale, fun index content hcontent ↦ ?_, ?_⟩
  · rcases hsource index content hcontent with hbefore | ⟨source, hbefore, hsequence, -⟩
    · exact h.sequence_le index content hbefore
    · exact hsequence ▸ h.sequence_le index source hbefore
  · intro index content hcontent husable hstale hdirty hsequence table htable
    rcases hsource index content hcontent with hbefore | ⟨source, -, -, hunusable⟩
    · refine h.read index content hbefore husable hstale hdirty hsequence table ?_
      unfold Txn.recorded at htable ⊢
      rw [congrArg TxnSlot.table hmain] at htable
      split at htable
      · rename_i hfound
        rw [Table.database_of_erase hfound]
        by_cases hname : (slots.info (index + firstSlot)).name = (slots.info slot).name
        · rw [hname, Table.find?, Table.erase, Entries.find?_erase_self] at hfound
          simp at hfound
        · rw [← htable]
          simp only [Txn.snapshot, Snapshot.table, htables, Entries.find?_erase_of_ne _ hname]
      · simp at htable
    · simp [hunusable] at husable

/-- A transaction that has not read anything yet is coherent. -/
theorem fresh (hmain : txn.main.stale = false) {known : Nat} {memory : List (Option Table)}
    (hnamed : txn.named = slots.fresh known memory) : txn.Coherent slots := by
  have hcontent : ∀ index content, txn.named[index]? = some content →
      content.sequence = (slots.getD index {}).sequence ∧
        content.usable = content.stale := by
    intro index content hindex
    rw [hnamed, SlotTable.fresh, List.getElem?_map] at hindex
    obtain ⟨position, hposition, rfl⟩ := Option.map_eq_some_iff.mp hindex
    obtain ⟨hlt, hposition⟩ := List.getElem?_eq_some_iff.mp hposition
    obtain rfl : index = position := by simpa using hposition
    exact ⟨rfl, rfl⟩
  refine ⟨hmain, fun index content h ↦ Nat.le_of_eq (hcontent index content h).1, ?_⟩
  intro index content h husable hstale
  simp [(hcontent index content h).2, hstale] at husable

/-- Marks on a transaction and on the freshness of its slots do not matter. -/
theorem congr {other : Txn} (h : txn.Coherent slots) (hmain : other.main = txn.main)
    (htables : other.tables = txn.tables)
    (hnamed : ∀ (index : Nat) (content : TxnSlot), other.named[index]? = some content →
      ∃ fresh : Bool, txn.named[index]? = some { content with fresh := fresh }) :
    other.Coherent slots := by
  refine ⟨hmain ▸ h.mainStale, fun index content hcontent ↦ ?_, ?_⟩
  · obtain ⟨fresh, hbefore⟩ := hnamed index content hcontent
    have hle := h.sequence_le index _ hbefore
    exact hle
  · intro index content hcontent husable hstale hdirty hsequence table htable
    obtain ⟨fresh, hbefore⟩ := hnamed index content hcontent
    refine h.read index _ hbefore husable hstale hdirty hsequence table ?_
    rwa [Txn.recorded, Txn.snapshot, hmain, htables] at htable

end Txn.Coherent

/-- A table that a transaction has for the occupant of a slot: the one that its main table records,
or one that it keeps in the slot as its own. -/
def Txn.Has (slots : SlotTable) (slot : Nat) (txn : Txn) (table : Table) : Prop :=
  txn.recorded slots slot = some table ∨
    ∃ content, txn.slot? slot = some content ∧ (slot = mainSlot ∨ content.dirty = true) ∧
      content.table = table

/-- A transaction that knows of the occupant of a slot and records a database for it reads a table
that it has for the occupant, or is refused because the flags of the table are others than those of
the slot. -/
theorem Txn.Coherent.load_cases {content : TxnSlot} (h : txn.Coherent slots)
    (husable : txn.usable? slot = some content)
    (hsequence : content.sequence = (slots.info slot).sequence)
    (hrecorded : slot = mainSlot ∨ (txn.recorded slots slot).isSome = true) :
    (∃ loaded, txn.load slots slot content = .ok loaded ∧ txn.Has slots slot loaded.table) ∨
      txn.load slots slot content = .error .incompatible ∧
        ∃ table, txn.recorded slots slot = some table ∧ table.flags ≠ content.table.flags := by
  obtain ⟨hslot, hready, -⟩ := Txn.slot?_of_usable? husable
  have hmain : slot = mainSlot → content.stale = false := by
    rintro rfl
    obtain rfl : txn.main = content := Option.some.inj hslot
    exact h.mainStale
  cases hstale : content.stale with
  | true =>
      have hnamed : slot ≠ mainSlot := fun hs ↦ by simp [hmain hs] at hstale
      obtain ⟨table, htable⟩ := Option.isSome_iff_exists.mp (hrecorded.resolve_left hnamed)
      have hoccupied : txn.isOutdated slots slot content = false := by
        simp [Txn.isOutdated, hsequence]
      have hload := Txn.load_stale hstale hoccupied
      rw [Txn.lookup_of_recorded htable] at hload
      by_cases hflags : table.flags = content.table.flags
      · refine .inl ⟨_, hload.trans (by rw [if_neg (not_not.mpr hflags)]; rfl), .inl htable⟩
      · exact .inr ⟨hload.trans (by rw [if_pos hflags]; rfl), table, htable, hflags⟩
  | false =>
      refine .inl ⟨content, by simp [Txn.load, hstale], ?_⟩
      by_cases hown : slot = mainSlot ∨ content.dirty = true
      · exact .inr ⟨content, hslot, hown, rfl⟩
      · obtain ⟨hnamed, hclean⟩ := not_or.mp hown
        obtain ⟨table, htable⟩ := Option.isSome_iff_exists.mp (hrecorded.resolve_left hnamed)
        rcases slot with _ | _ | index
        · simp [Txn.slot?] at hslot
        · exact absurd rfl hnamed
        · have hread := h.read index content hslot hready hstale (by simpa using hclean)
            hsequence table htable
          exact .inl (hread ▸ htable)

variable {engine after : Engine} {handle : Nat} {actor : Option Nat}

/-- The transactions that an abort leaves were there before, and are others than the one that it
ended. -/
theorem Aborted.mem (h : Aborted engine handle after) (hroster : Roster engine) {other : Txn}
    (hother : other ∈ after.writers ++ after.reading) :
    other ∈ engine.writers ++ engine.reading ∧ other.handle ≠ handle := by
  cases h with
  | unknown htxn heq =>
      subst heq
      refine ⟨hother, fun hhandle ↦ ?_⟩
      have hfound := hroster.txn?_handle hother
      simp [hhandle, htxn] at hfound
  | @reader txn htxn hreader hwriters hreading =>
      rw [hwriters, hreading] at hother
      rcases List.mem_append.mp hother with hmem | hmem
      · refine ⟨List.mem_append_left _ hmem, fun hhandle ↦ ?_⟩
        have hsame := hroster.eq_of_handle (List.mem_append_left _ hmem) htxn hhandle
        simp [← hsame, hroster.writers other hmem] at hreader
      · obtain ⟨hmem, hne⟩ := List.mem_filter.mp hmem
        exact ⟨List.mem_append_right _ hmem, by simpa using hne⟩
  | @writer inner outer txn htxn hwriter hsplit hinner hwriters hreading =>
      rw [hwriters, hreading] at hother
      have hnodup := hroster.nodup
      rw [hsplit, List.append_assoc, List.map_append, List.nodup_append, List.cons_append,
        List.map_cons, List.nodup_cons, handle_of_txn? htxn] at hnodup
      refine ⟨?_, fun hhandle ↦ hnodup.2.1.1 (hhandle ▸ List.mem_map_of_mem hother)⟩
      rw [hsplit]
      rcases List.mem_append.mp hother with hmem | hmem <;> simp [hmem]

/-- A property of a transaction beside the table of slots that is passed on when transactions begin
and end. Those that start from a snapshot have it if the snapshot is of the right kind. -/
structure Txn.Passing (origin : Snapshot → Prop) (property : SlotTable → Txn → Prop) : Prop where
  later {slots slots' : SlotTable} {txn : Txn} (h : property slots txn)
    (hlater : SlotTable.Later slots slots') : property slots' txn
  fresh {slots : SlotTable} {txn : Txn} {snapshot : Snapshot} (horigin : origin snapshot)
    (hmain : txn.main = Txn.mainOf snapshot) (htables : txn.tables = snapshot.named) {known : Nat}
    {memory : List (Option Table)} (hnamed : txn.named = slots.fresh known memory) :
    property slots txn
  congr {slots : SlotTable} {txn other : Txn} (h : property slots txn)
    (hmain : other.main = txn.main) (htables : other.tables = txn.tables)
    (hnamed : ∀ (index : Nat) (content : TxnSlot), other.named[index]? = some content →
      ∃ fresh : Bool, txn.named[index]? = some { content with fresh := fresh }) :
    property slots other

/-- A property of a transaction beside the table of slots that survives whatever engines do. -/
structure Txn.Lasting (property : SlotTable → Txn → Prop) : Prop
    extends Txn.Passing (fun _ ↦ True) property where
  uses {slots : SlotTable} {slot : Nat} {txn after : Txn} (h : property slots txn)
    (huses : Txn.Uses slots slot txn after) : property slots after
  mainFlags {slots : SlotTable} {txn : Txn} (h : property slots txn) (flags : DbFlags) :
    property slots
      { txn with
        main := { txn.main with table := { txn.main.table with flags := flags } }
        changed := true }
  occupied {slots : SlotTable} {index : Nat} {name : Bytes} {txn base : Txn} {content : TxnSlot}
    (h : property slots txn) (hoccupies : Occupies slots index name txn base content) :
    property (Engine.occupied slots index name)
      { base with named := placeSlot base.named index content }
  without {slots : SlotTable} {slot : Nat} {txn : Txn} (h : property slots txn)
    (hslot : slot ≠ mainSlot) :
    property (slots.update SlotInfo.closed slot) (txn.without slot (slots.info slot).name)

/-- Coherence is such a property. -/
theorem Txn.lasting_coherent : Txn.Lasting Txn.Coherent :=
  ⟨⟨.later, fun _ hmain _ _ _ hnamed ↦ .fresh (congrArg TxnSlot.stale hmain) hnamed, .congr⟩, .uses,
    .mainFlags, .occupied, .without⟩

/-- Every transaction of an engine has a property. -/
def Each (property : SlotTable → Txn → Prop) (engine : Engine) : Prop :=
  ∀ txn ∈ engine.writers ++ engine.reading, property engine.slots txn

/-- Every transaction of an engine is coherent. -/
def Coherent (engine : Engine) : Prop :=
  ∀ txn ∈ engine.writers ++ engine.reading, txn.Coherent engine.slots

/-- A transaction of an engine in which one was replaced is the new one or one from before. -/
theorem mem_replace {txn other : Txn}
    (h : other ∈ (engine.replace txn).writers ++ (engine.replace txn).reading) :
    other = txn ∨ other ∈ engine.writers ++ engine.reading := by
  unfold replace at h
  rw [← List.map_append] at h
  obtain ⟨before, hbefore, rfl⟩ := List.mem_map.mp h
  split
  · exact .inl rfl
  · exact .inr hbefore

namespace Each

variable {origin : Snapshot → Prop} {property : SlotTable → Txn → Prop}

/-- Later slots do not matter to an engine whose transactions stay. -/
theorem kept (h : Each property engine) (hpassing : Txn.Passing origin property)
    (hlater : SlotTable.Later engine.slots after.slots)
    (hmem : ∀ txn ∈ after.writers ++ after.reading, txn ∈ engine.writers ++ engine.reading) :
    Each property after :=
  fun txn htxn ↦ hpassing.later (h txn (hmem txn htxn)) hlater

/-- An engine in which one transaction was replaced by another with the property. -/
theorem replaced (h : Each property engine) (hpassing : Txn.Passing origin property) {txn : Txn}
    {slots : SlotTable} {readers : ReaderTable} (hlater : SlotTable.Later engine.slots slots)
    (htxn : property slots txn) :
    Each property { engine.replace txn with slots := slots, readers := readers } := by
  intro other hother
  rcases mem_replace hother with rfl | hbefore
  · exact htxn
  · exact hpassing.later (h other hbefore) hlater

/-- A use keeps the property. -/
theorem used (h : Each property engine) (hlasting : Txn.Lasting property)
    (hused : Used engine handle after) : Each property after := by
  have hfound : ∀ {txn : Txn}, engine.txn? handle = some txn → property engine.slots txn :=
    fun htxn ↦ h _ (mem_of_txn? htxn)
  cases hused with
  | same => exact h
  | through slot htxn huses =>
      exact h.replaced hlasting.toPassing (.refl _) (hlasting.uses (hfound htxn) huses)
  | mainFlags flags htxn =>
      exact h.replaced hlasting.toPassing (.refl _) (hlasting.mainFlags (hfound htxn) flags)
  | occupied htxn hoccupies =>
      exact h.replaced hlasting.toPassing (SlotTable.later_occupy _ _ _)
        (hlasting.occupied (hfound htxn) hoccupies)
  | dropped htxn hslot hwriter huses =>
      exact h.replaced hlasting.toPassing (SlotTable.later_close _ _)
        (hlasting.without (hlasting.uses (hfound htxn) huses) hslot)

/-- A begin keeps the property. -/
theorem began (h : Each property engine) (hpassing : Txn.Passing origin property)
    (horigin : origin engine.image.snapshot) {parent : Option Nat} {flags : TxnFlags}
    (hbegan : Began engine parent flags handle after) : Each property after := by
  cases hbegan with
  | reading readers reader =>
      intro txn htxn
      rcases List.mem_append.mp htxn with hmem | hmem
      · exact h txn (List.mem_append_left _ hmem)
      · rcases List.mem_cons.mp hmem with rfl | hmem
        · exact hpassing.fresh horigin rfl rfl rfl
        · exact h txn (List.mem_append_right _ hmem)
  | root =>
      intro txn htxn
      rcases List.mem_cons.mp htxn with rfl | hmem
      · exact hpassing.fresh horigin rfl rfl rfl
      · exact h txn hmem
  | @nested outer parent hparent hflags hfound =>
      intro txn htxn
      rcases List.mem_cons.mp htxn with rfl | hmem
      · refine hpassing.congr (h parent (mem_of_txn? hfound)) rfl rfl ?_
        intro index content hcontent
        rw [List.getElem?_map] at hcontent
        obtain ⟨before, hbefore, rfl⟩ := Option.map_eq_some_iff.mp hcontent
        exact ⟨before.fresh, hbefore⟩
      · exact h txn hmem

/-- A commit keeps the property. -/
theorem committed (h : Each property engine) (hpassing : Txn.Passing origin property)
    (hcommitted : Committed engine handle after) : Each property after := by
  have hlater := hcommitted.later.1
  cases hcommitted with
  | @reader txn htxn hreader =>
      obtain ⟨hwriters, hreading, -⟩ := endReader_cases engine txn true
      refine h.kept hpassing hlater fun other hother ↦ ?_
      rw [hwriters, hreading] at hother
      rcases List.mem_append.mp hother with hmem | hmem
      · exact List.mem_append_left _ hmem
      · exact List.mem_append_right _ (List.mem_filter.mp hmem).1
  | @nested child parent rest hwriters =>
      have hmem : ∀ other ∈ child :: parent :: rest ++ engine.reading,
          property engine.slots other := by
        rw [← hwriters]
        exact h
      intro other hother
      rcases List.mem_cons.mp hother with rfl | hother
      · refine hpassing.congr (hmem child (by simp)) rfl rfl fun index content hcontent ↦ ?_
        simp only [absorb, List.getElem?_mapIdx] at hcontent
        obtain ⟨before, hbefore, rfl⟩ := Option.map_eq_some_iff.mp hcontent
        exact ⟨before.fresh, hbefore⟩
      · exact hmem other (List.mem_cons_of_mem _ (List.mem_cons_of_mem _ hother))
  | root image hwriters =>
      refine h.kept hpassing hlater fun other hother ↦ List.mem_append_right _ ?_
      simpa [endWriter] using hother

/-- The end of a transaction without a commit keeps the property. -/
theorem ended (h : Each property engine) (hpassing : Txn.Passing origin property)
    (hroster : Roster engine) {middle : Engine} (hrefused : Refused engine handle middle) :
    Each property (middle.abort handle) := by
  obtain ⟨haborted, -, -, hlater⟩ := abort_cases (hroster.of_stays hrefused.stays) handle
  intro other hother
  obtain ⟨hmiddle, hne⟩ := haborted.mem (hroster.of_stays hrefused.stays) hother
  obtain ⟨before, hbefore, broken, rfl⟩ := hrefused.others other hmiddle hne
  have hslots := hrefused.stays.slots.trans hlater
  refine hpassing.congr (hpassing.later (h before hbefore) hslots) rfl rfl ?_
  exact fun index content hcontent ↦ ⟨content.fresh, hcontent⟩

/-- A reset keeps the property. -/
theorem reset (h : Each property engine) (hpassing : Txn.Passing origin property)
    (hreset : WasReset engine handle after) : Each property after := by
  cases hreset with
  | same => exact h
  | @idle txn readers reader htxn =>
      have hlater := SlotTable.later_discard engine.slots txn.named
      have htxn := hpassing.later (h txn (mem_of_txn? htxn)) hlater
      refine h.replaced hpassing hlater (hpassing.congr htxn rfl rfl ?_)
      exact fun index content hcontent ↦ ⟨content.fresh, hcontent⟩

/-- A renewal keeps the property. -/
theorem renewed (h : Each property engine) (hpassing : Txn.Passing origin property)
    (horigin : origin engine.image.snapshot) (hrenewed : Renewed engine handle after) :
    Each property after := by
  cases hrenewed with
  | mk readers reader htxn =>
      exact h.replaced hpassing (.refl _) (hpassing.fresh horigin rfl rfl rfl)

/-- What happens beside the transactions keeps the property. -/
theorem aside (h : Each property engine) (haside : Aside engine after) : Each property after := by
  obtain ⟨readers, next, -, rfl⟩ := haside
  exact h

/-- Whatever happens to an engine keeps the property. -/
theorem turn (h : Each property engine) (hlasting : Txn.Lasting property) (hroster : Roster engine)
    (hturn : Turn engine actor after) : Each property after := by
  have hpassing := hlasting.toPassing
  cases hturn with
  | aside haside => exact h.aside haside
  | used hused => exact h.used hlasting hused
  | reset hreset => exact h.reset hpassing hreset
  | renewed hrenewed => exact h.renewed hpassing trivial hrenewed
  | began hbegan => exact h.began hpassing trivial hbegan
  | committed hcommitted => exact h.committed hpassing hcommitted
  | ended hrefused => exact h.ended hpassing hroster hrefused

end Each

/-- A transaction that is coherent, and of which every slot that is up to date is occupied or known.
A slot that is closed is no longer up to date for the transactions that could use it. -/
structure Txn.Alert (slots : SlotTable) (txn : Txn) : Prop extends txn.Coherent slots where
  occupied : ∀ index content, txn.named[index]? = some content → content.usable = true →
    content.sequence = (slots.getD index {}).sequence →
    (slots.getD index {}).name ≠ [] ∨ (slots.getD index {}).known = true

/-- Whatever engines do, transactions stay alert. -/
theorem Txn.lasting_alert : Txn.Lasting Txn.Alert where
  later {slots slots' txn} h hlater := by
    refine ⟨h.toCoherent.later hlater, fun index content hcontent husable hsequence ↦ ?_⟩
    have hstands := h.stands hlater hcontent hsequence
    have hbefore := h.occupied index content hcontent husable (hsequence.trans hstands)
    exact (hlater (index + firstSlot)).occupied hstands hbefore
  uses {slots slot txn after} h huses := by
    refine ⟨h.toCoherent.uses huses, fun index content hcontent husable hsequence ↦ ?_⟩
    obtain ⟨source, hbefore, hfollows⟩ := huses.source hcontent
    exact h.occupied index source hbefore (hfollows.usable ▸ husable)
      (hfollows.sequence ▸ hsequence)
  mainFlags h flags := ⟨h.toCoherent.mainFlags flags, h.occupied⟩
  occupied {slots index name txn base content} h hoccupies := by
    refine ⟨h.toCoherent.occupied hoccupies, fun other kept hkept husable hsequence ↦ ?_⟩
    have hnamed := hoccupies.records.named
    rw [Txn.Coherent.getElem?_placeSlot _ _ (hnamed ▸ hoccupies.index_le)] at hkept
    unfold Engine.occupied at hsequence ⊢
    split at hkept
    · rename_i heq
      rw [heq, SlotTable.getD_updateAt_self]
      exact .inl hoccupies.name_ne
    · rename_i hne
      rw [SlotTable.getD_updateAt_of_ne _ _ hne] at hsequence ⊢
      exact h.occupied other kept (hnamed ▸ hkept) husable hsequence
  without {slots slot txn} h hslot := by
    -- What the transaction can still use it had before, and the slot that is closed is another one.
    refine ⟨h.toCoherent.without hslot, fun index content hcontent husable hsequence ↦ ?_⟩
    obtain ⟨-, -, -, hsource⟩ := txn.without_eq (slots.info slot).name hslot
    rcases hsource index content hcontent with hbefore | ⟨-, -, -, hunusable⟩
    · have hlater := SlotTable.later_close slots slot
      have hstands := h.stands hlater hbefore hsequence
      have hoccupied := h.occupied index content hbefore husable (hsequence.trans hstands)
      exact (hlater (index + firstSlot)).occupied hstands hoccupied
    · rw [husable] at hunusable
      cases hunusable
  fresh _ hmain _ known memory hnamed := by
    have hcoherent := Txn.Coherent.fresh (congrArg TxnSlot.stale hmain) hnamed
    refine ⟨hcoherent, fun index content hcontent husable _ ↦ .inr ?_⟩
    rw [hnamed, SlotTable.fresh, List.getElem?_map] at hcontent
    obtain ⟨position, hposition, rfl⟩ := Option.map_eq_some_iff.mp hcontent
    obtain ⟨hlt, hposition⟩ := List.getElem?_eq_some_iff.mp hposition
    obtain rfl : index = position := by simpa using hposition
    exact husable
  congr h hmain htables hnamed := by
    refine ⟨h.toCoherent.congr hmain htables hnamed, ?_⟩
    intro index content hcontent husable hsequence
    obtain ⟨fresh, hbefore⟩ := hnamed index content hcontent
    exact h.occupied index _ hbefore husable hsequence

end Engine

/-- Every transaction of a process that can be reached has the properties that last. -/
theorem Reachable.each {system : System} (h : Reachable system)
    {property : Engine.SlotTable → Engine.Txn → Prop} (hlasting : Engine.Txn.Lasting property)
    (env : EnvId) : (system.engine env).Each property := by
  obtain ⟨checks, files, hrun⟩ := h
  have hstart := System.sound_start checks files
  induction hrun generalizing env with
  | nil => exact fun txn htxn ↦ by simp [System.engine, System.environment, Environment.absent,
      Engine.unopened] at htxn
  | @step last action run _ ih =>
      have hsound := hstart.run run
      have htransition := hsound.transition action
      rcases Nat.lt_or_ge env last.environments.length with hlt | hge
      · exact (ih env).turn hlasting (hsound.anchored.roster env)
          (htransition.turn hsound.anchored.roster hlt)
      · have hnewborn := (htransition.newborn hge).1
        intro txn htxn
        simp [hnewborn.writers, hnewborn.reading] at htxn

/-- Every engine of a process that can be reached is coherent. -/
theorem Reachable.coherent {system : System} (h : Reachable system) (env : EnvId) :
    Engine.Coherent (system.engine env) :=
  h.each Engine.Txn.lasting_coherent env

end MappedStore
