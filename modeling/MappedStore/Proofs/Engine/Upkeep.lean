import MappedStore.Engine.Disk
import MappedStore.Proofs.Coherence
import MappedStore.Proofs.Engine.Order

/-!
# Engines in order

The tables of an engine are in order if those of its transactions and of its committed image are
(`Engine.Orderly`). They stay so whatever the engine does, but for an open of the main database that
gives it another order of keys (`Txn.KeepsOrder`). An engine on a data file in order is in order,
and leaves the file so.
-/

namespace MappedStore

open Engine

namespace Engine

variable {whole : Prop} {engine after : Engine} {slots : SlotTable} {handle slot : Nat}
  {txn base : Txn} {name : Bytes} {flags : DbFlags} {table : Table} {content : TxnSlot}

/-! ## Transactions of an engine -/

namespace Txn

/-- What a transaction has is what its snapshot has. -/
theorem Orderly.snapshot (h : txn.Orderly whole) : txn.snapshot.Orderly whole where
  main hwhole := h.held mainSlot txn.main rfl (TxnSlot.counts_main.mpr hwhole)
  named := h.tables

/-- Transactions have their tables in order if those have that they start from. -/
theorem passing_orderly (whole : Prop) :
    Passing (Snapshot.Orderly whole) fun _ txn ↦ txn.Orderly whole where
  later h _ := h
  fresh {slots txn snapshot} horigin hmain htables known memory hnamed := by
    refine ⟨fun slot content hcontent hcounts ↦ ?_, htables ▸ horigin.named⟩
    rcases slot with _ | _ | index
    · cases hcontent
    · obtain rfl : txn.main = content := Option.some.inj hcontent
      rw [hmain]
      exact horigin.main (TxnSlot.counts_main.mp hcounts)
    · -- a slot that can be used is yet to be read
      have hheld : txn.named[index]? = some content := hcontent
      rw [hnamed, SlotTable.fresh, List.getElem?_map] at hheld
      obtain ⟨position, -, rfl⟩ := Option.map_eq_some_iff.mp hheld
      rcases (TxnSlot.counts_named (by simp [mainSlot])).mp hcounts with
        ⟨husable, hstale⟩ | hdirty
      · exact absurd (husable.symm.trans hstale) (by decide)
      · cases hdirty
  congr {slots txn other} h hmain htables hnamed := by
    refine ⟨fun slot content hcontent hcounts ↦ ?_, htables ▸ h.tables⟩
    rcases slot with _ | _ | index
    · cases hcontent
    · obtain rfl : other.main = content := Option.some.inj hcontent
      rw [hmain] at hcounts ⊢
      exact h.held mainSlot txn.main rfl hcounts
    · obtain ⟨fresh, hbefore⟩ := hnamed index content hcontent
      exact h.held (index + 2) { content with fresh := fresh } hbefore hcounts

/-- A database is recorded under a name. -/
theorem Orderly.withDatabase (h : txn.Orderly whole) (name : Bytes) (htable : table.Orderly) :
    Orderly whole
      { txn with
        main := { txn.main with table := txn.main.table.insert name .database }
        tables := txn.tables.insert .bytewise name table } where
  held slot content hcontent hcounts := by
    rcases slot with _ | _ | index
    · cases hcontent
    · obtain rfl := Option.some.inj hcontent
      exact (h.held mainSlot txn.main rfl hcounts).insert name fun _ ↦ rfl
    · exact h.held (index + 2) content hcontent hcounts
  tables entry hentry := by
    rcases Entries.mem_insert hentry with rfl | hentry
    · exact htable
    · exact h.tables entry hentry

/-- The named database behind a slot is removed. -/
theorem Orderly.without (h : txn.Orderly whole) (hslot : slot ≠ mainSlot) (name : Bytes) :
    (txn.without slot name).Orderly whole := by
  have hclosed : (txn.modifySlot slot fun content ↦
      { content with usable := false, stale := true, fresh := false, dirty := false }).Orderly
        whole := by
    refine h.modifySlot fun content _ hcounts ↦ ?_
    simp [TxnSlot.counts_named hslot] at hcounts
  refine ⟨fun other content hcontent hcounts ↦ ?_, fun entry hentry ↦
    hclosed.tables entry (List.mem_of_mem_filter hentry)⟩
  rcases other with _ | _ | index
  · cases hcontent
  · obtain rfl := Option.some.inj hcontent
    exact (hclosed.held mainSlot _ rfl hcounts).erase name
  · exact hclosed.held (index + 2) content hcontent hcounts

/-- A position is given to a table in order. -/
theorem Orderly.placed (h : base.Orderly whole) {index : Nat} (hindex : index ≤ base.named.length)
    (htable : content.table.Orderly) :
    Orderly whole { base with named := placeSlot base.named index content } where
  held slot kept hkept hcounts := by
    rcases slot with _ | _ | other
    · cases hkept
    · exact h.held mainSlot kept hkept hcounts
    · have hheld : (placeSlot base.named index content)[other]? = some kept := hkept
      rw [Coherent.getElem?_placeSlot _ _ hindex] at hheld
      split at hheld
      · obtain rfl := Option.some.inj hheld
        exact htable
      · exact h.held (other + 2) kept hheld hcounts
  tables := h.tables

/-- The tables of the dirty slots are recorded, or some of them. -/
theorem Orderly.record (h : txn.Orderly whole) (slots : SlotTable) (limit : Nat) {todo : List Nat}
    (htodo : ∀ slot ∈ todo, slot ≠ mainSlot) :
    (Engine.record slots limit txn todo).2.Orderly whole := by
  induction todo generalizing txn with
  | nil => exact h
  | cons slot rest ih =>
      have hrest : ∀ other ∈ rest, other ≠ mainSlot := fun other hother ↦
        htodo other (List.mem_cons_of_mem _ hother)
      have htouch := h.touch limit slots (fun hmain ↦ absurd rfl hmain)
      unfold Engine.record
      split
      · exact ih h hrest
      rename_i content hcontent
      split
      · exact ih h hrest
      rename_i hdirty
      split
      · exact h
      dsimp only
      split
      · exact h
      split <;> rename_i hc <;> rw [hc] at htouch
      · exact htouch
      · refine ih (htouch.withDatabase _ (h.held slot content hcontent ?_)) hrest
        have hdirty' : content.dirty = true := by simpa using hdirty
        exact (TxnSlot.counts_named (htodo slot List.mem_cons_self)).mpr (.inr hdirty')

/-- An open of the main database leaves the order of the keys if it finds some. -/
def KeepsOrder (txn : Txn) (flags : DbFlags) : Prop :=
  txn.main.table.isEmpty = true ∨
    Order.ofKeys (txn.main.table.flags.union flags.persistent) = .ofKeys txn.main.table.flags

/-- The main database takes on flags that leave its order. -/
theorem Orderly.mainFlags (h : txn.Orderly whole) (hkeeps : whole → txn.KeepsOrder flags) :
    Orderly whole
      { txn with
        main :=
          { txn.main with
            table :=
              { txn.main.table with flags := txn.main.table.flags.union flags.persistent } }
        changed := true } where
  held slot content hcontent hcounts := by
    rcases slot with _ | _ | index
    · cases hcontent
    · obtain rfl := Option.some.inj hcontent
      exact (h.held mainSlot txn.main rfl hcounts).addFlags
        (hkeeps (TxnSlot.counts_main.mp hcounts))
    · exact h.held (index + 2) content hcontent hcounts
  tables := h.tables

end Txn

/-! ## Uses -/

/-- An engine whose transactions and image have their tables in order. -/
structure Orderly (whole : Prop) (engine : Engine) : Prop where
  image : engine.image.snapshot.Orderly whole
  each : engine.Each fun _ txn ↦ txn.Orderly whole

/-- A record for a new database is added, or not. -/
theorem Txn.Orderly.createRecord (h : txn.Orderly whole) (engine : Engine) (name : Bytes)
    (flags : DbFlags) :
    (engine.createRecord txn name flags).2.Orderly whole ∧
      ∀ table, (engine.createRecord txn name flags).1 = .ok table → table.Orderly := by
  have hroot (hempty : txn.main.table.isEmpty = true) :
      (txn.newRoot engine.pageLimit mainSlot).2.Orderly whole :=
    h.newRoot engine.pageLimit fun content hcontent ↦
      (congrArg (·.table.isEmpty) (Option.some.inj hcontent)).symm.trans hempty
  have htouch := h.touch engine.pageLimit engine.slots (fun hmain ↦ absurd rfl hmain)
  have hnew : Table.Orderly { flags := flags.persistent } := Table.orderly_of_isEmpty rfl
  unfold Engine.createRecord
  dsimp only
  split
  · exact ⟨h, by simp [refuseSystem]⟩
  split
  · exact ⟨h, by simp [refuse]⟩
  by_cases hempty : txn.main.table.isEmpty = true
  · specialize hroot hempty
    simp only [hempty, if_true]
    split <;> rename_i hc <;> rw [hc] at hroot
    · exact ⟨hroot, by simp⟩
    · refine ⟨hroot.withDatabase name hnew, fun table htable ↦ ?_⟩
      exact Except.ok.inj htable ▸ hnew
  · simp only [hempty]
    split <;> rename_i hc <;> simp only [Bool.false_eq_true, if_false] at hc <;> rw [hc] at htouch
    · exact ⟨htouch, by simp⟩
    · refine ⟨htouch.withDatabase name hnew, fun table htable ↦ ?_⟩
      exact Except.ok.inj htable ▸ hnew

namespace Orderly

/-- A transaction that is found has its tables in order. -/
theorem found (h : engine.Orderly whole) (htxn : engine.txn? handle = some txn) :
    txn.Orderly whole :=
  h.each txn (mem_of_txn? htxn)

/-- One transaction is replaced by another with its tables in order. -/
theorem replaced (h : engine.Orderly whole) (htxn : txn.Orderly whole) :
    (engine.replace txn).Orderly whole where
  image := h.image
  each other hother := by
    rcases mem_replace hother with rfl | hbefore
    · exact htxn
    · exact h.each other hbefore

/-- The table of slots is no concern of the tables. -/
theorem withSlots (h : engine.Orderly whole) (slots : SlotTable) :
    Orderly whole { engine with slots := slots } :=
  ⟨h.image, h.each⟩

/-- An operation on a transaction keeps its tables in order. -/
theorem onTxn {α : Type} (h : engine.Orderly whole) {operation : Txn → Answer Txn α}
    (hoperation : ∀ txn : Txn, txn.Orderly whole → (operation txn).2.Orderly whole) :
    (engine.onTxn handle operation).2.Orderly whole := by
  unfold Engine.onTxn
  split
  · exact h
  · exact h.replaced (hoperation _ (h.found ‹_›))

/-- A name is given a position and its table. -/
theorem occupy (h : engine.Orderly whole) (hbase : base.Orderly whole) {index : Nat}
    (hindex : index ≤ base.named.length) (name : Bytes) (htable : table.Orderly) (created : Bool) :
    (engine.occupy base index name table created).2.Orderly whole :=
  (h.replaced (hbase.placed hindex (by exact htable))).withSlots _

/-- A database is opened, or not. -/
theorem openDatabase (h : engine.Orderly whole) (handle : Nat) (name : Option Bytes)
    (flags : DbFlags)
    (hkeeps : whole → name = none → ∀ txn, engine.txn? handle = some txn → txn.KeepsOrder flags) :
    (engine.openDatabase handle name flags).2.Orderly whole := by
  have houtcome := engine.openDatabase_outcome handle name flags
  generalize engine.openDatabase handle name flags = answer at houtcome ⊢
  cases houtcome with
  | unknown | misflagged | blocked | main => exact h
  | mainFlags htxn =>
      exact h.replaced ((h.found htxn).mainFlags fun hwhole ↦ hkeeps hwhole rfl _ htxn)
  | @named txn name answer htxn _ hnamed =>
      have hplace := searchSlots_snd_le engine.slots txn.named.length name
      have hcreate := (h.found htxn).createRecord engine name flags
      cases hnamed with
      | known | refused => exact h
      | unrecorded _ _ _ hrefused =>
          rw [hrefused] at hcreate
          exact h.replaced hcreate.1
      | found _ _ hindex =>
          exact h.occupy (h.found htxn) (hindex ▸ hplace) name
            (Snapshot.orderly_table (h.found htxn).tables name) false
      | created _ _ hindex _ hcreated =>
          have hnamed := (createRecord_ok hcreated).2.named
          rw [hcreated] at hcreate
          exact h.occupy hcreate.1 (hnamed.symm ▸ hindex ▸ hplace) name (hcreate.2 _ rfl) true

/-- A database is emptied or removed, or not. -/
theorem drop (h : engine.Orderly whole) (handle slot : Nat) (delete : Bool) :
    (engine.drop handle slot delete).2.Orderly whole := by
  have houtcome := engine.drop_outcome handle slot delete
  generalize engine.drop handle slot delete = answer at houtcome ⊢
  cases houtcome with
  | unknown | unusable | reader | outdated | blocked | unread => exact h
  | @dropped txn content answer htxn hwritable _ hslot hdrop =>
      subst hdrop
      have hread : (txn.tryLoad engine.slots slot content).Orderly whole :=
        (h.found htxn).tryLoad hwritable.usable
      have hbroken {broken : Txn} (horderly : broken.Orderly whole) :
          (engine.replace { broken with broken := true }).Orderly whole :=
        h.replaced (horderly.of_eq rfl rfl rfl)
      have htouch := hread.touch engine.pageLimit engine.slots (fun hmain ↦ absurd rfl hmain)
      unfold Engine.dropSlot
      dsimp only
      split
      · exact hbroken hread
      split
      · exact hbroken hread
      split <;> rename_i hc <;> rw [hc] at htouch
      · exact hbroken htouch
      · split
        · exact hbroken htouch
        · exact (h.replaced (htouch.without hslot _)).withSlots _
  | @cleared txn content htxn hwritable =>
      have hread : (txn.tryLoad engine.slots slot content).Orderly whole :=
        (h.found htxn).tryLoad hwritable.usable
      have hcleared : ((txn.tryLoad engine.slots slot content).modifySlot slot fun content ↦
          { content with dirty := true, table := content.table.clear }).Orderly whole :=
        hread.modifySlot fun _ _ _ ↦ Table.orderly_of_isEmpty rfl
      exact h.replaced (hcleared.of_eq rfl rfl rfl)

/-- Whatever is done through a transaction keeps the tables in order, unless it gives the main
database another order. -/
theorem use (h : engine.Orderly whole) (handle : Nat) (use : Use)
    (hkeeps : whole → ∀ flags, use = .openDatabase none flags →
      ∀ txn, engine.txn? handle = some txn → txn.KeepsOrder flags) :
    (engine.use handle use).Orderly whole := by
  cases use with
  | get slot key => exact h.onTxn fun _ htxn ↦ htxn.get ..
  | stat slot => exact h.onTxn fun _ htxn ↦ htxn.stat ..
  | put slot key payload flags => exact h.onTxn fun _ htxn ↦ htxn.put ..
  | reserve slot key data flags =>
      have hput : (engine.put handle slot key (.reserved data.length) flags).2.Orderly whole :=
        h.onTxn fun _ htxn ↦ htxn.put ..
      dsimp only [Engine.use]
      split <;> rename_i hc <;> rw [hc] at hput
      · exact hput.onTxn fun _ htxn ↦ htxn.fill ..
      · exact hput
  | del slot key item => exact h.onTxn fun _ htxn ↦ htxn.del ..
  | drop slot delete => exact h.drop handle slot delete
  | openDatabase name flags =>
      exact h.openDatabase handle name flags fun hwhole hname ↦ hkeeps hwhole flags (by rw [hname])

/-! ## Beginnings and ends -/

/-- A transaction begins. -/
theorem began (h : engine.Orderly whole) {parent : Option Nat} {flags : TxnFlags}
    (hbegan : Began engine parent flags handle after) : after.Orderly whole where
  image := by
    cases hbegan with
    | reading | root | nested => exact h.image
  each := h.each.began (Txn.passing_orderly whole) h.image hbegan

/-- A transaction ends without a commit. -/
theorem ended (h : engine.Orderly whole) (hroster : Roster engine) {middle : Engine}
    (hrefused : Refused engine handle middle) : (middle.abort handle).Orderly whole where
  image := by
    rw [(abort_cases (hroster.of_stays hrefused.stays) handle).2.2.1, hrefused.stays.image]
    exact h.image
  each := h.each.ended (Txn.passing_orderly whole) hroster hrefused

/-- A transaction is aborted. -/
theorem abort (h : engine.Orderly whole) (hroster : Roster engine) (handle : Nat) :
    (engine.abort handle).Orderly whole :=
  h.ended hroster (.refl engine handle)

/-- A transaction commits, or ends because its commit is refused. -/
theorem commit (h : engine.Orderly whole) (hroster : Roster engine) (handle : Nat) :
    (engine.commit handle).2.Orderly whole := by
  rcases commit_cases hroster handle with
    ⟨after, hcommit, hcommitted⟩ | ⟨code, middle, hcommit, hrefused⟩
  · rw [hcommit]
    refine ⟨?_, h.each.committed (Txn.passing_orderly whole) hcommitted⟩
    rcases commit_published hroster hcommit with himage | ⟨txn, recorded, htxn, -, hrecord, himage⟩
    · rw [himage]
      exact h.image
    · -- the root has recorded tables that were in order before
      have htodo : ∀ slot ∈ (List.range txn.named.length).map (· + firstSlot), slot ≠ mainSlot :=
        fun _ ↦ mem_range_slots
      have horderly := (h.found htxn).record engine.slots engine.pageLimit htodo
      rw [hrecord] at horderly
      rw [himage]
      exact horderly.snapshot
  · rw [hcommit]
    exact h.ended hroster hrefused

/-- A reader is reset. -/
theorem reset (h : engine.Orderly whole) (handle : Nat) : (engine.reset handle).Orderly whole where
  image := by
    have hreset := engine.reset_cases handle
    generalize engine.reset handle = after at hreset ⊢
    cases hreset with
    | same | idle => exact h.image
  each := h.each.reset (Txn.passing_orderly whole) (engine.reset_cases handle)

/-- A reader is renewed. -/
theorem renewed (h : engine.Orderly whole) (hrenewed : Renewed engine handle after) :
    after.Orderly whole where
  image := by
    cases hrenewed with
    | mk => exact h.image
  each := h.each.renewed (Txn.passing_orderly whole) h.image hrenewed

/-- Something happens beside the transactions. -/
theorem aside (h : engine.Orderly whole) (haside : Aside engine after) : after.Orderly whole where
  image := by
    obtain ⟨readers, next, -, rfl⟩ := haside
    exact h.image
  each := h.each.aside haside

end Orderly

end Engine

/-! ## Data files -/

namespace Files

variable {whole : Prop} {tree : Tree} {path : Bytes} {location : Location} {node : Node}
  {file : File}

/-- A file whose image, if it has one, has its tables in order. -/
def File.Orderly (whole : Prop) (file : File) : Prop :=
  ∀ image, file.image = some image → image.snapshot.Orderly whole

/-- A tree whose files have their tables in order. -/
def Tree.Orderly (whole : Prop) (tree : Tree) : Prop :=
  ∀ location file, (location, Node.file file) ∈ tree.entries → file.Orderly whole

/-- A file without an image. -/
theorem File.orderly_of_none (h : file.image = none) : file.Orderly whole := fun image himage ↦ by
  rw [h] at himage
  cases himage

/-- A file is cut or extended. -/
theorem File.Orderly.resize (h : file.Orderly whole) (length : Nat) :
    (file.resize length).Orderly whole := by
  intro image himage
  dsimp only [File.resize] at himage
  split at himage
  · cases himage
  · exact h image himage

namespace Tree.Orderly

/-- A file that lies at a place. -/
theorem node? (h : tree.Orderly whole) (hnode : tree.node? location = some (.file file)) :
    file.Orderly whole := by
  unfold Tree.node? at hnode
  split at hnode
  · cases hnode
  · obtain ⟨front, back, hentries, -⟩ := List.lookup_eq_some_iff.mp hnode
    exact h location file (by simp [hentries])

/-- Something is placed at a location. -/
theorem place (h : tree.Orderly whole) (location : Location)
    (hnode : ∀ file, node = .file file → file.Orderly whole) :
    (tree.place location node).Orderly whole := by
  intro other file hmem
  rcases List.mem_cons.mp hmem with heq | hmem
  · exact hnode file (congrArg Prod.snd heq).symm
  · exact h other file (List.mem_of_mem_filter hmem)

/-- A file that a path names. -/
theorem locate (h : tree.Orderly whole) (hlocate : tree.locate path = .ok (location, .file file)) :
    file.Orderly whole := by
  unfold Tree.locate at hlocate
  split at hlocate
  · cases hlocate
  split at hlocate
  · cases hlocate
  split at hlocate
  · cases hlocate
  · split at hlocate
    · rename_i hnode
      obtain ⟨rfl, rfl⟩ := Prod.mk.inj (Except.ok.inj hlocate)
      exact h.node? hnode
    · cases hlocate

/-- A file that lies where a path would create one. -/
theorem target (h : tree.Orderly whole)
    (htarget : tree.target path = .ok (location, some (.file file))) : file.Orderly whole := by
  unfold Tree.target at htarget
  split at htarget
  · cases htarget
  split at htarget
  · cases htarget
  split at htarget
  · cases htarget
  split at htarget
  · cases htarget
  split at htarget
  · cases htarget
  split at htarget
  · cases htarget
  split at htarget
  · cases htarget
  · exact h.node? (Prod.mk.inj (Except.ok.inj htarget)).2

/-- A file is opened, or created empty, or not. -/
theorem openOrCreate (h : tree.Orderly whole) (path : Bytes) (mode : Nat) :
    (tree.openOrCreate path mode).2.Orderly whole ∧
      ∀ location file, (tree.openOrCreate path mode).1 = .ok (location, file) →
        file.Orderly whole := by
  have hnew : File.Orderly whole { mode := mode } := File.orderly_of_none rfl
  unfold Tree.openOrCreate
  split
  · exact ⟨h, by simp⟩
  · exact ⟨h, by simp⟩
  · rename_i htarget
    refine ⟨h, fun location file hfile ↦ ?_⟩
    dsimp only at hfile
    split at hfile
    · cases hfile
    · obtain ⟨rfl, rfl⟩ := Prod.mk.inj (Except.ok.inj hfile)
      exact h.target htarget
  · split
    · exact ⟨h, by simp⟩
    · refine ⟨h.place _ fun file hfile ↦ ?_, fun location file hfile ↦ ?_⟩
      · exact Node.file.inj hfile ▸ hnew
      · exact (Prod.mk.inj (Except.ok.inj hfile)).2 ▸ hnew

end Tree.Orderly

end Files

namespace Engine

open Files (File Location Node Tree)

variable {whole : Prop} {engine : Engine} {tree files : Tree} {path : Bytes} {flags : EnvFlags}
  {config : Config} {file : File}

/-- A lock file is opened or created, or not. -/
theorem orderly_openLock (h : tree.Orderly whole) (path : Bytes) (mode readers : Nat) :
    (openLock tree path mode readers).2.Orderly whole := by
  have hopen := h.openOrCreate path mode
  unfold openLock
  split <;> rename_i hc <;> rw [hc] at hopen
  · exact hopen.1
  · split
    · refine hopen.1.place _ fun file hfile ↦ ?_
      exact Node.file.inj hfile ▸ (hopen.2 _ _ rfl).resize _
    · exact hopen.1

/-- A lock file is opened or created if one is wanted, or not. -/
theorem orderly_locked (h : tree.Orderly whole) (unwanted : Bool) (path : Bytes)
    (mode readers : Nat) :
    Tree.Orderly whole
      (if unwanted then ((.ok readers : Except Files.Errno Nat), tree)
      else openLock tree path mode readers).2 := by
  split
  · exact h
  · exact orderly_openLock h path mode readers

/-- The image in a data file. -/
theorem orderly_readImage (h : file.Orderly whole) {image : Image}
    (hread : readImage file = .ok (some image)) : image.snapshot.Orderly whole := by
  unfold readImage at hread
  split at hread
  · cases hread
  split at hread
  · cases hread
  split at hread
  · cases hread
  · obtain rfl := Option.some.inj (Except.ok.inj hread)
    cases himage : file.image with
    | none => exact Snapshot.orderly_empty
    | some image => exact h image himage

/-- An engine that has just been started on an image. -/
theorem orderly_of_image (himage : engine.image.snapshot.Orderly whole)
    (hwriters : engine.writers = []) (hreading : engine.reading = []) : engine.Orderly whole where
  image := himage
  each txn htxn := by simp [hwriters, hreading] at htxn

/-- An engine is started on a data file in order, or not. -/
theorem orderly_start (h : tree.Orderly whole) (hfile : file.Orderly whole) (location : Location)
    (config : Config) (flags : EnvFlags) (capacity : Nat) :
    (start tree location file config flags capacity).2.Orderly whole ∧
      ∀ engine, (start tree location file config flags capacity).1 = .ok engine →
        engine.Orderly whole := by
  unfold start
  dsimp only
  split
  · exact ⟨h, by simp⟩
  · refine ⟨h, fun engine hengine ↦ ?_⟩
    dsimp only at hengine
    split at hengine
    · cases hengine
    · exact Except.ok.inj hengine ▸ orderly_of_image (orderly_readImage hfile ‹_›) rfl rfl
  · split
    · exact ⟨h, by simp⟩
    · refine ⟨h.place _ fun file hplaced image himage ↦ ?_, fun engine hengine ↦ ?_⟩
      · obtain rfl := Node.file.inj hplaced
        exact Option.some.inj himage ▸ Snapshot.orderly_empty
      · dsimp only at hengine
        split at hengine
        · cases hengine
        · exact Except.ok.inj hengine ▸ orderly_of_image Snapshot.orderly_empty rfl rfl

/-- An environment is opened on files in order, or not. -/
theorem orderly_openAt (h : tree.Orderly whole) (path : Bytes) (flags : EnvFlags)
    (config : Config) :
    (openAt tree path flags config).2.Orderly whole ∧
      ∀ engine, (openAt tree path flags config).1 = .ok engine → engine.Orderly whole := by
  unfold openAt
  split
  · exact ⟨h, by simp⟩
  split
  · unfold openReadOnly
    split
    · exact ⟨h, by simp⟩
    rename_i location node hlocate
    -- the lock file comes after the data file has been found
    have hlock := orderly_locked h ((flags.minus EnvFlags.writeMap).contains EnvFlags.noLock)
      (lockPath path (flags.minus EnvFlags.writeMap)) (Files.masked config.mode.toNat)
      config.maxReaders.toNat
    dsimp only
    split
    · exact ⟨hlock, by simp⟩
    · exact ⟨hlock, by simp⟩
    · exact orderly_start hlock (h.locate hlocate) ..
  · unfold openWritable
    have hlock := orderly_locked h (flags.contains EnvFlags.noLock) (lockPath path flags)
      (Files.masked config.mode.toNat) config.maxReaders.toNat
    dsimp only
    split
    · exact ⟨hlock, by simp⟩
    have hopen := hlock.openOrCreate (dataPath path flags) (Files.masked config.mode.toNat)
    split <;> rename_i hc <;> rw [hc] at hopen
    · exact ⟨hopen.1, by simp⟩
    · exact orderly_start hopen.1 (hopen.2 _ _ rfl) ..

/-- An engine leaves its image in the data file. -/
theorem Orderly.close (h : engine.Orderly whole) (htree : tree.Orderly whole) :
    (engine.close tree).Orderly whole := by
  unfold Engine.close
  split
  · refine htree.place _ fun file hplaced image himage ↦ ?_
    obtain rfl := Node.file.inj hplaced
    exact Option.some.inj himage ▸ h.image
  · exact htree

/-- An empty file is created, or not. -/
theorem orderly_createNew (h : tree.Orderly whole) (path : Bytes) (mode : Nat) :
    (tree.createNew path { mode := mode }).2.Orderly whole := by
  unfold Tree.createNew
  split
  · exact h
  · exact h
  · refine h.place _ fun file hplaced ↦ ?_
    exact Node.file.inj hplaced ▸ File.orderly_of_none rfl

/-- An engine is copied to a new file, or not. -/
theorem Orderly.copy (h : engine.Orderly whole) (htree : tree.Orderly whole) (path : Bytes)
    (flags : CopyFlags) (thread : Nat) :
    (engine.copy tree path flags thread).2.2.Orderly whole := by
  have hcopied : (engine.copiedImage flags).snapshot.Orderly whole := by
    unfold copiedImage
    split <;> exact h.image
  have hnew := orderly_createNew htree (dataPath path (engine.flags.inter EnvFlags.noSubdir))
    (Files.masked 0o666)
  unfold Engine.copy
  dsimp only
  split <;> rename_i hc <;> rw [hc] at hnew
  · exact hnew
  rcases engine.beginRead_cases thread with ⟨code, hbegin⟩ | ⟨reader, readers, hbegin⟩
  · rw [hbegin]
    exact hnew
  · rw [hbegin]
    refine hnew.place _ fun file hplaced image himage ↦ ?_
    obtain rfl := Node.file.inj hplaced
    exact Option.some.inj himage ▸ hcopied

end Engine

end MappedStore
