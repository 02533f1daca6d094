import MappedStore.Engine.Catalog

/-!
# How uses of the engine end

A relation for each use that a transaction can make of a slot lists the answers that it can get,
with the transaction or the engine that is left, under what the use has found
(`Txn.GetOutcome`, `Txn.PutOutcome`, `DropOutcome` and so on). Checks come in the order of the
constructors.
-/

namespace MappedStore.Engine

/-- The value that a removal asks for. In a table without duplicates it asks for none, whatever it
is given. -/
def Table.asked (table : Table) (item : Option Bytes) : Option Bytes :=
  if table.hasDuplicates then item else none

/-- A removal that is given no value asks for none. -/
theorem Table.asked_none (table : Table) : table.asked none = none := ite_self none

namespace Txn

variable {txn : Txn} {limit : Nat} {slots : SlotTable} {blocked : Bool} {slot : Nat} {key : Bytes}

/-! ## Reading -/

/-- How a look-up of a value can end. -/
inductive GetOutcome (txn : Txn) (slots : SlotTable) (blocked : Bool) (slot : Nat) (key : Bytes) :
    Answer Txn Bytes → Prop where
  | unusable (husable : txn.usable? slot = none) :
      GetOutcome txn slots blocked slot key (refuseSystem SystemText.invalidArgument txn)
  | blocked {content : TxnSlot} (husable : txn.usable? slot = some content)
      (hblocked : blocked = true) : GetOutcome txn slots blocked slot key (refuse .badTxn txn)
  | unread {content : TxnSlot} {condition : Condition} (husable : txn.usable? slot = some content)
      (hblocked : blocked = false) (hload : txn.load slots slot content = .error condition) :
      GetOutcome txn slots blocked slot key
        (refuse (if key.isEmpty then .badValSize else condition) txn)
  | nameless {content loaded : TxnSlot} (husable : txn.usable? slot = some content)
      (hblocked : blocked = false) (hload : txn.load slots slot content = .ok loaded)
      (hkey : key.isEmpty = true) :
      GetOutcome txn slots blocked slot key (refuse .badValSize (txn.setSlot slot loaded))
  | missed {content loaded : TxnSlot} (husable : txn.usable? slot = some content)
      (hblocked : blocked = false) (hload : txn.load slots slot content = .ok loaded)
      (hkey : key.isEmpty = false) (hfind : loaded.table.find? key = none) :
      GetOutcome txn slots blocked slot key (refuse .notFound (txn.setSlot slot loaded))
  | found {content loaded : TxnSlot} {record : Record} (husable : txn.usable? slot = some content)
      (hblocked : blocked = false) (hload : txn.load slots slot content = .ok loaded)
      (hkey : key.isEmpty = false) (hfind : loaded.table.find? key = some record) :
      GetOutcome txn slots blocked slot key (.ok record.read, txn.setSlot slot loaded)

/-- Every look-up of a value ends so. -/
theorem get_outcome (txn : Txn) (slots : SlotTable) (blocked : Bool) (slot : Nat) (key : Bytes) :
    GetOutcome txn slots blocked slot key (txn.get slots blocked slot key) := by
  unfold get
  split
  · exact .unusable ‹_›
  rename_i content husable
  cases blocked with
  | true => exact .blocked husable rfl
  | false =>
      cases hload : txn.load slots slot content with
      | error condition => exact .unread husable rfl hload
      | ok loaded =>
          cases hkey : key.isEmpty with
          | true => exact .nameless husable rfl hload hkey
          | false =>
              cases hfind : loaded.table.find? key with
              | none => simpa [hfind] using GetOutcome.missed husable rfl hload hkey hfind
              | some record => simpa [hfind] using GetOutcome.found husable rfl hload hkey hfind

/-- How a question for figures can end. -/
inductive StatOutcome (txn : Txn) (slots : SlotTable) (blocked : Bool) (slot : Nat) :
    Answer Txn Stat → Prop where
  | unusable (husable : txn.usable? slot = none) :
      StatOutcome txn slots blocked slot (refuseSystem SystemText.invalidArgument txn)
  | blocked {content : TxnSlot} (husable : txn.usable? slot = some content)
      (hblocked : blocked = true) : StatOutcome txn slots blocked slot (refuse .badTxn txn)
  | unread {content : TxnSlot} {condition : Condition} (husable : txn.usable? slot = some content)
      (hblocked : blocked = false) (hload : txn.load slots slot content = .error condition) :
      StatOutcome txn slots blocked slot (.ok content.table.stat, txn)
  | answered {content loaded : TxnSlot} (husable : txn.usable? slot = some content)
      (hblocked : blocked = false) (hload : txn.load slots slot content = .ok loaded) :
      StatOutcome txn slots blocked slot (.ok loaded.table.stat, txn.setSlot slot loaded)

/-- Every question for figures ends so. -/
theorem stat_outcome (txn : Txn) (slots : SlotTable) (blocked : Bool) (slot : Nat) :
    StatOutcome txn slots blocked slot (txn.stat slots blocked slot) := by
  unfold stat
  split
  · exact .unusable ‹_›
  rename_i content husable
  cases blocked with
  | true => exact .blocked husable rfl
  | false =>
      cases hload : txn.load slots slot content with
      | error condition => exact .unread husable rfl hload
      | ok loaded => exact .answered husable rfl hload

/-! ## Storing -/

/-- What a write has found before it looks at its key: a slot that can be used, and a transaction
that can write and is not blocked. -/
structure Writable (txn : Txn) (blocked : Bool) (slot : Nat) (content : TxnSlot) : Prop where
  usable : txn.usable? slot = some content
  writer : txn.readOnly = false
  unblocked : blocked = false

/-- How a write of a value can end. The first entry of an empty table is not compared with any
other. -/
inductive PutOutcome (txn : Txn) (limit : Nat) (slots : SlotTable) (blocked : Bool) (slot : Nat)
    (key : Bytes) (payload : Payload) (flags : WriteFlags) : Answer Txn Unit → Prop where
  | unusable (husable : txn.usable? slot = none) :
      PutOutcome txn limit slots blocked slot key payload flags
        (refuseSystem SystemText.invalidArgument txn)
  | misflagged {content : TxnSlot} (husable : txn.usable? slot = some content)
      (hflags : WriteFlags.accepted.contains flags = false) :
      PutOutcome txn limit slots blocked slot key payload flags
        (refuseSystem SystemText.invalidArgument txn)
  | reader {content : TxnSlot} (husable : txn.usable? slot = some content)
      (hreader : txn.readOnly = true) :
      PutOutcome txn limit slots blocked slot key payload flags
        (refuseSystem SystemText.denied txn)
  | blocked {content : TxnSlot} (husable : txn.usable? slot = some content)
      (hwriter : txn.readOnly = false) (hblocked : blocked = true) :
      PutOutcome txn limit slots blocked slot key payload flags (refuse .badTxn txn)
  | missized {content : TxnSlot} (h : txn.Writable blocked slot content) :
      PutOutcome txn limit slots blocked slot key payload flags
        (refuse .badValSize (txn.tryLoad slots slot content))
  | unread {content : TxnSlot} {condition : Condition} (h : txn.Writable blocked slot content)
      (hkey : key.length ≤ maxKeySize) (hload : txn.load slots slot content = .error condition) :
      PutOutcome txn limit slots blocked slot key payload flags (refuse condition txn)
  | seeded {content : TxnSlot} {condition : Condition} {answer : Answer Txn Unit}
      (h : txn.Writable blocked slot content) (hkey : key.length ≤ maxKeySize)
      (hload : txn.load slots slot content = .error condition)
      (hempty : content.table.isEmpty = true) (hread : content.unread = false)
      (hfirst : txn.insertFirst limit slot key payload = answer) :
      PutOutcome txn limit slots blocked slot key payload flags answer
  | first {content loaded : TxnSlot} {answer : Answer Txn Unit}
      (h : txn.Writable blocked slot content) (hkey : key.length ≤ maxKeySize)
      (hload : txn.load slots slot content = .ok loaded) (hempty : loaded.table.isEmpty = true)
      (hfirst : (txn.setSlot slot loaded).insertFirst limit slot key payload = answer) :
      PutOutcome txn limit slots blocked slot key payload flags answer
  | unmet {content loaded : TxnSlot} {condition : Condition}
      (h : txn.Writable blocked slot content) (hkey : key.length ≤ maxKeySize)
      (hload : txn.load slots slot content = .ok loaded)
      (hmeet : meet loaded.table key flags = .error condition) :
      PutOutcome txn limit slots blocked slot key payload flags
        (refuse condition (txn.setSlot slot loaded))
  | untouched {content loaded : TxnSlot} {found : Option Record} {code : Code} {touched : Txn}
      (h : txn.Writable blocked slot content) (hkey : key.length ≤ maxKeySize)
      (hload : txn.load slots slot content = .ok loaded)
      (hmeet : meet loaded.table key flags = .ok found)
      (htouch : (txn.setSlot slot loaded).touch limit slots slot = (.error code, touched)) :
      PutOutcome txn limit slots blocked slot key payload flags (.error code, touched)
  | stored {content loaded : TxnSlot} {found : Option Record} {touched : Txn}
      {answer : Answer Txn Unit} (h : txn.Writable blocked slot content)
      (hkey : key.length ≤ maxKeySize) (hload : txn.load slots slot content = .ok loaded)
      (hmeet : meet loaded.table key flags = .ok found)
      (htouch : (txn.setSlot slot loaded).touch limit slots slot = (.ok (), touched))
      (hstore : touched.store limit slot loaded.table key payload flags found = answer) :
      PutOutcome txn limit slots blocked slot key payload flags answer

/-- Every write of a value ends so. -/
theorem put_outcome (txn : Txn) (limit : Nat) (slots : SlotTable) (blocked : Bool) (slot : Nat)
    (key : Bytes) (payload : Payload) (flags : WriteFlags) :
    PutOutcome txn limit slots blocked slot key payload flags
      (txn.put limit slots blocked slot key payload flags) := by
  unfold put
  split
  · exact .unusable ‹_›
  rename_i content husable
  split
  · rename_i hflags
    exact .misflagged husable (by simpa using hflags)
  split
  · exact .reader husable ‹_›
  rename_i hreader
  have hwriter : txn.readOnly = false := by simpa using hreader
  split
  · exact .blocked husable hwriter ‹_›
  rename_i hblocked
  have h : txn.Writable blocked slot content := ⟨husable, hwriter, by simpa using hblocked⟩
  split
  · exact .missized h
  rename_i hsizes
  have hkey : key.length ≤ maxKeySize := by
    simp only [Bool.or_eq_true, decide_eq_true_eq, not_or, Nat.not_lt] at hsizes
    exact hsizes.1.2
  split
  · rename_i hload
    split
    · rename_i hseed
      simp only [Bool.and_eq_true, Bool.not_eq_true'] at hseed
      exact .seeded h hkey hload hseed.1 hseed.2 rfl
    · exact .unread h hkey hload
  rename_i loaded hload
  dsimp only
  split
  · exact .first h hkey hload ‹_› rfl
  split
  · exact .unmet h hkey hload ‹_›
  rename_i found hmeet
  split
  · exact .untouched h hkey hload hmeet ‹_›
  · exact .stored h hkey hload hmeet ‹_› rfl

/-! ## Removing -/

/-- How a removal can end. One that meets the record of a database breaks the transaction. -/
inductive DelOutcome (txn : Txn) (limit : Nat) (slots : SlotTable) (blocked : Bool) (slot : Nat)
    (key : Bytes) (item : Option Bytes) : Answer Txn Unit → Prop where
  | unusable (husable : txn.usable? slot = none) :
      DelOutcome txn limit slots blocked slot key item
        (refuseSystem SystemText.invalidArgument txn)
  | reader {content : TxnSlot} (husable : txn.usable? slot = some content)
      (hreader : txn.readOnly = true) :
      DelOutcome txn limit slots blocked slot key item (refuseSystem SystemText.denied txn)
  | blocked {content : TxnSlot} (husable : txn.usable? slot = some content)
      (hwriter : txn.readOnly = false) (hblocked : blocked = true) :
      DelOutcome txn limit slots blocked slot key item (refuse .badTxn txn)
  | nameless {content : TxnSlot} (h : txn.Writable blocked slot content)
      (hkey : key.isEmpty = true) :
      DelOutcome txn limit slots blocked slot key item
        (refuse .badValSize (txn.tryLoad slots slot content))
  | unread {content : TxnSlot} {condition : Condition} (h : txn.Writable blocked slot content)
      (hkey : key.isEmpty = false) (hload : txn.load slots slot content = .error condition) :
      DelOutcome txn limit slots blocked slot key item (refuse condition txn)
  | missed {content loaded : TxnSlot} (h : txn.Writable blocked slot content)
      (hkey : key.isEmpty = false) (hload : txn.load slots slot content = .ok loaded)
      (hfind : loaded.table.find? key = none) :
      DelOutcome txn limit slots blocked slot key item (refuse .notFound (txn.setSlot slot loaded))
  | unlisted {content loaded : TxnSlot} {items : List Bytes} {run : Run} {value : Bytes}
      (h : txn.Writable blocked slot content)
      (hkey : key.isEmpty = false) (hload : txn.load slots slot content = .ok loaded)
      (hfind : loaded.table.find? key = some (.values items run))
      (hasked : loaded.table.asked item = some value) (hmissing : value ∉ items) :
      DelOutcome txn limit slots blocked slot key item (refuse .notFound (txn.setSlot slot loaded))
  | untouched {content loaded : TxnSlot} {code : Code} {touched : Txn}
      (h : txn.Writable blocked slot content)
      (hkey : key.isEmpty = false) (hload : txn.load slots slot content = .ok loaded)
      (htouch : (txn.setSlot slot loaded).touch limit slots slot = (.error code, touched)) :
      DelOutcome txn limit slots blocked slot key item (.error code, touched)
  | database {content loaded : TxnSlot} {touched : Txn} (h : txn.Writable blocked slot content)
      (hkey : key.isEmpty = false) (hload : txn.load slots slot content = .ok loaded)
      (hfind : loaded.table.find? key = some .database)
      (htouch : (txn.setSlot slot loaded).touch limit slots slot = (.ok (), touched)) :
      DelOutcome txn limit slots blocked slot key item
        (refuse .incompatible { touched with broken := true })
  | removed {content loaded : TxnSlot} {items : List Bytes} {run : Run} {touched : Txn}
      (h : txn.Writable blocked slot content)
      (hkey : key.isEmpty = false) (hload : txn.load slots slot content = .ok loaded)
      (hfind : loaded.table.find? key = some (.values items run))
      (hlisted : ∀ value, loaded.table.asked item = some value → value ∈ items)
      (htouch : (txn.setSlot slot loaded).touch limit slots slot = (.ok (), touched)) :
      DelOutcome txn limit slots blocked slot key item
        (.ok (), touched.modifyTable slot fun table ↦
          if ((loaded.table.asked item).elim [] items.erase).isEmpty then table.erase key
          else table.insert key (.values ((loaded.table.asked item).elim [] items.erase) run))

/-- Every removal ends so. -/
theorem del_outcome (txn : Txn) (limit : Nat) (slots : SlotTable) (blocked : Bool) (slot : Nat)
    (key : Bytes) (item : Option Bytes) :
    DelOutcome txn limit slots blocked slot key item
      (txn.del limit slots blocked slot key item) := by
  unfold del
  split
  · exact .unusable ‹_›
  rename_i content husable
  split
  · exact .reader husable ‹_›
  rename_i hreader
  have hwriter : txn.readOnly = false := by simpa using hreader
  split
  · exact .blocked husable hwriter ‹_›
  rename_i hblocked
  have h : txn.Writable blocked slot content := ⟨husable, hwriter, by simpa using hblocked⟩
  split
  · exact .nameless h ‹_›
  rename_i hkey
  have hkey : key.isEmpty = false := by simpa using hkey
  split
  · exact .unread h hkey ‹_›
  rename_i loaded hload
  dsimp only
  rw [show (if loaded.table.hasDuplicates then item else none) = loaded.table.asked item from rfl]
  split
  · exact .missed h hkey hload ‹_›
  · split
    · exact .untouched h hkey hload ‹_›
    · exact .database h hkey hload ‹_› ‹_›
  rename_i items run hfind
  split
  · rename_i hunlisted
    obtain ⟨value, hasked, hmissing⟩ : ∃ value, loaded.table.asked item = some value ∧
        value ∉ items := by
      simpa [Option.any_eq_true] using hunlisted
    exact .unlisted h hkey hload hfind hasked hmissing
  rename_i hlisted
  split
  · exact .untouched h hkey hload ‹_›
  · refine .removed h hkey hload hfind (fun value hasked ↦ ?_) ‹_›
    simpa [hasked] using hlisted

end Txn

variable {engine : Engine} {handle : Nat} {txn : Txn}

/-- A transaction that is not blocked is not broken, and if it can write, then it is the innermost
writer. -/
theorem isBlocked_eq_false :
    engine.isBlocked txn = false ↔ txn.broken = false ∧
      (txn.readOnly = false → engine.writers.head?.map (·.handle) = some txn.handle) := by
  cases hreader : txn.readOnly <;> simp [isBlocked, hreader]

/-! ## Opening -/

/-- How an open of a named database can end. It can be refused for one of four conditions before
anything changes. -/
inductive OpenNamedOutcome (engine : Engine) (txn : Txn) (name : Bytes) (flags : DbFlags) :
    Answer Engine Nat → Prop where
  | known {index : Nat}
      (hsearch : (searchSlots engine.slots txn.named.length name).1 = some index) :
      OpenNamedOutcome engine txn name flags (.ok (index + firstSlot), engine)
  | refused {condition : Condition}
      (hsearch : (searchSlots engine.slots txn.named.length name).1 = none)
      (hcondition : condition ∈ [Condition.dbsFull, .incompatible, .notFound, .badValSize]) :
      OpenNamedOutcome engine txn name flags (refuse condition engine)
  | unrecorded {code : Code} {base : Txn}
      (hsearch : (searchSlots engine.slots txn.named.length name).1 = none) (hname : name ≠ [])
      (hfind : txn.main.table.find? name = none)
      (hcreate : engine.createRecord txn name flags = (.error code, base)) :
      OpenNamedOutcome engine txn name flags (.error code, engine.replace base)
  | found {index : Nat}
      (hsearch : (searchSlots engine.slots txn.named.length name).1 = none) (hname : name ≠ [])
      (hindex : (searchSlots engine.slots txn.named.length name).2.getD txn.named.length = index)
      (hfind : txn.main.table.find? name = some .database) :
      OpenNamedOutcome engine txn name flags
        (engine.occupy txn index name (txn.snapshot.table name) false)
  | created {index : Nat} {table : Table} {base : Txn}
      (hsearch : (searchSlots engine.slots txn.named.length name).1 = none) (hname : name ≠ [])
      (hindex : (searchSlots engine.slots txn.named.length name).2.getD txn.named.length = index)
      (hfind : txn.main.table.find? name = none)
      (hcreate : engine.createRecord txn name flags = (.ok table, base)) :
      OpenNamedOutcome engine txn name flags (engine.occupy base index name table true)

/-- Every open of a named database ends so. -/
theorem openNamed_outcome (engine : Engine) (txn : Txn) (name : Bytes) (flags : DbFlags) :
    OpenNamedOutcome engine txn name flags (engine.openNamed txn name flags) := by
  unfold openNamed
  split
  · rename_i hsearch
    exact .known (congrArg Prod.fst hsearch)
  rename_i unused hsearch
  have hnone : (searchSlots engine.slots txn.named.length name).1 = none := congrArg Prod.fst hsearch
  have hunused : (searchSlots engine.slots txn.named.length name).2 = unused :=
    congrArg Prod.snd hsearch
  dsimp only
  split
  · exact .refused hnone (by simp)
  split
  · split <;> exact .refused hnone (by simp)
  split
  · exact .refused hnone (by simp)
  rename_i hname
  have hname : name ≠ [] := by simpa using hname
  split
  · exact .found hnone hname (by rw [hunused]) ‹_›
  · exact .refused hnone (by simp)
  rename_i hfind
  split
  · exact .refused hnone (by simp)
  split
  · exact .unrecorded hnone hname hfind ‹_›
  · exact .created hnone hname (by rw [hunused]) hfind ‹_›

/-- How an open of a database can end. The main database takes on the flags that it lacks. -/
inductive OpenDatabaseOutcome (engine : Engine) (handle : Nat) (flags : DbFlags) :
    Option Bytes → Answer Engine Nat → Prop where
  | unknown {name : Option Bytes} (htxn : engine.txn? handle = none) :
      OpenDatabaseOutcome engine handle flags name
        (refuseSystem SystemText.invalidArgument engine)
  | misflagged {name : Option Bytes} {txn : Txn} (htxn : engine.txn? handle = some txn) :
      OpenDatabaseOutcome engine handle flags name
        (refuseSystem SystemText.invalidArgument engine)
  | blocked {name : Option Bytes} {txn : Txn} (htxn : engine.txn? handle = some txn)
      (hblocked : engine.isBlocked txn = true) :
      OpenDatabaseOutcome engine handle flags name (refuse .badTxn engine)
  | main {txn : Txn} (htxn : engine.txn? handle = some txn)
      (hblocked : engine.isBlocked txn = false) :
      OpenDatabaseOutcome engine handle flags none (.ok mainSlot, engine)
  | mainFlags {txn : Txn} (htxn : engine.txn? handle = some txn)
      (hblocked : engine.isBlocked txn = false) :
      OpenDatabaseOutcome engine handle flags none
        (.ok mainSlot,
          engine.replace
            { txn with
              main :=
                { txn.main with
                  table :=
                    { txn.main.table with
                      flags := txn.main.table.flags.union flags.persistent } }
              changed := true })
  | named {txn : Txn} {name : Bytes} {answer : Answer Engine Nat}
      (htxn : engine.txn? handle = some txn) (hblocked : engine.isBlocked txn = false)
      (h : OpenNamedOutcome engine txn name flags answer) :
      OpenDatabaseOutcome engine handle flags (some name) answer

/-- Every open of a database ends so. -/
theorem openDatabase_outcome (engine : Engine) (handle : Nat) (name : Option Bytes)
    (flags : DbFlags) :
    OpenDatabaseOutcome engine handle flags name (engine.openDatabase handle name flags) := by
  unfold openDatabase
  split
  · exact .unknown ‹_›
  rename_i txn htxn
  split
  · exact .misflagged htxn
  split
  · exact .blocked htxn ‹_›
  rename_i hblocked
  have hblocked : engine.isBlocked txn = false := by simpa using hblocked
  cases name with
  | some name => exact .named htxn hblocked (engine.openNamed_outcome txn name flags)
  | none =>
      dsimp only [openMain]
      split
      · exact .main htxn hblocked
      · exact .mainFlags htxn hblocked

/-! ## Dropping -/

/-- How the drop of a database can end, before it is carried out. -/
inductive DropOutcome (engine : Engine) (handle slot : Nat) (delete : Bool) :
    Answer Engine Unit → Prop where
  | unknown (htxn : engine.txn? handle = none) :
      DropOutcome engine handle slot delete (refuseSystem SystemText.invalidArgument engine)
  | unusable {txn : Txn} (htxn : engine.txn? handle = some txn)
      (husable : txn.usable? slot = none) :
      DropOutcome engine handle slot delete (refuseSystem SystemText.invalidArgument engine)
  | reader {txn : Txn} {content : TxnSlot} (htxn : engine.txn? handle = some txn)
      (husable : txn.usable? slot = some content) (hreader : txn.readOnly = true) :
      DropOutcome engine handle slot delete (refuseSystem SystemText.denied engine)
  | outdated {txn : Txn} {content : TxnSlot} (htxn : engine.txn? handle = some txn)
      (husable : txn.usable? slot = some content) (hwriter : txn.readOnly = false)
      (houtdated : txn.isOutdated engine.slots slot content = true) :
      DropOutcome engine handle slot delete (refuse .badDbi engine)
  | blocked {txn : Txn} {content : TxnSlot} (htxn : engine.txn? handle = some txn)
      (husable : txn.usable? slot = some content) (hwriter : txn.readOnly = false)
      (hblocked : engine.isBlocked txn = true) :
      DropOutcome engine handle slot delete (refuse .badTxn engine)
  | unread {txn : Txn} {content : TxnSlot} (htxn : engine.txn? handle = some txn)
      (h : txn.Writable (engine.isBlocked txn) slot content)
      (hload : txn.load engine.slots slot content = .error .incompatible) :
      DropOutcome engine handle slot delete (refuse .incompatible engine)
  | dropped {txn : Txn} {content : TxnSlot} {answer : Answer Engine Unit}
      (htxn : engine.txn? handle = some txn)
      (h : txn.Writable (engine.isBlocked txn) slot content) (hdelete : delete = true)
      (hslot : slot ≠ mainSlot)
      (hdrop : engine.dropSlot (txn.tryLoad engine.slots slot content) slot = answer) :
      DropOutcome engine handle slot delete answer
  | cleared {txn : Txn} {content : TxnSlot} (htxn : engine.txn? handle = some txn)
      (h : txn.Writable (engine.isBlocked txn) slot content)
      (hkept : delete = true → slot = mainSlot) :
      DropOutcome engine handle slot delete
        (engine.clearSlot (txn.tryLoad engine.slots slot content) slot)

/-- Every drop of a database ends so. -/
theorem drop_outcome (engine : Engine) (handle slot : Nat) (delete : Bool) :
    DropOutcome engine handle slot delete (engine.drop handle slot delete) := by
  unfold drop
  split
  · exact .unknown ‹_›
  rename_i txn htxn
  split
  · exact .unusable htxn ‹_›
  rename_i content husable
  split
  · exact .reader htxn husable ‹_›
  rename_i hreader
  have hwriter : txn.readOnly = false := by simpa using hreader
  split
  · exact .outdated htxn husable hwriter ‹_›
  split
  · exact .blocked htxn husable hwriter ‹_›
  rename_i hblocked
  have h : txn.Writable (engine.isBlocked txn) slot content :=
    ⟨husable, hwriter, by simpa using hblocked⟩
  have hdone : DropOutcome engine handle slot delete
      (if delete && slot ≠ mainSlot then
          engine.dropSlot (txn.tryLoad engine.slots slot content) slot
        else engine.clearSlot (txn.tryLoad engine.slots slot content) slot) := by
    split
    · rename_i hdelete
      simp only [Bool.and_eq_true, decide_eq_true_eq] at hdelete
      exact .dropped htxn h hdelete.1 hdelete.2 rfl
    · rename_i hkept
      exact .cleared htxn h fun hdelete ↦ by simpa [hdelete] using hkept
  split
  · exact .unread htxn h ‹_›
  · exact hdone
  · exact hdone

end MappedStore.Engine
