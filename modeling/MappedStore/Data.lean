import MappedStore.Access

/-!
# Databases through transactions

Opening databases, and reading and changing them, through a transaction. Apart from an open, each
operation passes the gate of `System.withAccess` and is then a single call of the engine.
-/

namespace MappedStore.System

/-! ## Opening -/

/-- The handle for a slot that the engine has opened. A slot that is live in the transaction is
the database it was before; any other is new, and gets a generation that no slot had yet. -/
def takeHandle (system : System) (txn : TxnId) (slot : Nat) (name : Option String)
    (flags : DbFlags) : Database × System :=
  let env := (system.transaction txn).env
  match system.liveGeneration txn slot with
  | some generation => (⟨slot, generation, env, name, flags⟩, system)
  | none =>
      (⟨slot, (system.environment env).nextGeneration, env, name, flags⟩,
        system.modifyEnvironment env fun environment ↦
          { environment with nextGeneration := environment.nextGeneration + 1 })

/-- Open a database through a transaction; no name means the main one. -/
def openThrough (system : System) (txn : TxnId) (name : Option String) (flags : DbFlags) :
    Outcome Database :=
  let transaction := system.transaction txn
  match transaction.lifecycleFault, name.filter (·.toList.contains '\x00') with
  | some error, _ => system.fail error
  | none, some name => system.fail (.invalidDatabaseName name)
  | none, none =>
      (system.relay transaction.env
        (.openDatabase transaction.native (name.map Bytes.ofText) flags)
        (·.openDatabase transaction.native (name.map Bytes.ofText) flags)).andThen
          fun slot system ↦
            let (database, system) := system.takeHandle txn slot name flags
            ⟨.ok database, [.log (.openedDatabase name slot database.generation)],
              system.modifyTransaction txn fun opener ↦
                { opener with opened := (slot, database.generation) :: opener.opened }⟩

/-! ## Reading -/

/-- The value of a key, or `none` if the key is absent. -/
def get (system : System) (txn : TxnId) (database : Database) (key : Bytes) :
    Outcome (Option Bytes) :=
  system.withAccess txn { database := database, key := some key } fun transaction ↦
    match system.perform transaction.env (fun _ ↦ .get transaction.native database.slot key)
        (·.get transaction.native database.slot key) with
    | (.ok value, event, system) => ⟨.ok (some value), [event], system⟩
    | (.error code, event, system) =>
        if code = Condition.notFound.code then ⟨.ok none, [event], system⟩
        else ⟨.error (.error (.ofCode code)), [event], system⟩

/-- The figures of a database. -/
def stat (system : System) (txn : TxnId) (database : Database) : Outcome Engine.Stat :=
  system.withAccess txn { database := database } fun transaction ↦
    system.relay transaction.env (.statOf transaction.native database.slot)
      (·.statOf transaction.native database.slot)

/-! ## Writing -/

/-- Store a value under a key. The flag that asks for a buffer instead is ignored. -/
def put (system : System) (txn : TxnId) (database : Database) (key value : Bytes)
    (flags : WriteFlags) : Outcome Unit :=
  system.withAccess txn { database := database, writes := true, key := some key } fun transaction ↦
    let flags := flags.minus WriteFlags.reserve
    (system.relay transaction.env
      (.put transaction.native database.slot key (.bytes value) flags)
      (·.put transaction.native database.slot key (.bytes value) flags)).after
        [.log (.put value.length database.slot)]

/-- Reserve a buffer of some length under a key. The result is the length of the buffer, which
starts out as zeros and is to be filled by `fill`. -/
def reserve (system : System) (txn : TxnId) (database : Database) (key : Bytes) (length : Nat)
    (flags : WriteFlags) : Outcome Nat :=
  system.withAccess txn { database := database, writes := true, key := some key } fun transaction ↦
    let flags := flags.union WriteFlags.reserve
    (system.relay transaction.env
      (.put transaction.native database.slot key (.reserved length) flags)
      (·.put transaction.native database.slot key (.reserved length) flags)).map fun _ ↦ length

/-- Write into the buffer that was reserved under a key. -/
def fill (system : System) (txn : TxnId) (database : Database) (key data : Bytes) : System :=
  let transaction := system.transaction txn
  system.modifyEnvironment transaction.env fun environment ↦
    { environment with
      engine := environment.engine.fill transaction.native database.slot key data }

/-- Remove a key, or one of its values. The result tells whether there was something to remove. -/
def del (system : System) (txn : TxnId) (database : Database) (key : Bytes)
    (item : Option Bytes) : Outcome Bool :=
  system.withAccess txn { database := database, writes := true, key := some key } fun transaction ↦
    match system.perform transaction.env (fun _ ↦ .del transaction.native database.slot key item)
        (·.del transaction.native database.slot key item) with
    | (.ok (), event, system) => ⟨.ok true, [event], system⟩
    | (.error code, event, system) =>
        if code = Condition.notFound.code then ⟨.ok false, [event], system⟩
        else ⟨.error (.error (.ofCode code)), [event], system⟩

/-- Remove every entry of a database. -/
def clear (system : System) (txn : TxnId) (database : Database) : Outcome Unit :=
  system.withAccess txn { database := database, writes := true } fun transaction ↦
    system.relay transaction.env (.drop transaction.native database.slot false)
      (·.drop transaction.native database.slot false)

/-- Delete a database. The main one is only emptied; any other stops being live in the
transaction. -/
def dropDatabase (system : System) (txn : TxnId) (database : Database) : Outcome Unit :=
  system.withAccess txn { database := database, writes := true } fun transaction ↦
    (system.relay transaction.env (.drop transaction.native database.slot true)
      (·.drop transaction.native database.slot true)).andThen fun _ system ↦
        if database.slot = Engine.mainSlot then system.done ()
        else
          system.modifyTransaction txn (fun dropper ↦
            { dropper with
              opened := dropper.opened.filter (·.1 ≠ database.slot)
              dropped := database.slot :: dropper.dropped }) |>.done ()

end MappedStore.System
