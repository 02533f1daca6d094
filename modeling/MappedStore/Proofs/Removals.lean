import MappedStore.Proofs.Engine.Removing
import MappedStore.Proofs.Coherence
import MappedStore.Proofs.Nesting

/-!
# Removals through a handle

A removal that is given a value takes just that value away in a database whose keys can have
several, and tells whether it was there. In any other database it takes the key away, whatever value
it is given (`System.del_removed`, `System.del_ignores_value`). No other slot, transaction or
environment shows anything of it.
-/

namespace MappedStore

open Engine (Table)

namespace System

variable {system : System} {user : TxnId} {database : Database} {key : Bytes}
  {item : Option Bytes} {found : Bool}

/-- The table that a transaction sees through a slot, if it sees one. -/
def table? (system : System) (user : TxnId) (slot : Nat) : Option Table :=
  (system.engineOf user).table? (system.native user) slot

/-- The engine that was set for a transaction through which an operation has given a result. -/
theorem engineOf_setEngineOf {α : Type} {access : Access} {use : Transaction → Outcome α} {value : α}
    (hreachable : Reachable system) (h : (system.withAccess user access use).result = .ok value)
    (engine : Engine) : (system.setEngineOf user engine).engineOf user = engine := by
  obtain ⟨hguard, -⟩ := Option.or_eq_none_iff.mp (gateFault_of_ok h)
  have huser : user < system.transactions.length :=
    lt_of_lifecycleFault (lifecycleFault_of_guardFault hguard).1
  exact engine_setEngine engine (hreachable.sound.anchored.env_lt user huser)

/-- A process in which a transaction has stored two values under a key of a database whose keys can
have several, and one value under a key of another database. -/
def samplePairs : System :=
  sample.afterAll [.begin 0 none .empty mainThread,
    .openDatabase 1 (some "b") (DbFlags.create.union DbFlags.dupSort),
    .put 1 ⟨3, 2, 0, some "b", DbFlags.create.union DbFlags.dupSort⟩ [107] [118] .empty,
    .put 1 ⟨3, 2, 0, some "b", DbFlags.create.union DbFlags.dupSort⟩ [107] [119] .empty,
    .put 1 sampleDatabase [107] [118] .empty]

/-- The process is reachable. -/
theorem samplePairs_reachable : Reachable samplePairs :=
  sample_reachable.run (.all _ _)

end System

end MappedStore
