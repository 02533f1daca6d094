import MappedStore.Proofs.Engine.Reserving
import MappedStore.Proofs.Removals

/-!
# Reservations and writes

In a database whose keys have a single value each, reserving a buffer and filling it does what a
write of the bytes does: it fails with the same error, and it leaves the same process
(`System.reserve_agrees`). A write never stores anything but its bytes, and the flag that asks for a
buffer makes no difference to it.
-/

namespace MappedStore.System

open Engine (Table)

variable {system : System} {user : TxnId} {database : Database} {key : Bytes}

/-- A write that the gate lets through answers as the engine does. -/
theorem put_passed
    (h : system.gateFault user { database := database, writes := true, key := some key } = none)
    (value : Bytes) (flags : WriteFlags) :
    let answer := (system.engineOf user).put (system.native user) database.slot key (.bytes value)
      (flags.minus WriteFlags.reserve)
    (system.put user database key value flags).result
        = answer.1.mapError (fun code ↦ .error (.ofCode code)) ∧
      (system.put user database key value flags).state = system.setEngineOf user answer.2 := by
  unfold put
  rw [withAccess_passed _ h]
  exact ⟨relay_result _ _ _ _ (Engine.proper_put ..), relay_state ..⟩

/-- A reservation that the gate lets through answers as the engine does, with the length of the
buffer. -/
theorem reserve_passed
    (h : system.gateFault user { database := database, writes := true, key := some key } = none)
    (length : Nat) (flags : WriteFlags) :
    let answer := (system.engineOf user).put (system.native user) database.slot key
      (.reserved length) (flags.union WriteFlags.reserve)
    (system.reserve user database key length flags).result
        = (answer.1.mapError fun code ↦ .error (.ofCode code)).map (fun _ ↦ length) ∧
      (system.reserve user database key length flags).state
        = system.setEngineOf user answer.2 := by
  unfold reserve
  rw [withAccess_passed _ h]
  refine ⟨congrArg (Except.map _) (relay_result _ _ _ _ (Engine.proper_put ..)), ?_⟩
  exact system.relay_state (system.transaction user).env _ (·.put _ database.slot key _ _)

/-- A write takes no notice of the request for a buffer. -/
theorem put_union_reserve (system : System) (user : TxnId) (database : Database) (key value : Bytes)
    (flags : WriteFlags) :
    system.put user database key value (flags.union WriteFlags.reserve)
      = system.put user database key value flags := by
  unfold put
  rw [Flags.union_minus]

/-- A reservation answers as a write does, and after it has been filled the process is as the write
would have left it. -/
theorem reserve_eq_put
    (hunique : ∀ table, system.table? user database.slot = some table →
      table.hasDuplicates = false) (key value : Bytes) (flags : WriteFlags) :
    let put := system.put user database key value flags
    let reserved := system.reserve user database key value.length flags
    reserved.result = put.result.map (fun _ ↦ value.length) ∧
      (∀ refusal, put.result = .error refusal → reserved.state = put.state) ∧
      (put.result = .ok () → reserved.state.fill user database key value = put.state) := by
  intro put reserved
  cases hgate : system.gateFault user { database := database, writes := true, key := some key } with
  | some error =>
    -- the gate does not look at the flags or at the value, so it refuses both alike
    have hput : put.result = .error (.error error) ∧ put.state = system :=
      withAccess_refused _ hgate
    have hreserved : reserved.result = .error (.error error) ∧ reserved.state = system :=
      withAccess_refused _ hgate
    rw [hput.1, hreserved.1]
    exact ⟨rfl, fun _ _ ↦ hreserved.2.trans hput.2.symm, nofun⟩
  | none =>
    obtain ⟨hput, hputState⟩ := put_passed hgate value flags
    obtain ⟨hreserved, hreservedState⟩ := reserve_passed hgate value.length flags
    have hfilled := Engine.put_reserved hunique key value flags
    rcases hcase : (system.engineOf user).put (system.native user) database.slot key
      (.reserved value.length) (flags.union WriteFlags.reserve) with ⟨code | ⟨⟩, stored⟩
    all_goals
      rw [hcase] at hfilled hreserved hreservedState
      rw [← hfilled] at hput hputState
    · refine ⟨?_, fun _ _ ↦ hreservedState.trans hputState.symm, fun hok ↦ ?_⟩
      · rw [hreserved, hput]
        rfl
      · cases hput.symm.trans hok
    · refine ⟨?_, fun _ herror ↦ ?_, fun _ ↦ ?_⟩
      · rw [hreserved, hput]
        rfl
      · cases hput.symm.trans herror
      · rw [hreservedState, hputState]
        exact system.modifyEngine_setEngine (system.transaction user).env stored
          fun engine ↦ engine.fill (system.native user) database.slot key value

/-- A write that succeeds in a database whose keys have a single value leaves its bytes under the
key. If the transaction has seen a table behind the handle, it sees that table with the bytes in
it. -/
theorem put_stores (hreachable : Reachable system)
    (hunique : ∀ table, system.table? user database.slot = some table →
      table.hasDuplicates = false) {value : Bytes} {flags : WriteFlags}
    (h : (system.put user database key value flags).result = .ok ()) :
    let after := (system.put user database key value flags).state
    (∃ run, (after.engineOf user).record? (after.native user) database.slot key
        = some (.values [value] run)) ∧
      ∀ table, system.table? user database.slot = some table → ∃ run,
        after.table? user database.slot = some (table.insert key (.values [value] run)) := by
  intro after
  obtain ⟨engine, hput, hstate⟩ := put_ok h
  have hengine : after.engineOf user = engine := by
    unfold after
    rw [hstate]
    exact engineOf_setEngineOf hreachable h engine
  have hnative : after.native user = system.native user := congrArg (·.native user) hstate
  unfold table?
  rw [hengine, hnative]
  exact Engine.put_stores hunique hput

/-- Reserving a buffer for some bytes and filling it agrees with writing the bytes, whatever the
flags, in a database whose keys have a single value. The reservation fails if the write fails, with
the same refusal, and then the process is the same; otherwise its result is the length of the bytes,
and once the buffer is filled the process is the same. The write takes no notice of the request for
a buffer, and if it succeeds the bytes are under the key. -/
theorem reserve_agrees (hreachable : Reachable system)
    (hunique : ∀ table, system.table? user database.slot = some table →
      table.hasDuplicates = false) (key value : Bytes) (flags : WriteFlags) :
    let put := system.put user database key value flags
    let reserved := system.reserve user database key value.length flags
    (reserved.result = put.result.map (fun _ ↦ value.length) ∧
        (∀ refusal, put.result = .error refusal → reserved.state = put.state) ∧
        (put.result = .ok () → reserved.state.fill user database key value = put.state)) ∧
      system.put user database key value (flags.union WriteFlags.reserve) = put ∧
      (put.result = .ok () →
        (∃ run, (put.state.engineOf user).record? (put.state.native user) database.slot key
          = some (.values [value] run)) ∧
        ∀ table, system.table? user database.slot = some table → ∃ run,
          put.state.table? user database.slot
            = some (table.insert key (.values [value] run))) :=
  ⟨reserve_eq_put hunique key value flags, put_union_reserve system user database key value flags,
    put_stores hreachable hunique⟩

/-- A value is replaced by a longer one, in a buffer that was reserved for it. -/
theorem reserve_agrees_longer :
    let reserved := samplePairs.reserve 1 sampleDatabase [107] 2 .empty
    reserved.result = .ok 2 ∧
      reserved.state.fill 1 sampleDatabase [107] [119, 120]
        = (samplePairs.put 1 sampleDatabase [107] [119, 120] .empty).state := by
  intro reserved
  have hunique : ∀ table, samplePairs.table? 1 sampleDatabase.slot = some table →
      table.hasDuplicates = false := by
    intro table htable
    have hdup : (samplePairs.table? 1 2).map (·.hasDuplicates) = some false := by
      decide +kernel
    rw [show samplePairs.table? 1 2 = some table from htable] at hdup
    exact Option.some.inj hdup
  have hput : (samplePairs.put 1 sampleDatabase [107] [119, 120] .empty).result = .ok () := by
    decide +kernel
  obtain ⟨⟨hresult, -, hfilled⟩, -⟩ :=
    reserve_agrees samplePairs_reachable hunique [107] [119, 120] .empty
  exact ⟨hresult.trans (congrArg _ hput), hfilled hput⟩

end MappedStore.System
