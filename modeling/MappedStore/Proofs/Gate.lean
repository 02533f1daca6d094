import MappedStore.Proofs.Transition

/-!
# Refusals at the gate

Every action on a database through a transaction passes the gate of `System.withAccess`. What the
gate objects to is the result of the action, and a refused action changes nothing
(`System.act_refused`), so that it is enough to know the gate to know which handles are rejected.
-/

namespace MappedStore

/-- The transaction and the access of an action on a database, if it is one. -/
def Action.access? : Action → Option (TxnId × Access)
  | .get txn database key => some (txn, { database := database, key := some key })
  | .stat txn database => some (txn, { database := database })
  | .put txn database key _ _ | .reserve txn database key _ _ | .del txn database key _ =>
      some (txn, { database := database, writes := true, key := some key })
  | .clear txn database | .dropDatabase txn database =>
      some (txn, { database := database, writes := true })
  | _ => none

namespace System

variable {α β : Type} {system : System} {action : Action} {txn : TxnId} {access : Access}
  {error : Error}

/-- What the gate objects to: first what the memory guards do, then the courtesy checks if they
are on. -/
def gateFault (system : System) (txn : TxnId) (access : Access) : Option Error :=
  (system.guardFault txn access).or
    (if system.checks then system.courtesyFault txn access else none)

/-- An operation that the gate lets through is carried out. -/
theorem withAccess_passed (use : Transaction → Outcome α)
    (h : system.gateFault txn access = none) :
    system.withAccess txn access use = (use (system.transaction txn)).after [.consulted] := by
  obtain ⟨hguard, hcourtesy⟩ := Option.or_eq_none_iff.mp h
  unfold withAccess
  rw [hguard]
  dsimp only
  rw [hcourtesy]

/-- An operation that the gate refuses fails and changes nothing. -/
theorem withAccess_refused (use : Transaction → Outcome α)
    (h : system.gateFault txn access = some error) :
    (system.withAccess txn access use).result = .error (.error error) ∧
      (system.withAccess txn access use).state = system := by
  unfold gateFault at h
  unfold withAccess
  cases hguard : system.guardFault txn access with
  | some fault =>
      obtain rfl : fault = error := by simpa [hguard] using h
      exact ⟨rfl, rfl⟩
  | none =>
      simp only [hguard, Option.none_or] at h
      rw [h]
      exact ⟨rfl, rfl⟩

/-- An operation that gives a result was let through by the gate. -/
theorem gateFault_of_ok {use : Transaction → Outcome α} {value : α}
    (h : (system.withAccess txn access use).result = .ok value) :
    system.gateFault txn access = none := by
  cases hgate : system.gateFault txn access with
  | none => rfl
  | some error =>
    rw [(withAccess_refused use hgate).1] at h
    cases h

/-- A refused operation is still refused when its result is passed on in another form. -/
theorem map_refused {outcome : Outcome α} (change : α → β)
    (h : outcome.result = .error (.error error) ∧ outcome.state = system) :
    (outcome.map change).result = .error (.error error) ∧ (outcome.map change).state = system := by
  obtain ⟨hresult, hstate⟩ := h
  exact ⟨by rw [Outcome.map, hresult]; rfl, hstate⟩

/-- An action on a database that the gate refuses fails with what the gate objects to, and changes
nothing. -/
theorem act_refused (haccess : action.access? = some (txn, access))
    (h : system.gateFault txn access = some error) :
    (system.act action).result = .error (.error error) ∧ system.after action = system := by
  cases action with
  | get | stat | put | del | clear | dropDatabase =>
      simp only [Action.access?, Option.some.injEq, Prod.mk.injEq] at haccess
      obtain ⟨rfl, rfl⟩ := haccess
      exact map_refused _ (withAccess_refused _ h)
  | reserve owner database key data flags =>
      simp only [Action.access?, Option.some.injEq, Prod.mk.injEq] at haccess
      obtain ⟨rfl, rfl⟩ := haccess
      have hreserve : (system.reserve owner database key data.length flags).result
            = .error (.error error) ∧
          (system.reserve owner database key data.length flags).state = system :=
        withAccess_refused _ h
      obtain ⟨hresult, hstate⟩ := andThen_of_error
        (fun length system ↦ (system.fill owner database key data).done length) hreserve.1
      exact map_refused _ ⟨hresult, hstate.trans hreserve.2⟩
  | _ => simp [Action.access?] at haccess

/-- A handle that is not live in a transaction is refused by it, if its guards let the access
through and the courtesy checks are on. -/
theorem gateFault_of_not_live (hchecks : system.checks = true)
    (hlive : system.liveGeneration txn access.database.slot ≠ some access.database.generation) :
    system.gateFault txn access = some
      ((system.guardFault txn access).getD (.databaseNotRetained access.database.slot)) := by
  have hcourtesy : system.courtesyFault txn access
      = some (.databaseNotRetained access.database.slot) := by
    simp [courtesyFault, accepts, hlive]
  rw [gateFault, hchecks, if_pos rfl, hcourtesy]
  cases system.guardFault txn access <;> rfl

end System

end MappedStore
