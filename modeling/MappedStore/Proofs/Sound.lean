import MappedStore.Proofs.Lineage
import MappedStore.Proofs.Readers

/-!
# What holds in every state of a process

`System.Sound` collects the invariants of a process. They hold in every state that can be reached
(`Reachable.sound`), so later proofs ask for reachability and use them all.
-/

namespace MappedStore

namespace System

variable {system after : System} {action : Action} {txn : TxnId}

/-- The invariants of a process. -/
structure Sound (system : System) : Prop where
  anchored : Anchored system
  chained : Chained system
  attended : Attended system
  numbered : Numbered system

/-- Before any environment was opened nothing has been recorded. -/
theorem numbered_start (checks : Bool) (files : Files.Tree) :
    Numbered { checks := checks, files := files } :=
  ⟨nofun, nofun⟩

/-- The start of a process is sound. -/
theorem sound_start (checks : Bool) (files : Files.Tree) :
    Sound { checks := checks, files := files } :=
  ⟨anchored_start checks files, chained_start checks files, attended_start checks files,
    numbered_start checks files⟩

/-- Every action is a transition of a sound process. -/
theorem Sound.transition (h : Sound system) (action : Action) :
    Transition system action (system.after action) :=
  act_transition h.anchored.roster action

/-- An action leaves a process sound. -/
theorem Sound.act (h : Sound system) (action : Action) : Sound (system.after action) where
  anchored := h.anchored.transition (h.transition action)
  chained := h.chained.transition h.anchored (h.transition action)
  attended := h.attended.transition h.anchored h.chained (h.transition action)
  numbered := h.numbered.transition h.anchored (h.transition action)

/-- No transition turns the courtesy checks on or off. -/
theorem Transition.checks (h : Transition system action after) : after.checks = system.checks := by
  have hfinish : ∀ (s : System) txn state, (s.finish txn state).checks = s.checks := by
    intro s txn state
    unfold finish
    dsimp only
    split <;> rfl
  have hhandOver : ∀ (s : System) txn, (s.handOver txn).checks = s.checks := by
    intro s txn
    unfold handOver
    dsimp only
    split <;> rfl
  cases h with
  | idle | files | openedEnvironment | closed | aside | used => rfl
  | reopened | opened | dropped | reset | renewed => rfl
  | @began env parent flags thread native engine =>
      unfold enter
      dsimp only
      split <;> rfl
  | committed => rw [hfinish, hhandOver]; rfl
  | commitFailed | discarded => rw [hfinish]; rfl

/-- An action that changes the stage of life of a transaction goes through it, and it had not
ended. -/
theorem Transition.state_cases (h : Transition system action after)
    (htxn : txn < system.transactions.length) :
    (after.transaction txn).state = (system.transaction txn).state ∨
      (system.transaction txn).state.isFinished = false ∧ action.through? = some txn := by
  have hsame : ∀ {middle : System} {other : TxnId} {state : TxnState},
      (middle.transaction txn).state = (system.transaction txn).state → txn ≠ other →
      ((middle.finish other state).transaction txn).state = (system.transaction txn).state :=
    fun hmiddle hne ↦ (field_finish_of_ne (·.state) (fun _ _ ↦ by rfl) _ hne).trans hmiddle
  cases h with
  | idle | files | openedEnvironment | closed | aside | used => exact .inl rfl
  | reopened | opened | dropped =>
      exact .inl (field_modifyTransaction (·.state) (fun _ ↦ by rfl) _ _ txn)
  | began => exact .inl (field_enter (·.state) (fun _ _ ↦ by rfl) _ htxn)
  | @committed other engine hfault hcommit =>
      by_cases hne : txn = other
      · subst hne
        exact .inr ⟨unfinished_of_lifecycleFault hfault, rfl⟩
      · exact .inl (hsame (field_handOver (·.state) (fun _ _ _ ↦ by rfl) _ _ _) hne)
  | @commitFailed other code engine hfault hcommit =>
      by_cases hne : txn = other
      · subst hne
        exact .inr ⟨unfinished_of_lifecycleFault hfault, rfl⟩
      · exact .inl (hsame rfl hne)
  | @discarded action other haction hstate =>
      by_cases hne : txn = other
      · subst hne
        rcases haction with rfl | rfl <;> exact .inr ⟨hstate, rfl⟩
      · exact .inl (hsame rfl hne)
  | @reset other hfault hreader =>
      by_cases hne : txn = other
      · subst hne
        exact .inr ⟨unfinished_of_lifecycleFault hfault, rfl⟩
      · exact .inl (congrArg (·.state) (transaction_modifyTransaction_of_ne _ _ hne))
  | @renewed other thread engine hstate hrenew =>
      by_cases hne : txn = other
      · subst hne
        exact .inr ⟨by rw [hstate]; rfl, rfl⟩
      · exact .inl (congrArg (·.state) (transaction_modifyTransaction_of_ne _ _ hne))

/-- A transaction that has not ended after an action had not ended before it. -/
theorem Sound.unfinished_back (h : Sound system) (htxn : txn < system.transactions.length)
    (hunfinished : ((system.after action).transaction txn).state.isFinished = false) :
    (system.transaction txn).state.isFinished = false := by
  rcases (h.transition action).state_cases htxn with hsame | ⟨hbefore, -⟩
  · rwa [hsame] at hunfinished
  · exact hbefore

/-- A transaction that has ended stays as it ended. -/
theorem Sound.finished_kept (h : Sound system) (htxn : txn < system.transactions.length)
    (hfinished : (system.transaction txn).state.isFinished = true) :
    ((system.after action).transaction txn).state = (system.transaction txn).state := by
  rcases (h.transition action).state_cases htxn with hsame | ⟨hunfinished, -⟩
  · exact hsame
  · simp [hfinished] at hunfinished

/-- While nobody holds the writer lock of an environment, nobody writes to it. -/
theorem Sound.writers_eq_nil (h : Sound system) {env : EnvId}
    (hlock : (system.environment env).writerLocked = false) : (system.engine env).writers = [] := by
  obtain ⟨ids, hchain⟩ := h.chained env
  have hnone : ids = [] := by
    by_contra hsome
    simpa [hlock] using hchain.locked hsome
  simpa [hnone] using hchain.handles

/-- A run leaves a process sound. -/
theorem Sound.run {allowed : System → Action → Prop} {first last : System}
    (h : Sound first) (hrun : Run allowed first last) : Sound last :=
  hrun.invariant h fun _ action _ hsound ↦ hsound.act action

end System

/-- Every state that a process can reach is sound. -/
theorem Reachable.sound {system : System} (h : Reachable system) : system.Sound := by
  obtain ⟨checks, files, hrun⟩ := h
  exact (System.sound_start checks files).run hrun

/-- A run turns the courtesy checks neither on nor off. -/
theorem Run.checks {allowed : System → Action → Prop} {first last : System}
    (h : Run allowed first last) (hsound : first.Sound) : last.checks = first.checks := by
  induction h with
  | nil => rfl
  | step run _ ih => exact ((hsound.run run).transition _).checks.trans ih

/-- A transaction that was there at the start of a run is there at its end. -/
theorem Run.lt_length {allowed : System → Action → Prop} {first last : System}
    (h : Run allowed first last) (hsound : first.Sound) {txn : TxnId}
    (htxn : txn < first.transactions.length) : txn < last.transactions.length := by
  induction h with
  | nil => exact htxn
  | step run _ ih => exact ((hsound.run run).transition _).lt_length ih

/-- No run changes what identifies a transaction that was there at its start. -/
theorem Run.identity {allowed : System → Action → Prop} {first last : System}
    (h : Run allowed first last) (hsound : first.Sound) {txn : TxnId}
    (htxn : txn < first.transactions.length) :
    (last.transaction txn).identity = (first.transaction txn).identity := by
  induction h with
  | nil => rfl
  | step run _ ih =>
      have hlt := run.lt_length hsound htxn
      exact (((hsound.run run).transition _).identity hlt).trans ih

end MappedStore
