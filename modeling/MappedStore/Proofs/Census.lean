import Mathlib.Data.Finset.Option
import MappedStore.Proofs.Handles
import MappedStore.Proofs.Journal

/-!
# Counters that can be relied on

An environment is closed only if its counter of active transactions is zero. The counter is that of
the transactions that have begun and not ended, whatever has happened to them in between and whether
or not anyone still holds them (`System.counters_exact`), and no count ever falls below zero. So an
environment that was closed has no native transaction.
-/

namespace MappedStore.System

variable {system : System} {action : Action} {env : EnvId} {txn : TxnId}

/-! ## Beginnings and ends -/

/-- A transaction that was not there before an action was begun by it. -/
theorem Sound.given_of_new (h : Sound system) (hnew : system.transactions.length ≤ txn)
    (htxn : txn < (system.after action).transactions.length) :
    (system.act action).transaction? = some txn := by
  obtain ⟨rfl, env, parent, flags, thread, _, _, rfl, -⟩ := (h.transition action).of_new hnew htxn
  rcases system.begin_cases env parent flags thread with
    ⟨refusal, -, hstate⟩ | ⟨native, engine, -, -, -, hresult, -⟩
  · have hsame : (system.after (.begin env parent flags thread)).transactions.length
        = system.transactions.length := congrArg (·.transactions.length) hstate
    exact absurd (hsame ▸ htxn) (Nat.lt_irrefl _)
  · have hact : (system.act (.begin env parent flags thread)).result
        = .ok (.transaction system.transactions.length) :=
      congrArg (Except.map Response.transaction) hresult
    rw [Outcome.transaction?, hact]

/-- After an action those live that lived before or were begun by it, and have not ended. -/
theorem Sound.living_act (h : Sound system) (action : Action) :
    (system.after action).living =
      ((system.act action).transaction?.toFinset ∪ system.living).filter
        fun txn ↦ ((system.after action).transaction txn).state.isFinished = false := by
  ext txn
  rw [Finset.mem_filter, mem_living, iff_and_self, Finset.mem_union, Option.mem_toFinset,
    mem_living]
  intro hliving
  rcases Nat.lt_or_ge txn system.transactions.length with hlt | hge
  · exact .inr (h.unfinished_back hlt hliving)
  · exact .inl (h.given_of_new hge (lt_of_state rfl hliving))

/-- When a transaction ends the others live on, and no other is begun. -/
theorem Sound.living_ended (h : Sound system)
    (hbefore : (system.transaction txn).state.isFinished = false)
    (hafter : ((system.after action).transaction txn).state.isFinished = true) :
    (system.after action).living = system.living.erase txn := by
  have htransition := h.transition action
  have htxn := lt_of_state rfl hbefore
  have hthrough : action.through? = some txn := by
    rcases htransition.state_cases htxn with hsame | ⟨-, hthrough⟩
    · rw [hsame, hbefore] at hafter
      cases hafter
    · exact hthrough
  have hlength : (system.after action).transactions.length = system.transactions.length :=
    htransition.length_kept (by rintro _ _ _ _ rfl; cases hthrough)
  ext other
  rw [Finset.mem_erase, mem_living, mem_living]
  by_cases hother : other = txn
  · subst hother
    simp [hafter]
  rw [and_iff_right hother]
  rcases Nat.lt_or_ge other system.transactions.length with hlt | hge
  · rcases htransition.state_cases hlt with hsame | ⟨-, hthrough'⟩
    · rw [hsame]
    · exact absurd (Option.some.inj (hthrough'.symm.trans hthrough)) hother
  · rw [transaction_of_length_le hge, transaction_of_length_le (hlength ▸ hge)]

/-- When a transaction ends there is one less among those that satisfy a condition that it does. -/
theorem Sound.card_ended (h : Sound system)
    (hbefore : (system.transaction txn).state.isFinished = false)
    (hafter : ((system.after action).transaction txn).state.isFinished = true)
    {before after : TxnId → Prop} [DecidablePred before] [DecidablePred after]
    (hsame : ∀ other < system.transactions.length, after other ↔ before other)
    (htxn : before txn) :
    ((system.after action).living.filter after).card + 1 = (system.living.filter before).card := by
  have hmem : txn ∈ system.living.filter before :=
    Finset.mem_filter.mpr ⟨mem_living.mpr hbefore, htxn⟩
  have hcongr : (system.living.erase txn).filter after = (system.living.filter before).erase txn := by
    rw [← Finset.filter_erase]
    refine Finset.filter_congr fun other hother ↦ hsame other ?_
    exact lt_of_state rfl (mem_living.mp (Finset.mem_of_mem_erase hother))
  rw [h.living_ended hbefore hafter, hcongr]
  exact Finset.card_erase_add_one hmem

/-! ## Closed environments -/

/-- The engine of an environment in which all transactions have ended has none left. -/
theorem Sound.txn?_eq_none (h : Sound system)
    (hfinished : ∀ txn, (system.transaction txn).env = env →
      (system.transaction txn).state.isFinished = true) (native : Nat) :
    (system.engine env).txn? native = none := by
  obtain ⟨ids, hchain⟩ := h.chained env
  have hids : ids = [] := by
    refine List.eq_nil_iff_forall_not_mem.mpr fun txn hmem ↦ ?_
    have hended := hfinished txn (hchain.env_eq txn hmem)
    rw [hchain.active txn hmem] at hended
    cases hended
  have hwriters : (system.engine env).writers = [] := by
    have hhandles := hchain.handles
    rw [hids, List.map_nil, List.map_eq_nil_iff] at hhandles
    exact hhandles
  have hreading : (system.engine env).reading = [] := by
    refine List.eq_nil_iff_forall_not_mem.mpr fun reader hmem ↦ ?_
    obtain ⟨txn, henv, -, -, hstate⟩ := (h.attended.readers env).known reader hmem
    have hended := hfinished txn henv
    rw [hstate, readingState_isFinished] at hended
    cases hended
  rw [Engine.txn?, hwriters, hreading]
  rfl

/-- In an environment that is closed nothing is active. -/
theorem Housed.finished (h : Housed system) (hclosed : (system.environment env).closed = true)
    (henv : (system.transaction txn).env = env) :
    (system.transaction txn).state.isFinished = true := by
  by_contra hunfinished
  have hopen := h.opened txn (Bool.eq_false_of_not_eq_true hunfinished)
  rw [henv, hclosed] at hopen
  cases hopen

/-- An open environment is closed if nothing is active in it. Otherwise the number of active
transactions is the answer, and nothing happens. -/
theorem close_answer (hopen : (system.environment env).closed = false) :
    (0 < (system.environment env).active ∧
        system.close env = system.fail (.txnsActive (system.environment env).active)) ∨
      (system.environment env).active = 0 ∧ (system.close env).result = .ok () := by
  have houtcome := system.close_outcome env
  generalize system.close env = outcome at houtcome ⊢
  cases houtcome with
  | idle hclosed =>
      rw [hopen] at hclosed
      cases hclosed
  | busy _ hactive => exact .inl ⟨hactive, rfl⟩
  | closed _ hactive => exact .inr ⟨hactive, rfl⟩

/-- An open environment refuses to be closed exactly as long as something is active in it, and then
nothing happens. -/
theorem close_refused_iff (hopen : (system.environment env).closed = false) (count : Nat) :
    ((system.close env).result = .error (.error (.txnsActive count)) ↔
      0 < count ∧ count = (system.environment env).active) ∧
    ((system.close env).result = .error (.error (.txnsActive count)) →
      (system.close env).calls = [] ∧ (system.close env).state = system) := by
  rcases close_answer hopen with ⟨hactive, hclose⟩ | ⟨hactive, hclose⟩
  · rw [hclose]
    refine ⟨⟨?_, ?_⟩, fun _ ↦ ⟨rfl, rfl⟩⟩
    · rintro ⟨⟩
      exact ⟨hactive, rfl⟩
    · rintro ⟨-, rfl⟩
      rfl
  · rw [hclose, hactive]
    refine ⟨⟨nofun, ?_⟩, nofun⟩
    rintro ⟨hpos, rfl⟩
    exact absurd hpos (Nat.lt_irrefl 0)

/-- An environment that can be closed has no transactions that have not ended. -/
theorem Counted.finished_of_close (h : Counted system) (hhoused : Housed system)
    (hclose : (system.close env).result = .ok ()) (henv : (system.transaction txn).env = env) :
    (system.transaction txn).state.isFinished = true := by
  cases hclosed : (system.environment env).closed with
  | true => exact hhoused.finished hclosed henv
  | false =>
      rcases close_answer hclosed with ⟨-, hrefused⟩ | ⟨hactive, -⟩
      · rw [hrefused] at hclose
        cases hclose
      · exact h.finished_of_active (henv ▸ hactive)

/-- The engine stays when its environment is closed. -/
theorem engine_close (system : System) (env : EnvId) :
    (system.close env).state.engine env = system.engine env := by
  rcases close_cases system env with ⟨hstate, -⟩ | ⟨-, -, -, files, hstate⟩
  · rw [hstate]
  · rw [hstate]
    exact field_modifyEnvironment (·.engine) (fun _ ↦ by rfl) system env env

/-- Nothing is active in an environment in which all transactions have ended. -/
theorem Counted.active_eq_zero (h : Counted system)
    (hfinished : ∀ txn, (system.transaction txn).env = env →
      (system.transaction txn).state.isFinished = true) : (system.environment env).active = 0 := by
  rw [h.active, Finset.card_eq_zero, Finset.filter_eq_empty_iff]
  intro txn hliving henv
  rw [mem_living, hfinished txn henv] at hliving
  cases hliving

/-- The counters are exact in every state, in whatever way transactions have begun and ended: an
environment counts its transactions that live, a transaction counts those that live and are nested
directly in it, and those live that have begun and not ended. So with each end the counters fall by
one, from a number that was not zero. An open environment refuses to be closed as long as its
counter is not zero, with just that number, and nothing happens. The engine of one that is closed
has no transactions. -/
theorem counters_exact (h : Reachable system) :
    (∀ env, (system.environment env).active
        = (system.living.filter fun txn ↦ (system.transaction txn).env = env).card) ∧
      (∀ outer, (system.transaction outer).children
        = (system.living.filter fun txn ↦ (system.transaction txn).parent = some outer).card) ∧
      (∀ action, (system.after action).living =
        ((system.act action).transaction?.toFinset ∪ system.living).filter
          fun txn ↦ ((system.after action).transaction txn).state.isFinished = false) ∧
      (∀ action txn, (system.transaction txn).state.isFinished = false →
        ((system.after action).transaction txn).state.isFinished = true →
        ((system.after action).environment (system.transaction txn).env).active + 1
            = (system.environment (system.transaction txn).env).active ∧
          ∀ outer, (system.transaction txn).parent = some outer →
            ((system.after action).transaction outer).children + 1
              = (system.transaction outer).children) ∧
      (∀ env, (system.environment env).closed = false → ∀ count,
        ((system.close env).result = .error (.error (.txnsActive count)) ↔
          0 < count ∧ count = (system.environment env).active) ∧
        ((system.close env).result = .error (.error (.txnsActive count)) →
          (system.close env).calls = [] ∧ (system.close env).state = system)) ∧
      (∀ env, (system.close env).result = .ok () → ∀ native,
        (system.engine env).txn? native = none ∧
          ((system.close env).state.engine env).txn? native = none) ∧
      ∀ env, (system.environment env).closed = true → (system.environment env).active = 0 ∧
        ∀ native, (system.engine env).txn? native = none := by
  have hsound := h.sound
  have hcounted := h.counted
  refine ⟨hcounted.active, hcounted.children, hsound.living_act, ?_, ?_, ?_, ?_⟩
  -- Both counters are cardinalities before and after, and one member is gone in between.
  · intro action txn hbefore hafter
    have hcounted' := hcounted.act hsound action
    have hidentity : ∀ other < system.transactions.length, _ := fun other hlt ↦
      (hsound.transition action).identity hlt
    refine ⟨?_, fun outer houter ↦ ?_⟩
    · rw [hcounted'.active, hcounted.active]
      refine hsound.card_ended hbefore hafter (fun other hlt ↦ ?_) rfl
      rw [env_of_identity (hidentity other hlt)]
    · rw [hcounted'.children, hcounted.children]
      refine hsound.card_ended hbefore hafter (fun other hlt ↦ ?_) houter
      rw [parent_of_identity (hidentity other hlt)]
  · intro env hopen count
    exact close_refused_iff hopen count
  · intro env hclose native
    have hnone := hsound.txn?_eq_none
      (fun txn ↦ hcounted.finished_of_close h.housed hclose) native
    exact ⟨hnone, (engine_close system env).symm ▸ hnone⟩
  · intro env hclosed
    have hfinished : ∀ txn, (system.transaction txn).env = env →
        (system.transaction txn).state.isFinished = true := fun txn ↦ h.housed.finished hclosed
    exact ⟨hcounted.active_eq_zero hfinished, hsound.txn?_eq_none hfinished⟩

/-- A transaction that is nested in an aborted one and was forgotten, and one at rest, are active
for good. The environment is not closed, and the end of one of them leaves the other. -/
theorem counters_exact_forgotten :
    let left := sample.afterAll [.begin 0 none .empty mainThread, .begin 0 (some 1) .empty mainThread,
      .abort 1, .begin 0 none TxnFlags.readOnly mainThread, .reset 3]
    (left.environment 0).active = 2 ∧ (left.transaction 1).children = 1 ∧
      (left.close 0).result = .error (.error (.txnsActive 2)) ∧
      ((left.after (.abort 3)).environment 0).active + 1 = 2 := by
  intro left
  have hreachable : Reachable left := sample_reachable.run (.all _ _)
  obtain ⟨hactive, hchildren, -, hends, hclose, -, -⟩ := counters_exact hreachable
  have hcount : (left.environment 0).active = 2 := (hactive 0).trans (by decide +kernel)
  have hended := (hends (.abort 3) 3 (by decide +kernel) (by decide +kernel)).1
  rw [show (left.transaction 3).env = 0 from by decide +kernel, hcount] at hended
  exact ⟨hcount, (hchildren 1).trans (by decide +kernel),
    (hclose 0 (by decide +kernel) 2).1.mpr ⟨Nat.two_pos, hcount.symm⟩, hended⟩

end MappedStore.System
