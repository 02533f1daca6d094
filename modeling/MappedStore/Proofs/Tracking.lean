import MappedStore.Proofs.Counts
import MappedStore.Proofs.Discipline

/-!
# What the calls tell about a process

The calls that a process has made tell which native transactions belong to its transactions, which
of these have ended or are at rest, and how things are with its environments (`System.Tracks`). Each
lemma here is about one more call and the change of the process that goes with it.
-/

namespace MappedStore

/-- A call that neither begins a transaction nor changes the stage of life of one. -/
structure Called.Idle (made : Called) : Prop where
  begins : ∀ native parent flags, made.call ≠ .begin (some native) parent flags
  ends : made.call.ended? = none
  resets : ∀ native, made.call ≠ .reset native
  wakes : ∀ native, ¬ (made.call = .renew native ∧ made.code = 0)

/-- A call about an environment as a whole is idle. -/
theorem Call.idle_of_isWhole {call : Call} (h : call.isWhole = true) (env : EnvId) (code : Code) :
    Called.Idle ⟨env, call, code⟩ ∧ ∀ standing, Standing.next standing ⟨env, call, code⟩ = standing := by
  cases call <;> simp_all [Call.isWhole, Standing.next]
  all_goals exact ⟨by simp, rfl, by simp, by simp⟩

/-- A use of a database is idle. -/
theorem Call.idle_of_use {call : Call} {native : Nat} (h : call.use? = some native) (env : EnvId)
    (code : Code) :
    Called.Idle ⟨env, call, code⟩ ∧ ∀ standing, Standing.next standing ⟨env, call, code⟩ = standing := by
  cases call <;> simp_all [Call.use?, Standing.next]
  all_goals exact ⟨by simp, rfl, by simp, by simp⟩

namespace Calls

variable {calls more : Calls} {env : EnvId} {native : Nat} {parent : Option Nat}

/-- Idle calls begin nothing. -/
theorem begun_idle (h : ∀ made ∈ more, made.Idle) :
    (calls ++ more).Begun env native parent ↔ calls.Begun env native parent := by
  constructor
  · rintro ⟨made, hmade, henv, flags, hcall⟩
    rcases List.mem_append.mp hmade with hmade | hmade
    · exact ⟨made, hmade, henv, flags, hcall⟩
    · exact absurd hcall ((h made hmade).begins native parent flags)
  · rintro ⟨made, hmade, hrest⟩
    exact ⟨made, List.mem_append_left more hmade, hrest⟩

/-- Idle calls end nothing. -/
theorem ended_idle (h : ∀ made ∈ more, made.Idle) :
    (calls ++ more).Ended env native ↔ calls.Ended env native := by
  constructor
  · rintro ⟨made, hmade, henv, hends⟩
    rcases List.mem_append.mp hmade with hmade | hmade
    · exact ⟨made, hmade, henv, hends⟩
    · rw [(h made hmade).ends] at hends
      exact absurd hends (by simp)
  · rintro ⟨made, hmade, hrest⟩
    exact ⟨made, List.mem_append_left more hmade, hrest⟩

/-- Idle calls put nothing to sleep and wake nothing. -/
theorem asleep_idle (h : ∀ made ∈ more, made.Idle) :
    (calls ++ more).Asleep env native ↔ calls.Asleep env native := by
  induction more using List.reverseRecOn with
  | nil => rw [List.append_nil]
  | append_singleton more made ih =>
      have hmade := h made (by simp)
      rw [← List.append_assoc, asleep_concat, ih fun call hcall ↦ h call (by simp [hcall]),
        or_iff_right fun hreset ↦ hmade.resets _ hreset.2,
        and_iff_left fun hwake ↦ hmade.wakes _ hwake.2]

end Calls

namespace System

variable {system after middle : System} {calls : Calls} {made : Called} {env : EnvId}
  {txn other : TxnId} {state : TxnState}

/-! ## Stages of life -/

/-- A process in which at most the stage of life of one transaction has changed that had not
ended. -/
structure Moved (system after : System) (txn : TxnId) (state : TxnState) : Prop where
  unfinished : (system.transaction txn).state.isFinished = false
  transactions : after.transactions.length = system.transactions.length
  environments : after.environments.length = system.environments.length
  identity : ∀ other, (after.transaction other).identity = (system.transaction other).identity
  self : (after.transaction txn).state = state
  others : ∀ other, other ≠ txn → (after.transaction other).state = (system.transaction other).state
  closed : ∀ env, (after.environment env).closed = (system.environment env).closed

/-- A transaction has ended. -/
theorem Unmoved.finish (h : Unmoved system middle)
    (hunfinished : (system.transaction txn).state.isFinished = false) (state : TxnState) :
    Moved system (middle.finish txn state) txn state where
  unfinished := hunfinished
  transactions := (length_finish _ _ _).trans h.transactions
  environments := (environments_length_finish _ _ _).trans h.environments
  identity other := (field_finish (·.identity) (fun _ _ _ _ ↦ by rfl) _ _ _ _).trans (h.identity other)
  self := field_finish_self (·.state) (fun _ _ ↦ by rfl) state
    (h.transactions ▸ lt_of_state rfl hunfinished)
  others other hne :=
    (field_finish_of_ne (·.state) (fun _ _ ↦ by rfl) state hne).trans (h.state other)
  closed env := (field_environment_finish (·.closed) (fun _ _ _ ↦ by rfl) _ _ _ _).trans
    (congrArg (·.1) (h.environment env))

/-- A transaction was put to rest or has woken. -/
theorem Unmoved.setState (h : Unmoved system middle)
    (hunfinished : (system.transaction txn).state.isFinished = false) (state : TxnState) :
    Moved system (middle.setState txn state) txn state where
  unfinished := hunfinished
  transactions := (length_modifyTransaction _ _ _).trans h.transactions
  environments := h.environments
  identity other :=
    (field_modifyTransaction (·.identity) (fun _ ↦ by rfl) _ _ _).trans (h.identity other)
  self := congrArg (·.state) (transaction_modifyTransaction_self _ _
    (h.transactions ▸ lt_of_state rfl hunfinished))
  others other hne := (congrArg (·.state) (transaction_modifyTransaction_of_ne _ _ hne)).trans
    (h.state other)
  closed env := congrArg (·.1) (h.environment env)

/-- Transactions that have not ended are in open environments, and not nested in any that is at
rest. -/
structure Housed (system : System) : Prop where
  opened : ∀ txn, (system.transaction txn).state.isFinished = false →
    (system.environment (system.transaction txn).env).closed = false
  roused : ∀ txn outer, (system.transaction txn).state.isFinished = false →
    (system.transaction txn).parent = some outer → (system.transaction outer).state ≠ .reset

/-- At the start of a process there are no transactions. -/
theorem housed_start (checks : Bool) (files : Files.Tree) :
    Housed { checks := checks, files := files } := by
  constructor
  all_goals
    intro txn
    simp [transaction, Transaction.ended, TxnState.isFinished]

/-- The environment of a transaction is the same when its identity is. -/
theorem env_of_identity (h : (after.transaction txn).identity = (system.transaction txn).identity) :
    (after.transaction txn).env = (system.transaction txn).env :=
  congrArg (·.1) h

/-- The native handle of a transaction is the same when its identity is. -/
theorem native_of_identity
    (h : (after.transaction txn).identity = (system.transaction txn).identity) :
    after.native txn = system.native txn :=
  congrArg (·.2.1) h

/-- The parent of a transaction is the same when its identity is. -/
theorem parent_of_identity
    (h : (after.transaction txn).identity = (system.transaction txn).identity) :
    (after.transaction txn).parent = (system.transaction txn).parent :=
  congrArg (·.2.2.2) h

/-- Nothing about the stages of life has changed. -/
theorem Housed.unmoved (h : Housed system) (hmoved : Unmoved system after) : Housed after := by
  constructor
  · intro txn
    rw [hmoved.state, env_of_identity (hmoved.identity txn),
      show (after.environment _).closed = _ from congrArg (·.1) (hmoved.environment _)]
    exact h.opened txn
  · intro txn outer
    rw [hmoved.state, hmoved.state, parent_of_identity (hmoved.identity txn)]
    exact h.roused txn outer

/-- A transaction has ended, was put to rest or has woken; only one without children is put to
rest. -/
theorem Housed.moved (h : Housed system) (hcounted : Counted system)
    (hmoved : Moved system after txn state)
    (hrest : state = .reset → (system.transaction txn).children = 0) : Housed after := by
  have hback : ∀ other, (after.transaction other).state.isFinished = false →
      (system.transaction other).state.isFinished = false := by
    intro other hother
    by_cases heq : other = txn
    · exact heq ▸ hmoved.unfinished
    · rwa [← hmoved.others other heq]
  constructor
  · intro other hother
    rw [env_of_identity (hmoved.identity other), hmoved.closed]
    exact h.opened other (hback other hother)
  · intro other outer hother hparent
    rw [parent_of_identity (hmoved.identity other)] at hparent
    by_cases heq : outer = txn
    · subst heq
      rw [hmoved.self]
      intro hreset
      have hended := hcounted.finished_of_children (hrest hreset) hparent
      rw [hback other hother] at hended
      exact absurd hended (by simp)
    · rw [hmoved.others outer heq]
      exact h.roused other outer (hback other hother) hparent

/-- A further environment. -/
theorem Housed.append (h : Housed system) {files : Files.Tree} {environment : Environment} :
    Housed { system with files := files, environments := system.environments ++ [environment] } := by
  refine ⟨fun txn htxn ↦ ?_, h.roused⟩
  have hopen := h.opened txn htxn
  have henv := env_lt_of_open hopen
  exact (congrArg (·.closed) (environment_append files _ henv)).trans hopen

/-- An environment without active transactions was closed. -/
theorem Housed.closed (h : Housed system) (hcounted : Counted system)
    (hactive : (system.environment env).active = 0) :
    Housed (system.modifyEnvironment env ({ · with closed := true, retained := [] })) := by
  refine ⟨fun txn htxn ↦ ?_, h.roused⟩
  by_cases henv : (system.transaction txn).env = env
  · subst henv
    have hended := hcounted.finished_of_active hactive
    rw [show (system.transaction txn).state.isFinished = false from htxn] at hended
    exact absurd hended (by simp)
  · refine Eq.trans ?_ (h.opened txn htxn)
    exact congrArg (·.closed) (environment_modifyEnvironment_of_ne _ _ henv)

/-- A transaction has entered, nested in one that is active. -/
theorem Housed.enter (h : Housed system) {entering : Transaction}
    (hnested : ∀ txn parent, (system.transaction txn).parent = some parent → parent < txn)
    (hopen : (system.environment entering.env).closed = false)
    (hparent : ∀ parent, entering.parent = some parent →
      (system.transaction parent).state = .active) : Housed (system.enter entering) := by
  have hclosed : ∀ env, ((system.enter entering).environment env).closed
      = (system.environment env).closed :=
    field_environment_enter (·.closed) (fun _ _ _ ↦ by rfl) system entering
  -- A transaction that was there and is not at rest is not at rest after the entry either.
  have hkeep : ∀ {outer}, (system.transaction outer).state ≠ .reset →
      outer < system.transactions.length →
      ((system.enter entering).transaction outer).state ≠ .reset := fun hne hlt ↦ by
    rwa [field_enter (·.state) (fun _ _ ↦ by rfl) entering hlt]
  constructor
  · intro other hother
    rw [hclosed]
    have houtcome := system.enter_outcome entering other
    generalize (system.enter entering).transaction other = after at houtcome hother ⊢
    cases houtcome with
    | kept => exact h.opened other hother
    | entered => exact hopen
    | beyond => cases hother
  · intro other outer hother houter
    have houtcome := system.enter_outcome entering other
    generalize (system.enter entering).transaction other = after at houtcome hother houter
    cases houtcome with
    | kept _ hlt =>
        exact hkeep (h.roused other outer hother houter)
          (Nat.lt_trans (hnested other outer houter) hlt)
    | entered =>
        have hactive := hparent outer houter
        exact hkeep (by simp [hactive]) (lt_of_state hactive rfl)
    | beyond => cases hother

/-- Whatever happens, transactions that have not ended stay housed. -/
theorem Housed.act (h : Housed system) (hsound : Sound system) (hcounted : Counted system)
    (action : Action) : Housed (system.after action) := by
  have hconduct := system.conduct_act action
  generalize (system.act action).calls = calls at hconduct
  generalize system.after action = after at hconduct ⊢
  have hunfinished : ∀ {txn}, (system.transaction txn).lifecycleFault = none →
      (system.transaction txn).state.isFinished = false := by
    intro txn hfault
    rw [(active_of_lifecycleFault hfault).1]
    rfl
  cases hconduct with
  | quiet hmoved | openFailed _ hmoved | whole _ _ hmoved | beginFailed _ hmoved
  | used _ _ _ hmoved | renewalFailed _ _ hmoved => exact h.unmoved hmoved
  | opened => exact h.append
  | closed _ hactive hmoved => exact (h.closed hcounted hactive).unmoved hmoved
  | @began env parent flags thread native engine hfault hbegin =>
      have hset := Unmoved.setEngine system env engine
      refine (h.unmoved hset).enter hsound.anchored.parent_lt ?_ fun outer houter ↦ ?_
      · exact (congrArg (·.1) (hset.environment env)).trans (open_of_beginFault hfault)
      · exact (active_of_lifecycleFault ((of_beginFault hfault).2 outer houter).2).1
  | committed hfault hstate hmoved =>
      refine h.moved hcounted (hmoved.finish (hunfinished hfault) _) ?_
      rintro rfl
      cases hstate
  | aborted _ hstate hmoved => exact h.moved hcounted (hmoved.finish hstate .aborted) nofun
  | reset hfault hmoved =>
      exact h.moved hcounted (hmoved.setState (hunfinished hfault) .reset)
        fun _ ↦ (active_of_lifecycleFault hfault).2
  | renewed hstate hmoved =>
      exact h.moved hcounted (hmoved.setState (by rw [hstate]; rfl) .active) nofun

/-! ## What the calls tell -/

/-- A transaction of an environment has a native handle, and the one that it is nested in has
another. -/
def Known (system : System) (env : EnvId) (native : Nat) (parent : Option Nat) : Prop :=
  ∃ txn < system.transactions.length, (system.transaction txn).env = env ∧
    system.native txn = native ∧ (system.transaction txn).parent.map system.native = parent

/-- How things are with the number of an environment. -/
def standing (system : System) (env : EnvId) : Standing :=
  if system.environments.length ≤ env then .absent
  else if (system.environment env).closed then .closed else .opened

/-- The calls that were made tell what has become of transactions and environments. -/
structure Tracks (system : System) (calls : Calls) : Prop where
  begun : ∀ env native parent, calls.Begun env native parent ↔ system.Known env native parent
  ended : ∀ txn < system.transactions.length,
    calls.Ended (system.transaction txn).env (system.native txn) ↔
      (system.transaction txn).state.isFinished = true
  asleep : ∀ txn, (system.transaction txn).state.isFinished = false →
    (calls.Asleep (system.transaction txn).env (system.native txn) ↔
      (system.transaction txn).state = .reset)
  standing : ∀ env, calls.standing env = system.standing env

/-- The native handles are the same when the identities are. -/
theorem known_congr (hlength : after.transactions.length = system.transactions.length)
    (h : ∀ txn, (after.transaction txn).identity = (system.transaction txn).identity)
    (env : EnvId) (native : Nat) (parent : Option Nat) :
    after.Known env native parent ↔ system.Known env native parent := by
  have hnative : after.native = system.native := funext fun txn ↦ native_of_identity (h txn)
  simp only [Known, hlength, hnative, env_of_identity (h _), parent_of_identity (h _)]

/-- The environments are as before when as many are there and the same are closed. -/
theorem standing_congr (hlength : after.environments.length = system.environments.length)
    (h : (after.environment env).closed = (system.environment env).closed) :
    after.standing env = system.standing env := by
  simp only [standing, hlength, h]

/-- An environment that is not closed was opened. -/
theorem standing_of_open (h : (system.environment env).closed = false) :
    system.standing env = .opened := by
  rw [standing, if_neg (Nat.not_le_of_lt (env_lt_of_open h)), h]
  rfl

/-- The transactions that are known once one has entered. -/
theorem known_enter {entering : Transaction}
    (hnested : ∀ txn parent, (system.transaction txn).parent = some parent → parent < txn)
    (hparent : ∀ parent, entering.parent = some parent → parent < system.transactions.length)
    (env : EnvId) (native : Nat) (parent : Option Nat) :
    (system.enter entering).Known env native parent ↔ system.Known env native parent ∨
      entering.env = env ∧ entering.native = native ∧ entering.parent.map system.native = parent := by
  have hidentity : ∀ other < system.transactions.length,
      ((system.enter entering).transaction other).identity = (system.transaction other).identity :=
    fun other ↦ field_enter (·.identity) (fun _ _ ↦ by rfl) entering
  have hnew := transaction_enter system entering
  have hnative : (system.enter entering).native system.transactions.length = entering.native :=
    congrArg (·.native) hnew
  have houter : ∀ {parent : Option TxnId},
      (∀ outer, parent = some outer → outer < system.transactions.length) →
      parent.map (system.enter entering).native = parent.map system.native := by
    rintro (_ | outer) hlt
    · rfl
    · exact congrArg some (native_of_identity (hidentity outer (hlt outer rfl)))
  have hold : ∀ txn < system.transactions.length,
      ((system.enter entering).transaction txn).parent.map (system.enter entering).native
        = (system.transaction txn).parent.map system.native := by
    intro txn htxn
    rw [parent_of_identity (hidentity txn htxn)]
    exact houter fun outer hfound ↦ Nat.lt_trans (hnested txn outer hfound) htxn
  constructor
  · rintro ⟨txn, htxn, henv, hnative', hparent'⟩
    rw [length_enter] at htxn
    rcases Nat.lt_succ_iff_lt_or_eq.mp htxn with hlt | rfl
    · exact .inl ⟨txn, hlt, env_of_identity (hidentity txn hlt) ▸ henv,
        native_of_identity (hidentity txn hlt) ▸ hnative', (hold txn hlt).symm.trans hparent'⟩
    · rw [hnew] at henv hparent'
      exact .inr ⟨henv, hnative.symm.trans hnative', (houter hparent).symm.trans hparent'⟩
  · rintro (⟨txn, htxn, henv, hnative', hparent'⟩ | ⟨henv, hnative', hparent'⟩)
    · refine ⟨txn, by rw [length_enter]; exact Nat.lt_succ_of_lt htxn, ?_, ?_, ?_⟩
      · exact (env_of_identity (hidentity txn htxn)).trans henv
      · exact (native_of_identity (hidentity txn htxn)).trans hnative'
      · exact (hold txn htxn).trans hparent'
    · refine ⟨_, by rw [length_enter]; exact Nat.lt_succ_self _, ?_, hnative.trans hnative', ?_⟩
      · rw [hnew]
        exact henv
      · rw [hnew]
        exact (houter hparent).trans hparent'

namespace Tracks

/-- Nothing has been called at the start of a process. -/
theorem start (checks : Bool) (files : Files.Tree) :
    Tracks { checks := checks, files := files } [] where
  begun env native parent := by simp [Calls.Begun, Known]
  ended txn htxn := absurd htxn (Nat.not_lt_zero txn)
  asleep txn htxn := by simp [transaction, Transaction.ended, TxnState.isFinished] at htxn
  standing env := rfl

/-- Nothing about the stages of life has changed. -/
theorem unmoved (h : Tracks system calls) (hmoved : Unmoved system after) : Tracks after calls where
  begun env native parent := (h.begun env native parent).trans
    (known_congr hmoved.transactions hmoved.identity env native parent).symm
  ended txn htxn := by
    rw [env_of_identity (hmoved.identity txn), native_of_identity (hmoved.identity txn),
      hmoved.state]
    exact h.ended txn (hmoved.transactions ▸ htxn)
  asleep txn htxn := by
    rw [hmoved.state] at htxn
    rw [env_of_identity (hmoved.identity txn), native_of_identity (hmoved.identity txn),
      hmoved.state]
    exact h.asleep txn htxn
  standing env := (h.standing env).trans
    (standing_congr hmoved.environments (congrArg (·.1) (hmoved.environment env))).symm

/-- Idle calls, which tell at most something about an environment. -/
theorem note (h : Tracks system calls) {more : Calls} (hidle : ∀ made ∈ more, made.Idle)
    (htransactions : after.transactions = system.transactions)
    (hstanding : ∀ env, (calls ++ more).standing env = after.standing env) :
    Tracks after (calls ++ more) := by
  have hsame := transaction_congr htransactions
  have hidentity : ∀ txn, (after.transaction txn).identity = (system.transaction txn).identity :=
    fun txn ↦ congrArg Transaction.identity (hsame txn)
  refine ⟨fun env native parent ↦ ?_, fun txn htxn ↦ ?_, fun txn htxn ↦ ?_, hstanding⟩
  · rw [Calls.begun_idle hidle, known_congr (congrArg List.length htransactions) hidentity,
      h.begun env native parent]
  · rw [Calls.ended_idle hidle, native_of_identity (hidentity txn), hsame,
      h.ended txn (htransactions ▸ htxn)]
  · rw [hsame] at htxn
    rw [Calls.asleep_idle hidle, native_of_identity (hidentity txn), hsame, h.asleep txn htxn]

/-- A call that changes the stage of life of a transaction. -/
theorem moved (h : Tracks system calls) (hmoved : Moved system after txn state)
    (hbegins : ∀ native parent flags, made.call ≠ .begin (some native) parent flags)
    (hended : ∀ other < system.transactions.length,
      (made.env = (system.transaction other).env ∧ made.call.ended? = some (system.native other)) ↔
        other = txn ∧ state.isFinished = true)
    (hreset : ∀ other < system.transactions.length,
      (made.env = (system.transaction other).env ∧ made.call = .reset (system.native other)) ↔
        other = txn ∧ state = .reset)
    (hwake : ∀ other < system.transactions.length,
      (made.env = (system.transaction other).env ∧ made.call = .renew (system.native other) ∧
        made.code = 0) ↔ other = txn ∧ state = .active)
    (hstanding : ∀ standing, Standing.next standing made = standing) :
    Tracks after (calls ++ [made]) := by
  refine ⟨fun env native parent ↦ ?_, fun other hother ↦ ?_, fun other hother ↦ ?_, fun env ↦ ?_⟩
  · rw [Calls.begun_concat, known_congr hmoved.transactions hmoved.identity,
      h.begun env native parent, or_iff_left]
    rintro ⟨-, flags, hcall⟩
    exact hbegins native parent flags hcall
  · rw [hmoved.transactions] at hother
    rw [Calls.ended_concat, env_of_identity (hmoved.identity other),
      native_of_identity (hmoved.identity other), h.ended other hother, hended other hother]
    by_cases heq : other = txn
    · subst heq
      simp [hmoved.self, hmoved.unfinished]
    · simp [hmoved.others other heq, heq]
  · have hlt := hmoved.transactions ▸ lt_of_state rfl hother
    rw [Calls.asleep_concat, env_of_identity (hmoved.identity other),
      native_of_identity (hmoved.identity other), hreset other hlt, hwake other hlt]
    by_cases heq : other = txn
    · subst heq
      rw [hmoved.self] at hother ⊢
      rw [h.asleep other hmoved.unfinished]
      cases state <;> simp_all [TxnState.isFinished]
    · rw [hmoved.others other heq] at hother ⊢
      simp [h.asleep other hother, heq]
  · rw [Calls.standing_concat, hstanding, ite_self, h.standing,
      standing_congr hmoved.environments (hmoved.closed env)]

/-- Transactions of an environment have the same handle only if they are the same. -/
theorem same_iff (hanchored : Anchored system) (htxn : txn < system.transactions.length)
    (hother : other < system.transactions.length) :
    ((system.transaction txn).env = (system.transaction other).env ∧
      system.native txn = system.native other) ↔ other = txn := by
  constructor
  · rintro ⟨henv, hnative⟩
    exact (hanchored.native_inj txn htxn other hother henv hnative).symm
  · rintro rfl
    exact ⟨rfl, rfl⟩

/-- A transaction was committed or aborted. -/
theorem ends (h : Tracks system calls) (hanchored : Anchored system)
    (hmoved : Moved system after txn state) (hstate : state.isFinished = true)
    (henv : made.env = (system.transaction txn).env)
    (hcall : made.call.ended? = some (system.native txn)) : Tracks after (calls ++ [made]) := by
  have htxn := lt_of_state rfl hmoved.unfinished
  obtain ⟨env, call, code⟩ := made
  obtain rfl : env = _ := henv
  cases call with
  | commit native | abort native =>
      obtain rfl := Option.some.inj hcall
      refine h.moved hmoved (by simp) (fun other hother ↦ ?_) (fun other hother ↦ ?_)
        (fun other hother ↦ ?_) fun _ ↦ rfl
      · simpa [Call.ended?, hstate] using same_iff hanchored htxn hother
      · cases state <;> simp_all [TxnState.isFinished]
      · cases state <;> simp_all [TxnState.isFinished]
  | _ => simp [Call.ended?] at hcall

/-- A transaction was reset. -/
theorem sleeps (h : Tracks system calls) (hanchored : Anchored system)
    (hmoved : Moved system after txn .reset) :
    Tracks after (calls ++ [⟨(system.transaction txn).env, .reset (system.native txn), 0⟩]) := by
  refine h.moved hmoved (by simp) (fun other hother ↦ ?_) (fun other hother ↦ ?_)
    (fun other hother ↦ ?_) fun _ ↦ rfl
  · simp [Call.ended?, TxnState.isFinished]
  · simpa using same_iff hanchored (lt_of_state rfl hmoved.unfinished) hother
  · simp

/-- A transaction was renewed. -/
theorem wakes (h : Tracks system calls) (hanchored : Anchored system)
    (hmoved : Moved system after txn .active) :
    Tracks after (calls ++ [⟨(system.transaction txn).env, .renew (system.native txn), 0⟩]) := by
  refine h.moved hmoved (by simp) (fun other hother ↦ ?_) (fun other hother ↦ ?_)
    (fun other hother ↦ ?_) fun _ ↦ rfl
  · simp [Call.ended?, TxnState.isFinished]
  · simp
  · simpa using same_iff hanchored (lt_of_state rfl hmoved.unfinished) hother

/-- A transaction has entered under a handle that none had before. -/
theorem enter (h : Tracks system calls) (hdisciplined : calls.Disciplined)
    {entering : Transaction} {flags : TxnFlags}
    (hnested : ∀ txn parent, (system.transaction txn).parent = some parent → parent < txn)
    (hfresh : ∀ parent, ¬ system.Known entering.env entering.native parent)
    (hparent : ∀ parent, entering.parent = some parent → parent < system.transactions.length)
    (hactive : entering.state = .active) :
    Tracks (system.enter entering) (calls ++ [⟨entering.env,
      .begin (some entering.native) (entering.parent.map system.native) flags, 0⟩]) := by
  refine ⟨fun env native parent ↦ ?_, fun other hother ↦ ?_, fun other hother ↦ ?_, fun env ↦ ?_⟩
  · rw [Calls.begun_concat, h.begun env native parent, known_enter hnested hparent]
    refine or_congr_right ⟨?_, ?_⟩
    · rintro ⟨rfl, flags', hcall⟩
      obtain ⟨hsame, hsame', -⟩ := Call.begin.inj hcall
      exact ⟨rfl, Option.some.inj hsame, hsame'⟩
    · rintro ⟨rfl, rfl, rfl⟩
      exact ⟨rfl, flags, rfl⟩
  · rw [Calls.ended_concat, or_iff_left (by simp [Call.ended?])]
    have houtcome := system.enter_outcome entering other
    rw [length_enter] at hother
    unfold native
    generalize (system.enter entering).transaction other = after at houtcome ⊢
    cases houtcome with
    | kept _ hlt => exact h.ended other hlt
    | entered =>
        rw [hactive]
        refine iff_of_false (fun hended ↦ ?_) (by simp [TxnState.isFinished])
        obtain ⟨parent, hbegun⟩ := hdisciplined.begun_of_ended hended
        exact hfresh parent ((h.begun _ _ _).mp hbegun)
    | beyond hgt => exact absurd hother (Nat.not_lt_of_le hgt)
  · rw [Calls.asleep_concat, or_iff_right (by simp), and_iff_left (by simp)]
    have houtcome := system.enter_outcome entering other
    unfold native
    generalize (system.enter entering).transaction other = after at houtcome hother ⊢
    cases houtcome with
    | kept => exact h.asleep other hother
    | entered =>
        rw [hactive]
        refine iff_of_false (fun hasleep ↦ ?_) (by simp)
        obtain ⟨parent, hbegun⟩ := hdisciplined.begun_of_asleep hasleep
        exact hfresh parent ((h.begun _ _ _).mp hbegun)
    | beyond => cases hother
  · rw [Calls.standing_concat, h.standing, ← standing_congr (environments_length_enter _ entering)
      (field_environment_enter (·.closed) (fun _ _ _ ↦ by rfl) system entering env)]
    exact ite_self _

/-- A call about an environment that stays as it is. -/
theorem quiet (h : Tracks system calls) (hmoved : Unmoved system after) (hidle : made.Idle)
    (hstanding : ∀ standing, Standing.next standing made = standing) :
    Tracks after (calls ++ [made]) := by
  refine (@note _ system _ h _ ?_ rfl fun env ↦ ?_).unmoved hmoved
  · simpa using hidle
  · rw [Calls.standing_concat, hstanding, ite_self, h.standing]

/-- An environment was opened. -/
theorem opened (h : Tracks system calls) {path : Bytes} {flags : EnvFlags} {config : Config}
    {environment : Environment} {files : Files.Tree} (hopen : environment.closed = false) :
    Tracks { system with files := files, environments := system.environments ++ [environment] }
      (calls ++ [⟨system.environments.length, .openEnvironment path flags config, 0⟩]) := by
  refine h.note (fun made hmade ↦ ?_) rfl fun env ↦ ?_
  · obtain rfl := List.mem_singleton.mp hmade
    exact ⟨by simp, rfl, by simp, by simp⟩
  · rw [Calls.standing_concat, h.standing]
    rcases Nat.lt_trichotomy env system.environments.length with hlt | rfl | hgt
    · rw [if_neg (Nat.ne_of_gt hlt)]
      simp [System.standing, environment_append files _ hlt, Nat.not_le_of_lt hlt,
        Nat.not_le_of_lt (Nat.lt_succ_of_lt hlt)]
    · simp [System.standing, System.environment, List.getD_eq_getElem?_getD, Standing.next, hopen]
    · rw [if_neg (Nat.ne_of_lt hgt)]
      simp [System.standing, Nat.le_of_lt hgt, Nat.succ_le_of_lt hgt]

/-- An open has failed, and what it left behind was closed. -/
theorem openFailed (h : Tracks system calls) (hmoved : Unmoved system after) {path : Bytes}
    {flags : EnvFlags} {config : Config} {code : Code} (hcode : code ≠ 0) :
    Tracks after (calls ++ [⟨system.environments.length, .openEnvironment path flags config, code⟩,
      ⟨system.environments.length, .closeEnvironment, 0⟩]) := by
  refine (@note _ system _ h _ (fun made hmade ↦ ?_) rfl fun env ↦ ?_).unmoved hmoved
  · rcases List.mem_pair.mp hmade with rfl | rfl
    all_goals exact ⟨by simp, rfl, by simp, by simp⟩
  · rw [List.append_cons, Calls.standing_concat, Calls.standing_concat, h.standing]
    by_cases henv : system.environments.length = env
    · subst henv
      simp [System.standing, Standing.next, hcode]
    · simp [henv]

/-- An environment was closed. -/
theorem closed (h : Tracks system calls) (hopen : (system.environment env).closed = false)
    (hmoved : Unmoved
      (system.modifyEnvironment env ({ · with closed := true, retained := [] })) after) :
    Tracks after (calls ++ [⟨env, .closeEnvironment, 0⟩]) := by
  refine Tracks.unmoved (@note _ (system.modifyEnvironment env _) _ h _ (fun made hmade ↦ ?_) rfl
    fun other ↦ ?_) hmoved
  · obtain rfl := List.mem_singleton.mp hmade
    exact ⟨by simp, rfl, by simp, by simp⟩
  · have henv := env_lt_of_open hopen
    rw [Calls.standing_concat, h.standing]
    by_cases hother : env = other
    · subst hother
      rw [if_pos rfl, standing_of_open hopen, System.standing, length_modifyEnvironment,
        if_neg (Nat.not_le_of_lt henv), environment_modifyEnvironment_self _ _ henv]
      rfl
    · rw [if_neg hother, System.standing, System.standing, length_modifyEnvironment,
        environment_modifyEnvironment_of_ne _ _ (Ne.symm hother)]

end Tracks

end System

/-- In every state that a process can reach, transactions that have not ended are housed. -/
theorem Reachable.housed {system : System} (h : Reachable system) : system.Housed := by
  obtain ⟨checks, files, hrun⟩ := h
  induction hrun with
  | nil => exact System.housed_start checks files
  | step hrun _ ih =>
      have hreachable : Reachable _ := ⟨checks, files, hrun⟩
      exact ih.act hreachable.sound hreachable.counted _

end MappedStore
