import MappedStore.Proofs.Transition

/-!
# What the steps of a transition leave alone

A transition is put together from a few steps: another engine, an entry for a new transaction, a
record of an open or a drop, the hand-over at a commit, and another stage of life. For each of them
this module says which fields of transactions and environments it leaves alone, and what becomes of
the others.
-/

namespace MappedStore.System

variable {α : Type} {system : System} {txn other : TxnId} {env : EnvId}

/-! ## Single changes -/

/-- What holds of a transaction and its change, and of any transaction and itself, holds of all
transactions before and after. -/
theorem modifyTransaction_induction (property : Transaction → Transaction → Prop)
    (hrefl : ∀ before, property before before) {change : Transaction → Transaction}
    (h : property (system.transaction txn) (change (system.transaction txn))) (other : TxnId) :
    property (system.transaction other) ((system.modifyTransaction txn change).transaction other) := by
  by_cases hother : other = txn
  · subst hother
    by_cases hlt : other < system.transactions.length
    · rw [transaction_modifyTransaction_self _ _ hlt]
      exact h
    · have hge := Nat.le_of_not_lt hlt
      have hsame : (system.modifyTransaction other change).transaction other
          = system.transaction other := by
        simp [transaction, modifyTransaction, List.getD_eq_getElem?_getD, hge]
      rw [hsame]
      exact hrefl _
  · rw [transaction_modifyTransaction_of_ne _ _ hother]
    exact hrefl _

/-- What holds of an environment and its change, and of any environment and itself, holds of all
environments before and after. -/
theorem modifyEnvironment_induction (property : Environment → Environment → Prop)
    (hrefl : ∀ before, property before before) {change : Environment → Environment}
    (h : property (system.environment env) (change (system.environment env))) (other : EnvId) :
    property (system.environment other) ((system.modifyEnvironment env change).environment other) := by
  by_cases hother : other = env
  · subst hother
    by_cases hlt : other < system.environments.length
    · rw [environment_modifyEnvironment_self _ _ hlt]
      exact h
    · have hge := Nat.le_of_not_lt hlt
      have hsame : (system.modifyEnvironment other change).environment other
          = system.environment other := by
        simp [environment, modifyEnvironment, List.getD_eq_getElem?_getD, hge]
      rw [hsame]
      exact hrefl _
  · rw [environment_modifyEnvironment_of_ne _ _ hother]
    exact hrefl _

/-- A change that leaves a field of transactions alone leaves it alone in all of them. -/
theorem field_modifyTransaction (field : Transaction → α) {change : Transaction → Transaction}
    (h : ∀ before, field (change before) = field before) (system : System) (txn other : TxnId) :
    field ((system.modifyTransaction txn change).transaction other)
      = field (system.transaction other) :=
  modifyTransaction_induction (fun before after ↦ field after = field before) (fun _ ↦ rfl)
    (h (system.transaction txn)) other

/-- A change that leaves a field of environments alone leaves it alone in all of them. -/
theorem field_modifyEnvironment (field : Environment → α) {change : Environment → Environment}
    (h : ∀ before, field (change before) = field before) (system : System) (env other : EnvId) :
    field ((system.modifyEnvironment env change).environment other)
      = field (system.environment other) :=
  modifyEnvironment_induction (fun before after ↦ field after = field before) (fun _ ↦ rfl)
    (h (system.environment env)) other

/-- A change of a transaction keeps the number of transactions. -/
@[simp]
theorem length_modifyTransaction (system : System) (txn : TxnId)
    (change : Transaction → Transaction) :
    (system.modifyTransaction txn change).transactions.length = system.transactions.length := by
  simp [modifyTransaction]

/-- A change of an environment keeps the number of environments. -/
@[simp]
theorem length_modifyEnvironment (system : System) (env : EnvId)
    (change : Environment → Environment) :
    (system.modifyEnvironment env change).environments.length = system.environments.length := by
  simp [modifyEnvironment]

/-- A change of a transaction leaves the environments. -/
@[simp]
theorem environments_modifyTransaction (system : System) (txn : TxnId)
    (change : Transaction → Transaction) :
    (system.modifyTransaction txn change).environments = system.environments := rfl

/-- A change of an environment leaves the transactions. -/
@[simp]
theorem transactions_modifyEnvironment (system : System) (env : EnvId)
    (change : Environment → Environment) :
    (system.modifyEnvironment env change).transactions = system.transactions := rfl

/-- Further environments leave those that there are. -/
theorem environment_append (files : Files.Tree) (environments : List Environment)
    (henv : env < system.environments.length) :
    System.environment { system with
      files := files, environments := system.environments ++ environments } env
      = system.environment env := by
  simp [environment, List.getD_eq_getElem?_getD, List.getElem?_append_left henv]

/-- A further environment that has a field as one that is not there changes the field of none. -/
theorem field_append (field : Environment → α) {environment : Environment}
    (h : field environment = field .absent) (files : Files.Tree) (env : EnvId) :
    field (System.environment { system with
      files := files, environments := system.environments ++ [environment] } env)
      = field (system.environment env) := by
  rcases Nat.lt_trichotomy env system.environments.length with hlt | rfl | hgt
  · rw [environment_append files _ hlt]
  · simp [System.environment, List.getD_eq_getElem?_getD, h]
  · have hlength : (system.environments ++ [environment]).length ≤ env := by
      rw [List.length_append]
      exact hgt
    simp only [System.environment, List.getD_eq_getElem?_getD, List.getElem?_eq_none hlength,
      List.getElem?_eq_none (Nat.le_of_lt hgt)]

/-- The transactions decide which transaction a number names. -/
theorem transaction_congr {first second : System}
    (h : first.transactions = second.transactions) (txn : TxnId) :
    first.transaction txn = second.transaction txn := by
  unfold transaction
  rw [h]

/-- A number that was not given out names an ended transaction. -/
theorem transaction_of_length_le (h : system.transactions.length ≤ txn) :
    system.transaction txn = .ended := by
  simp [transaction, List.getD_eq_getElem?_getD, h]

/-- A transaction that has not ended has a number that was given out. -/
theorem lt_of_state {state : TxnState} (h : (system.transaction txn).state = state)
    (hstate : state.isFinished = false) : txn < system.transactions.length := by
  by_contra hge
  rw [transaction_of_length_le (Nat.le_of_not_lt hge)] at h
  subst h
  simp [Transaction.ended, TxnState.isFinished] at hstate

/-! ## Engines -/

/-- Another engine leaves all other fields of the environments alone. -/
theorem field_setEngine (field : Environment → α)
    (h : ∀ before engine, field { before with engine := engine } = field before) (system : System)
    (env : EnvId) (engine : Engine) (other : EnvId) :
    field ((system.setEngine env engine).environment other) = field (system.environment other) :=
  field_modifyEnvironment field (fun before ↦ h before engine) system env other

/-- The engine that was set. -/
theorem engine_setEngine (engine : Engine) (henv : env < system.environments.length) :
    (system.setEngine env engine).engine env = engine := by
  unfold System.engine setEngine
  rw [environment_modifyEnvironment_self _ _ henv]

/-- Another engine of one environment leaves the engines of the others. -/
theorem engine_setEngine_of_ne {other : EnvId} (engine : Engine) (hne : other ≠ env) :
    (system.setEngine env engine).engine other = system.engine other := by
  unfold System.engine setEngine
  rw [environment_modifyEnvironment_of_ne _ _ hne]

/-- What holds of an engine and of the one set in its place, and of any engine and itself, holds of
all engines before and after. -/
theorem engine_setEngine_induction (property : Engine → Engine → Prop)
    (hrefl : ∀ engine, property engine engine) {engine : Engine}
    (h : property (system.engine env) engine) (other : EnvId) :
    property (system.engine other) ((system.setEngine env engine).engine other) := by
  by_cases hother : other = env
  · subst hother
    by_cases hlt : other < system.environments.length
    · rw [engine_setEngine engine hlt]
      exact h
    · have hge := Nat.le_of_not_lt hlt
      have hsame : (system.setEngine other engine).engine other = system.engine other := by
        simp [System.engine, environment, setEngine, modifyEnvironment,
          List.getD_eq_getElem?_getD, hge]
      rw [hsame]
      exact hrefl _
  · rw [engine_setEngine_of_ne engine hother]
    exact hrefl _

/-! ## Ends -/

/-- The end of a transaction leaves alone all fields of transactions but the stage of life, the
claim to the writer lock and the number of children. -/
theorem field_finish (field : Transaction → α)
    (h : ∀ before state holdsWriter children, field
      { before with state := state, holdsWriter := holdsWriter, children := children }
        = field before) (system : System) (txn : TxnId) (state : TxnState) (other : TxnId) :
    field ((system.finish txn state).transaction other) = field (system.transaction other) := by
  have hself := field_modifyTransaction field
    (fun before ↦ h before state false before.children) system txn other
  unfold finish
  dsimp only
  split
  · rename_i parent hparent
    rw [field_modifyTransaction field
      (fun before ↦ h before before.state before.holdsWriter (before.children - 1))]
    exact hself
  · exact hself

/-- A transaction that has just ended, apart from the number of children. -/
theorem field_finish_self (field : Transaction → α)
    (h : ∀ before children, field { before with children := children } = field before)
    (state : TxnState) (htxn : txn < system.transactions.length) :
    field ((system.finish txn state).transaction txn)
      = field { system.transaction txn with state := state, holdsWriter := false } := by
  have hself := transaction_modifyTransaction_self system
    (fun ended : Transaction ↦ { ended with state := state, holdsWriter := false }) htxn
  unfold finish
  dsimp only
  split
  · rw [field_modifyTransaction field fun before ↦ h before (before.children - 1)]
    exact congrArg field hself
  · exact congrArg field hself

/-- The end of a transaction leaves alone all fields of the others but the number of children. -/
theorem field_finish_of_ne (field : Transaction → α)
    (h : ∀ before children, field { before with children := children } = field before)
    (state : TxnState) (hne : other ≠ txn) :
    field ((system.finish txn state).transaction other) = field (system.transaction other) := by
  have hother := transaction_modifyTransaction_of_ne system
    (fun ended : Transaction ↦ { ended with state := state, holdsWriter := false }) hne
  unfold finish
  dsimp only
  split
  · rw [field_modifyTransaction field fun before ↦ h before (before.children - 1)]
    exact congrArg field hother
  · exact congrArg field hother

/-- The end of a transaction leaves those alone that it is not nested in. -/
theorem transaction_finish_apart (state : TxnState) (hne : other ≠ txn)
    (hparent : (system.transaction txn).parent ≠ some other) :
    (system.finish txn state).transaction other = system.transaction other := by
  have hother := transaction_modifyTransaction_of_ne system
    (fun ended : Transaction ↦ { ended with state := state, holdsWriter := false }) hne
  unfold finish
  dsimp only
  split
  · rename_i parent heq
    have hapart : other ≠ parent := fun hsame ↦ hparent (hsame ▸ heq)
    rw [transaction_modifyTransaction_of_ne _ _ hapart]
    exact hother
  · exact hother

/-- The end of a transaction leaves alone all fields of environments but the number of active
transactions and the writer lock. -/
theorem field_environment_finish (field : Environment → α)
    (h : ∀ before active writerLocked,
      field { before with active := active, writerLocked := writerLocked } = field before)
    (system : System) (txn : TxnId) (state : TxnState) (env : EnvId) :
    field ((system.finish txn state).environment env) = field (system.environment env) := by
  unfold finish
  dsimp only
  split
  all_goals exact field_modifyEnvironment field (fun before ↦ h before _ _) _ _ env

/-- The writer lock is given up at the end of the transaction that holds it, and by no other. -/
theorem writerLocked_finish (system : System) (txn : TxnId) (state : TxnState) (env : EnvId)
    (h : env = (system.transaction txn).env → (system.transaction txn).holdsWriter = false) :
    ((system.finish txn state).environment env).writerLocked
      = (system.environment env).writerLocked := by
  unfold finish
  dsimp only
  by_cases henv : env = (system.transaction txn).env
  · have hkeep : ((system.modifyEnvironment (system.transaction txn).env fun environment ↦
        { environment with
          active := environment.active - 1
          writerLocked := environment.writerLocked && !(system.transaction txn).holdsWriter
          }).environment env).writerLocked = (system.environment env).writerLocked :=
      field_modifyEnvironment (·.writerLocked) (fun before ↦ by simp [h henv]) system _ env
    split
    all_goals exact hkeep
  · split
    all_goals exact congrArg (·.writerLocked) (environment_modifyEnvironment_of_ne system _ henv)

/-- An end keeps the number of transactions. -/
@[simp]
theorem length_finish (system : System) (txn : TxnId) (state : TxnState) :
    (system.finish txn state).transactions.length = system.transactions.length := by
  unfold finish
  dsimp only
  split <;> simp

/-- An end keeps the number of environments. -/
@[simp]
theorem environments_length_finish (system : System) (txn : TxnId) (state : TxnState) :
    (system.finish txn state).environments.length = system.environments.length := by
  unfold finish
  dsimp only
  split <;> simp

/-! ## Hand-overs -/

/-- A hand-over leaves alone all fields of transactions but their opens and drops. -/
theorem field_handOver (field : Transaction → α)
    (h : ∀ before opened dropped,
      field { before with opened := opened, dropped := dropped } = field before)
    (system : System) (txn other : TxnId) :
    field ((system.handOver txn).transaction other) = field (system.transaction other) := by
  have hself := field_modifyTransaction field (fun before ↦ h before [] []) system txn other
  unfold handOver
  dsimp only
  split
  · rw [field_modifyTransaction field (fun before ↦ h before _ _)]
    exact hself
  · exact hself

/-- A hand-over leaves the transactions alone that the one is not nested in. -/
theorem transaction_handOver_apart (hne : other ≠ txn)
    (hparent : (system.transaction txn).parent ≠ some other) :
    (system.handOver txn).transaction other = system.transaction other := by
  have hother := transaction_modifyTransaction_of_ne system
    (fun emptied : Transaction ↦ { emptied with opened := [], dropped := [] }) hne
  unfold handOver
  dsimp only
  split
  · rename_i parent heq
    have hapart : other ≠ parent := fun hsame ↦ hparent (hsame ▸ heq)
    rw [transaction_modifyTransaction_of_ne _ _ hapart]
    exact hother
  · exact hother

/-- A hand-over leaves alone all fields of environments but what they retain. -/
theorem field_environment_handOver (field : Environment → α)
    (h : ∀ before retained, field { before with retained := retained } = field before)
    (system : System) (txn : TxnId) (env : EnvId) :
    field ((system.handOver txn).environment env) = field (system.environment env) := by
  unfold handOver
  dsimp only
  split
  · rfl
  · exact field_modifyEnvironment field (fun before ↦ h before _) _ _ env

/-- A hand-over keeps the number of transactions. -/
@[simp]
theorem length_handOver (system : System) (txn : TxnId) :
    (system.handOver txn).transactions.length = system.transactions.length := by
  unfold handOver
  dsimp only
  split <;> simp

/-- A hand-over keeps the number of environments. -/
@[simp]
theorem environments_length_handOver (system : System) (txn : TxnId) :
    (system.handOver txn).environments.length = system.environments.length := by
  unfold handOver
  dsimp only
  split <;> simp

/-! ## Entries -/

/-- An entry leaves alone all fields of the earlier transactions but the number of children. -/
theorem field_enter (field : Transaction → α)
    (h : ∀ before children, field { before with children := children } = field before)
    (entering : Transaction) (hother : other < system.transactions.length) :
    field ((system.enter entering).transaction other) = field (system.transaction other) := by
  unfold enter
  dsimp only
  split
  · rename_i parent hparent
    have houter := field_modifyTransaction field
      (fun before ↦ h before (before.children + 1)) system parent other
    simpa [transaction, List.getD_eq_getElem?_getD, modifyTransaction, List.getElem?_append, hother]
      using houter
  · simp [transaction, List.getD_eq_getElem?_getD, List.getElem?_append, hother]

/-- An entry leaves the earlier transactions alone that the new one is not nested in. -/
theorem transaction_enter_apart {entering : Transaction} (hother : other < system.transactions.length)
    (hparent : entering.parent ≠ some other) :
    (system.enter entering).transaction other = system.transaction other := by
  unfold enter
  dsimp only
  split
  · rename_i parent heq
    have hapart : parent ≠ other := fun hsame ↦ hparent (hsame ▸ heq)
    simp [transaction, List.getD_eq_getElem?_getD, modifyTransaction, List.getElem?_append, hother,
      hapart]
  · simp [transaction, List.getD_eq_getElem?_getD, List.getElem?_append, hother]

/-- The transaction that has entered. -/
theorem transaction_enter (system : System) (entering : Transaction) :
    (system.enter entering).transaction system.transactions.length = entering := by
  unfold enter
  dsimp only
  split <;> simp [transaction, List.getD_eq_getElem?_getD]

/-- An entry adds one transaction. -/
@[simp]
theorem length_enter (system : System) (entering : Transaction) :
    (system.enter entering).transactions.length = system.transactions.length + 1 := by
  unfold enter
  dsimp only
  split <;> simp

/-- What a number names after an entry: the same transaction as before, with perhaps another number
of children, the one that has entered, or none. -/
inductive EnterOutcome (system : System) (entering : Transaction) : TxnId → Transaction → Prop where
  | kept {txn : TxnId} (children : Nat) (hlt : txn < system.transactions.length) :
      EnterOutcome system entering txn { system.transaction txn with children := children }
  | entered : EnterOutcome system entering system.transactions.length entering
  | beyond {txn : TxnId} (hgt : system.transactions.length < txn) :
      EnterOutcome system entering txn .ended

/-- Every number names one of these after an entry. -/
theorem enter_outcome (system : System) (entering : Transaction) (txn : TxnId) :
    EnterOutcome system entering txn ((system.enter entering).transaction txn) := by
  rcases Nat.lt_trichotomy txn system.transactions.length with hlt | rfl | hgt
  · have hkept := field_enter (fun before ↦ { before with children := 0 }) (fun _ _ ↦ by rfl)
      entering hlt
    generalize (system.enter entering).transaction txn = after at hkept ⊢
    have hafter : after = { system.transaction txn with children := after.children } :=
      congrArg (fun before ↦ { before with children := after.children }) hkept
    rw [hafter]
    exact .kept after.children hlt
  · rw [transaction_enter]
    exact .entered
  · rw [transaction_of_length_le (by rw [length_enter]; exact hgt)]
    exact .beyond hgt

/-- An entry leaves alone all fields of environments but the number of active transactions and the
writer lock. -/
theorem field_environment_enter (field : Environment → α)
    (h : ∀ before active writerLocked,
      field { before with active := active, writerLocked := writerLocked } = field before)
    (system : System) (entering : Transaction) (env : EnvId) :
    field ((system.enter entering).environment env) = field (system.environment env) := by
  unfold enter
  dsimp only
  split
  all_goals exact field_modifyEnvironment field (fun before ↦ h before _ _) system _ env

/-- An entry keeps the number of environments. -/
@[simp]
theorem environments_length_enter (system : System) (entering : Transaction) :
    (system.enter entering).environments.length = system.environments.length := by
  unfold enter
  dsimp only
  split <;> simp

/-! ## The engines behind all that -/

/-- A change of a transaction is no concern of the engines. -/
@[simp]
theorem engine_modifyTransaction (system : System) (txn : TxnId)
    (change : Transaction → Transaction) (env : EnvId) :
    (system.modifyTransaction txn change).engine env = system.engine env := rfl

/-- A record of an open is no concern of the engines. -/
@[simp]
theorem engine_recordOpen (system : System) (txn : TxnId) (slot generation : Nat) (env : EnvId) :
    (system.recordOpen txn slot generation).engine env = system.engine env := rfl

/-- A record of a drop is no concern of the engines. -/
@[simp]
theorem engine_recordDrop (system : System) (txn : TxnId) (slot : Nat) (env : EnvId) :
    (system.recordDrop txn slot).engine env = system.engine env := rfl

/-- A stage of life is no concern of the engines. -/
@[simp]
theorem engine_setState (system : System) (txn : TxnId) (state : TxnState) (env : EnvId) :
    (system.setState txn state).engine env = system.engine env := rfl

/-- A new generation is no concern of the engines. -/
@[simp]
theorem engine_advance (system : System) (env other : EnvId) :
    (system.advance env).engine other = system.engine other :=
  field_modifyEnvironment (·.engine) (fun _ ↦ by rfl) system env other

/-- The end of a transaction is no concern of the engines. -/
@[simp]
theorem engine_finish (system : System) (txn : TxnId) (state : TxnState) (env : EnvId) :
    (system.finish txn state).engine env = system.engine env :=
  field_environment_finish (·.engine) (fun _ _ _ ↦ by rfl) system txn state env

/-- A hand-over is no concern of the engines. -/
@[simp]
theorem engine_handOver (system : System) (txn : TxnId) (env : EnvId) :
    (system.handOver txn).engine env = system.engine env :=
  field_environment_handOver (·.engine) (fun _ _ ↦ by rfl) system txn env

/-- An entry is no concern of the engines. -/
@[simp]
theorem engine_enter (system : System) (entering : Transaction) (env : EnvId) :
    (system.enter entering).engine env = system.engine env :=
  field_environment_enter (·.engine) (fun _ _ _ ↦ by rfl) system entering env

/-- An entry is no concern of the files. -/
@[simp]
theorem files_enter (system : System) (entering : Transaction) :
    (system.enter entering).files = system.files := by
  unfold enter
  cases entering.parent <;> rfl

/-- The end of a transaction is no concern of the files. -/
@[simp]
theorem files_finish (system : System) (txn : TxnId) (state : TxnState) :
    (system.finish txn state).files = system.files := by
  unfold finish
  dsimp only
  split <;> rfl

/-- A hand-over is no concern of the files. -/
@[simp]
theorem files_handOver (system : System) (txn : TxnId) :
    (system.handOver txn).files = system.files := by
  unfold handOver
  dsimp only
  split <;> rfl

end MappedStore.System
