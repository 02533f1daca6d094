import MappedStore.Proofs.Bystanders
import MappedStore.Proofs.Engine.Errands

/-!
# Opens that bring their own transaction

Opening a database through an environment begins a root, opens the database in it, and ends it
again, by a commit or by a drop. Between the begin and the end nothing but the environment and the
new transaction changes (`System.lend`). So whatever the result is, the process has the same
transactions as before, and as many of them are active (`System.openDatabase_atomic`).
-/

namespace MappedStore.System

variable {system : System} {env : EnvId} {environment : Environment} {txn : Transaction}
  {name : Option String} {flags : DbFlags} {thread : Nat}

/-! ## A process while it lends a transaction -/

/-- The process with another transaction, and with one of its environments replaced. -/
def lend (system : System) (env : EnvId) (environment : Environment) (txn : Transaction) : System :=
  { system with
    environments := system.environments.set env environment
    transactions := system.transactions ++ [txn] }

/-- The environment that was replaced. -/
theorem environment_lend (henv : env < system.environments.length) :
    (system.lend env environment txn).environment env = environment := by
  simp [System.environment, lend, henv]

/-- A field of the environment that was replaced. -/
theorem field_lend {α : Type} (field : Environment → α) (henv : env < system.environments.length) :
    field ((system.lend env environment txn).environment env) = field environment :=
  congrArg field (environment_lend henv)

/-- The other environments are as they were. -/
theorem environment_lend_of_ne {other : EnvId} (hne : other ≠ env) :
    (system.lend env environment txn).environment other = system.environment other := by
  simp [System.environment, lend, List.getD_eq_getElem?_getD, hne.symm]

/-- The new transaction has the last number. -/
theorem transaction_lend :
    (system.lend env environment txn).transaction system.transactions.length = txn := by
  simp [transaction, lend]

/-- The other transactions are as they were. -/
theorem transaction_lend_of_lt {other : TxnId} (hother : other < system.transactions.length) :
    (system.lend env environment txn).transaction other = system.transaction other := by
  simp [transaction, lend, List.getD_eq_getElem?_getD, List.getElem?_append_left hother]

/-- Whatever transaction is not among the earlier ones is over, if the new one is. -/
theorem isFinished_lend (hended : txn.state.isFinished = true) {other : TxnId}
    (hother : system.transactions.length ≤ other) :
    ((system.lend env environment txn).transaction other).state.isFinished = true := by
  rcases hother.eq_or_lt with rfl | hlt
  · rw [transaction_lend]
    exact hended
  · rw [transaction_of_length_le (by simpa [lend] using hlt)]
    rfl

/-- Changing what stands at a position is putting the changed item there. -/
theorem modify_eq_set {α : Type} {items : List α} {index : Nat} (item : α) (change : α → α)
    (h : ∀ hindex : index < items.length, items[index] = item) :
    items.modify index change = items.set index (change item) := by
  rw [List.modify_eq_set_getElem?]
  by_cases hindex : index < items.length
  · simp [hindex, h hindex]
  · simp [hindex, List.set_eq_of_length_le (Nat.le_of_not_lt hindex)]

/-- A further change of the environment. -/
theorem modifyEnvironment_lend (change : Environment → Environment) :
    (system.lend env environment txn).modifyEnvironment env change
      = system.lend env (change environment) txn := by
  unfold modifyEnvironment lend
  rw [modify_eq_set environment change (by simp), List.set_set]

/-- A further change of the transaction. -/
theorem modifyTransaction_lend (change : Transaction → Transaction) :
    (system.lend env environment txn).modifyTransaction system.transactions.length change
      = system.lend env environment (change txn) := by
  unfold modifyTransaction lend
  rw [modify_eq_set txn change (by simp)]
  simp

/-- Another engine behind the environment. -/
theorem setEngineOf_lend (henv : txn.env = env) (engine : Engine) :
    (system.lend env environment txn).setEngineOf system.transactions.length engine
      = system.lend env { environment with engine := engine } txn := by
  unfold setEngineOf
  rw [transaction_lend, henv]
  exact modifyEnvironment_lend _

/-- The engine behind the environment. -/
theorem engineOf_lend (henv : txn.env = env) (hlt : env < system.environments.length) :
    (system.lend env environment txn).engineOf system.transactions.length = environment.engine := by
  unfold engineOf engine
  rw [transaction_lend, henv, environment_lend hlt]

/-- The hand-over of the transaction, which is a root. -/
theorem handOver_lend (henv : txn.env = env) (hroot : txn.parent = none) :
    (system.lend env environment txn).handOver system.transactions.length
      = system.lend env
          { environment with
            retained := Opens.merge environment.retained txn.opened txn.dropped }
          { txn with opened := [], dropped := [] } := by
  unfold handOver
  dsimp only
  rw [transaction_lend, modifyTransaction_lend, hroot, henv]
  exact modifyEnvironment_lend _

/-- The end of the transaction, which is a root. -/
theorem finish_lend (henv : txn.env = env) (hroot : txn.parent = none) (state : TxnState) :
    (system.lend env environment txn).finish system.transactions.length state
      = system.lend env
          { environment with
            active := environment.active - 1
            writerLocked := environment.writerLocked && !txn.holdsWriter }
          { txn with state := state, holdsWriter := false } := by
  unfold finish
  dsimp only
  rw [transaction_lend, modifyTransaction_lend, hroot, henv]
  exact modifyEnvironment_lend _

/-- An environment in which a root is active that has just begun. -/
def serving (environment : Environment) (engine : Engine) (kind : TxnFlags) : Environment :=
  { environment with
    engine := engine
    active := environment.active + 1
    writerLocked := environment.writerLocked || !kind.contains TxnFlags.readOnly }

/-- A begin lends a transaction. -/
theorem enter_lend (engine : Engine) (kind : TxnFlags) (native thread : Nat) :
    (system.setEngine env engine).enter (entrant env none kind native thread)
      = system.lend env (serving (system.environment env) engine kind)
          (entrant env none kind native thread) := by
  unfold enter setEngine modifyEnvironment lend
  dsimp only [entrant]
  rw [List.modify_modify_eq, modify_eq_set (system.environment env)]
  · simp [serving, Function.comp]
  · intro henv
    simp [System.environment, henv]

/-- An abort of the transaction ends it. -/
theorem abort_lend (henv : txn.env = env) (hlt : env < system.environments.length)
    (hroot : txn.parent = none) (hactive : txn.state = .active) :
    ((system.lend env environment txn).abort system.transactions.length).state
      = system.lend env
          { environment with
            engine := environment.engine.abort txn.native
            active := environment.active - 1
            writerLocked := environment.writerLocked && !txn.holdsWriter }
          { txn with state := .aborted, holdsWriter := false } := by
  have hnative : (system.lend env environment txn).native system.transactions.length
      = txn.native := congrArg Transaction.native transaction_lend
  rw [abort_state, engineOf_lend henv hlt, hnative, setEngineOf_lend henv, finish_lend henv hroot,
    transaction_lend, hactive]
  rfl

/-- A commit of the transaction hands over what it has opened and dropped and ends it, if the engine
carries it out. Otherwise the transaction ends as well, and nothing is handed over. -/
theorem commit_lend (environment : Environment) (txn : Transaction) (henv : txn.env = env)
    (hlt : env < system.environments.length) (hroot : txn.parent = none)
    (hfault : txn.lifecycleFault = none) {answer : Except Code Unit} {engine : Engine}
    (hcommit : environment.engine.commit txn.native = (answer, engine)) :
    ((system.lend env environment txn).commit system.transactions.length).result
        = answer.mapError (fun code ↦ .error (.ofCode code)) ∧
      (answer = .ok () →
        ((system.lend env environment txn).commit system.transactions.length).state
          = system.lend env
              { environment with
                engine := engine
                retained := Opens.merge environment.retained txn.opened txn.dropped
                active := environment.active - 1
                writerLocked := environment.writerLocked && !txn.holdsWriter }
              { txn with state := .committed, opened := [], dropped := [], holdsWriter := false }) ∧
      ∀ code, answer = .error code →
        ((system.lend env environment txn).commit system.transactions.length).state
          = system.lend env
              { environment with
                engine := engine
                active := environment.active - 1
                writerLocked := environment.writerLocked && !txn.holdsWriter }
              { txn with state := .aborted, holdsWriter := false } := by
  have hengine : (system.lend env environment txn).engineOf system.transactions.length
      = environment.engine := engineOf_lend henv hlt
  have hnative : (system.lend env environment txn).native system.transactions.length
      = txn.native := congrArg Transaction.native transaction_lend
  have houtcome := (system.lend env environment txn).commit_outcome system.transactions.length
  generalize (system.lend env environment txn).commit system.transactions.length = outcome
    at houtcome ⊢
  cases houtcome with
  | unready hunready =>
      rw [transaction_lend, hfault] at hunready
      cases hunready
  | failed _ hfailed =>
      rw [hengine, hnative, hcommit] at hfailed
      obtain ⟨rfl, rfl⟩ := Prod.mk.inj hfailed
      refine ⟨rfl, nofun, fun _ _ ↦ ?_⟩
      rw [setEngineOf_lend henv]
      exact finish_lend henv hroot .aborted
  | committed _ hdone =>
      rw [hengine, hnative, hcommit] at hdone
      obtain ⟨rfl, rfl⟩ := Prod.mk.inj hdone
      refine ⟨rfl, fun _ ↦ ?_, nofun⟩
      have hended : ({ txn with opened := [], dropped := [] } : Transaction).env = env := henv
      dsimp only
      rw [setEngineOf_lend henv, handOver_lend henv hroot]
      exact finish_lend hended hroot .committed

/-! ## The three steps -/

/-- The kind of the root that an open brings with it. -/
def ownKind (environment : Environment) : TxnFlags :=
  if environment.isReadOnly then TxnFlags.readOnly else .empty

/-- The process after the root has begun that an open brings with it. -/
def begun (system : System) (env : EnvId) (native thread : Nat) (engine : Engine) : System :=
  system.lend env (serving (system.environment env) engine (ownKind (system.environment env)))
    (entrant env none (ownKind (system.environment env)) native thread)

/-- The process after the root has opened a slot. -/
def opened (system : System) (env : EnvId) (native thread : Nat) (engine : Engine)
    (slot generation next : Nat) : System :=
  system.lend env
    { serving (system.environment env) engine (ownKind (system.environment env)) with
      nextGeneration := next }
    { entrant env none (ownKind (system.environment env)) native thread with
      opened := [(slot, generation)] }

/-- The root that has begun. -/
theorem transaction_begun {native : Nat} {engine : Engine} :
    (system.begun env native thread engine).transaction system.transactions.length
      = entrant env none (ownKind (system.environment env)) native thread := transaction_lend

/-- The handle of the root. -/
theorem native_begun {native : Nat} {engine : Engine} :
    (system.begun env native thread engine).native system.transactions.length = native :=
  congrArg Transaction.native transaction_begun

/-- The engine in which the root has begun. -/
theorem engineOf_begun {native : Nat} {engine : Engine} (hlt : env < system.environments.length) :
    (system.begun env native thread engine).engineOf system.transactions.length = engine :=
  engineOf_lend rfl hlt

/-- What an open does in the root that it has brought: it opens the database, and ends the root. -/
def openAndEnd (system : System) (txn : TxnId) (name : Option String) (flags : DbFlags) :
    Outcome Database :=
  let opened := system.openThrough txn name flags
  match opened.result with
  | .error refusal =>
      let dropped := opened.state.dropTransaction txn
      ⟨.error refusal, opened.events ++ dropped.events, dropped.state⟩
  | .ok database => ((opened.state.commit txn).map fun _ ↦ database).after opened.events

/-- An open brings a root, opens the database in it, and ends it. -/
theorem openDatabase_eq (system : System) (env : EnvId) (name : Option String) (flags : DbFlags)
    (thread : Nat) :
    system.openDatabase env name flags thread =
      (system.begin env none (ownKind (system.environment env)) thread).andThen
        fun txn system ↦ system.openAndEnd txn name flags := rfl

/-- The root is aborted if the open fails, and committed otherwise. -/
theorem openAndEnd_cases (system : System) (txn : TxnId) (name : Option String) (flags : DbFlags) :
    (∃ refusal, (system.openThrough txn name flags).result = .error refusal ∧
        (system.openAndEnd txn name flags).result = .error refusal ∧
        (system.openAndEnd txn name flags).state
          = ((system.openThrough txn name flags).state.abort txn).state) ∨
      ∃ database, (system.openThrough txn name flags).result = .ok database ∧
        (system.openAndEnd txn name flags).result
          = ((system.openThrough txn name flags).state.commit txn).result.map (fun _ ↦ database) ∧
        (system.openAndEnd txn name flags).state
          = ((system.openThrough txn name flags).state.commit txn).state := by
  unfold openAndEnd
  dsimp only
  cases (system.openThrough txn name flags).result with
  | error refusal => exact .inl ⟨refusal, rfl, rfl, dropTransaction_state ..⟩
  | ok database => exact .inr ⟨database, rfl, rfl, rfl⟩

/-- An open does not get beyond its begin, or lends a root. -/
theorem openDatabase_cases (system : System) (env : EnvId) (name : Option String) (flags : DbFlags)
    (thread : Nat) :
    (∃ refusal, (system.openDatabase env name flags thread).result = .error refusal ∧
        (system.openDatabase env name flags thread).state = system) ∨
      ∃ native engine, system.beginFault env none (ownKind (system.environment env)) = none ∧
        ((ownKind (system.environment env)).contains TxnFlags.readOnly = false →
          (system.environment env).writerLocked = false) ∧
        (system.engine env).begin none (ownKind (system.environment env)) thread
          = (.ok native, engine) ∧
        (system.begin env none (ownKind (system.environment env)) thread).result
          = .ok system.transactions.length ∧
        (system.begin env none (ownKind (system.environment env)) thread).state
          = system.begun env native thread engine ∧
        (system.openDatabase env name flags thread).result
          = ((system.begun env native thread engine).openAndEnd system.transactions.length name
              flags).result ∧
        (system.openDatabase env name flags thread).state
          = ((system.begun env native thread engine).openAndEnd system.transactions.length name
              flags).state := by
  rw [openDatabase_eq]
  rcases system.begin_cases env none (ownKind (system.environment env)) thread with
    ⟨refusal, hresult, hstate⟩ | ⟨native, engine, hfault, hlock, hbegin, hresult, hstate⟩
  · obtain ⟨hresult', hstate'⟩ := andThen_of_error (fun txn (system : System) ↦
      system.openAndEnd txn name flags) hresult
    exact .inl ⟨refusal, hresult', hstate'.trans hstate⟩
  · have hbegun := hstate.trans (enter_lend ..)
    obtain ⟨hgiven, hleft⟩ := andThen_of_ok (fun txn (system : System) ↦
      system.openAndEnd txn name flags) hresult
    rw [hbegun] at hgiven hleft
    exact .inr ⟨native, engine, hfault, fun hkind ↦ hlock hkind rfl, hbegin, hresult, hbegun,
      hgiven, hleft⟩

/-! ## What is left of the root -/

/-- The root gives back what it took: it no longer counts, and if it held the writer lock, nobody
held it before. -/
theorem given_back (env : EnvId) (engine : Engine) (native thread : Nat) {environment : Environment}
    {kind : TxnFlags}
    (hlock : kind.contains TxnFlags.readOnly = false → environment.writerLocked = false) :
    (serving environment engine kind).active - 1 = environment.active ∧
      ((serving environment engine kind).writerLocked
        && !(entrant env none kind native thread).holdsWriter) = environment.writerLocked := by
  refine ⟨Nat.add_sub_cancel .., ?_⟩
  cases hkind : kind.contains TxnFlags.readOnly with
  | false => simp [serving, entrant, hkind, hlock hkind]
  | true => simp [serving, entrant, hkind]

/-- The abort of the root. -/
theorem abort_begun {native : Nat} {engine : Engine} (hlt : env < system.environments.length)
    (hlock : (ownKind (system.environment env)).contains TxnFlags.readOnly = false →
      (system.environment env).writerLocked = false) :
    ((system.begun env native thread engine).abort system.transactions.length).state
      = system.lend env { system.environment env with engine := engine.abort native }
          { entrant env none (ownKind (system.environment env)) native thread with
            state := .aborted
            holdsWriter := false } := by
  obtain ⟨hactive, hlocked⟩ := given_back env engine native thread hlock
  have hroot : (entrant env none (ownKind (system.environment env)) native thread).parent = none :=
    rfl
  refine (abort_lend rfl hlt hroot rfl).trans ?_
  rw [hactive, hlocked]
  rfl

/-- The commit of the root after an open. What it hands over is only the slot that it has opened. -/
theorem commit_opened {native slot generation next : Nat} {engine last : Engine}
    {answer : Except Code Unit} (hlt : env < system.environments.length)
    (hlock : (ownKind (system.environment env)).contains TxnFlags.readOnly = false →
      (system.environment env).writerLocked = false)
    (hcommit : engine.commit native = (answer, last)) :
    let outcome := (system.opened env native thread engine slot generation next).commit
      system.transactions.length
    outcome.result = answer.mapError (fun code ↦ .error (.ofCode code)) ∧
      (answer = .ok () → outcome.state
        = system.lend env
            { system.environment env with
              engine := last
              retained := (slot, generation) :: system.retained env
              nextGeneration := next }
            { entrant env none (ownKind (system.environment env)) native thread with
              state := .committed
              holdsWriter := false }) ∧
      ∀ code, answer = .error code → outcome.state
        = system.lend env
            { system.environment env with
              engine := last
              nextGeneration := next }
            { entrant env none (ownKind (system.environment env)) native thread with
              opened := [(slot, generation)]
              state := .aborted
              holdsWriter := false } := by
  obtain ⟨hactive, hlocked⟩ := given_back env engine native thread hlock
  have hmerge : Opens.merge (system.retained env) [(slot, generation)] []
      = (slot, generation) :: system.retained env := by simp [Opens.merge]
  obtain ⟨hanswer, hdone, hrefused⟩ := commit_lend
    { serving (system.environment env) engine (ownKind (system.environment env)) with
      nextGeneration := next }
    { entrant env none (ownKind (system.environment env)) native thread with
      opened := [(slot, generation)] } rfl hlt rfl rfl hcommit
  refine ⟨hanswer, fun hok ↦ (hdone hok).trans ?_, fun code hcode ↦ (hrefused code hcode).trans ?_⟩
  · dsimp only
    rw [hactive, hlocked]
    exact congrArg (fun retained ↦ system.lend env
      { system.environment env with
        engine := last, retained := retained, nextGeneration := next } _) hmerge
  · dsimp only
    rw [hactive, hlocked]
    rfl

/-- A failed open leaves an engine from which the root can be aborted as if it had not been
tried. -/
theorem openThrough_begun_failed {native : Nat} {engine : Engine}
    (hlt : env < system.environments.length) (hroster : Engine.Roster engine) {refusal : Refusal}
    (hresult : ((system.begun env native thread engine).openThrough system.transactions.length name
      flags).result = .error refusal) :
    ∃ after : Engine, after.abort native = engine.abort native ∧
      ((system.begun env native thread engine).openThrough system.transactions.length name
        flags).state = system.begun env native thread after := by
  rcases openThrough_error hresult with hstate | ⟨-, code, after, hopen, hstate⟩
  · exact ⟨engine, rfl, hstate⟩
  · rw [engineOf_begun hlt, native_begun] at hopen
    exact ⟨after, hroster.abort_openDatabase hopen, hstate.trans (setEngineOf_lend rfl after)⟩

/-- A successful open gives a handle for the live generation of the slot, or for a new one if the
slot is not live, and the root records it. -/
theorem openThrough_begun_ok {native : Nat} {engine : Engine}
    (hlt : env < system.environments.length)
    (hlive : ∀ slot, (system.begun env native thread engine).liveGeneration
      system.transactions.length slot = (system.retained env).lookup slot)
    {database : Database}
    (hresult : ((system.begun env native thread engine).openThrough system.transactions.length name
      flags).result = .ok database) :
    ∃ slot generation next after,
      engine.openDatabase native (name.map Bytes.ofText) flags = (.ok slot, after) ∧
      database = ⟨slot, generation, env, name, flags⟩ ∧
      ((system.retained env).lookup slot = some generation ∨
        (system.retained env).lookup slot = none) ∧
      ((system.begun env native thread engine).openThrough system.transactions.length name
        flags).state = system.opened env native thread after slot generation next := by
  have hset : ∀ after, (system.begun env native thread engine).setEngineOf
      system.transactions.length after = system.begun env native thread after := fun after ↦
    setEngineOf_lend rfl after
  have houtcome := openThrough_outcome (system.begun env native thread engine)
    system.transactions.length name flags
  generalize (system.begun env native thread engine).openThrough system.transactions.length name
    flags = outcome at hresult houtcome ⊢
  cases houtcome with
  | unready | misnamed | failed => cases hresult
  | @reopened slot generation after hfault hopen hgeneration =>
      rw [engineOf_begun hlt, native_begun] at hopen
      rw [hlive slot] at hgeneration
      rw [transaction_begun] at hresult
      refine ⟨slot, generation, (system.environment env).nextGeneration, after, hopen,
        (Except.ok.inj hresult).symm, .inl hgeneration, ?_⟩
      rw [hset]
      exact modifyTransaction_lend _
  | @opened slot after hfault hopen hgeneration =>
      have hnext : ((system.begun env native thread engine).environment
          (entrant env none (ownKind (system.environment env)) native thread).env).nextGeneration
            = (system.environment env).nextGeneration := by
        change ((system.begun env native thread engine).environment env).nextGeneration = _
        rw [begun, environment_lend hlt, serving]
      rw [engineOf_begun hlt, native_begun] at hopen
      rw [hlive slot] at hgeneration
      rw [transaction_begun, hnext] at hresult ⊢
      refine ⟨slot, (system.environment env).nextGeneration,
        (system.environment env).nextGeneration + 1, after, hopen, (Except.ok.inj hresult).symm,
        .inr hgeneration, ?_⟩
      have hadvance : (system.begun env native thread after).advance env = system.lend env
          { serving (system.environment env) after (ownKind (system.environment env)) with
            nextGeneration := (system.environment env).nextGeneration + 1 } _ :=
        modifyEnvironment_lend _
      rw [hset]
      exact (congrArg (recordOpen · _ slot _) hadvance).trans (modifyTransaction_lend _)

/-- What an open that brings its own root leaves of a process. -/
inductive Errand (system : System) (env : EnvId) (name : Option String) (flags : DbFlags) :
    Except Refusal Database → System → Prop where
  | refused (refusal : Refusal) : Errand system env name flags (.error refusal) system
  | failed (refusal : Refusal) {engine : Engine} {next : Nat} {txn : Transaction}
      (henv : env < system.environments.length) (hended : txn.state.isFinished = true)
      (hengine : Engine.LikeBefore (system.engine env) engine) :
      Errand system env name flags (.error refusal)
        (system.lend env { system.environment env with engine := engine, nextGeneration := next }
          txn)
  | opened {slot generation next : Nat} {engine : Engine} {txn : Transaction}
      (henv : env < system.environments.length) (hended : txn.state.isFinished = true)
      (hwriters : engine.writers = (system.engine env).writers)
      (hreading : engine.reading = (system.engine env).reading)
      (hlive : (system.retained env).lookup slot = some generation ∨
        (system.retained env).lookup slot = none) :
      Errand system env name flags (.ok ⟨slot, generation, env, name, flags⟩)
        (system.lend env
          { system.environment env with
            engine := engine
            retained := (slot, generation) :: system.retained env
            nextGeneration := next }
          txn)

/-- Every open that brings its own root is among these. -/
theorem openDatabase_errand (h : Reachable system) (env : EnvId) (name : Option String)
    (flags : DbFlags) (thread : Nat) :
    Errand system env name flags (system.openDatabase env name flags thread).result
      (system.openDatabase env name flags thread).state := by
  rcases openDatabase_cases system env name flags thread with ⟨refusal, hresult, hstate⟩ |
    ⟨native, engine, hfault, hlock, hengine, hbegin, hbegun, hresult, hstate⟩
  · rw [hresult, hstate]
    exact .refused refusal
  rw [hresult, hstate]
  have hlt := (of_beginFault hfault).1
  have hroster := h.sound.anchored.roster env
  have hbegan := began_of_begin hengine
  have hwriters := fun hkind ↦ h.sound.writers_eq_nil (hlock hkind)
  rcases openAndEnd_cases (system.begun env native thread engine) system.transactions.length name
      flags with
    ⟨refusal, hrefused, hanswer, hleft⟩ | ⟨database, hopened, hanswer, hleft⟩
  · -- the root is aborted
    obtain ⟨after, habort, hfailed⟩ :=
      openThrough_begun_failed hlt (hroster.of_began hbegan) hrefused
    rw [hanswer, hleft, hfailed, abort_begun hlt hlock, habort]
    exact .failed refusal hlt rfl (hroster.abort_began hbegan hwriters)
  · -- the root is committed, or ended by the engine when that fails
    have hlive : ∀ slot, (system.begun env native thread engine).liveGeneration
        system.transactions.length slot = (system.retained env).lookup slot := fun slot ↦
      hbegun ▸ liveGeneration_begin h.sound hbegin slot
    obtain ⟨slot, generation, next, after, hopen, rfl, hlookup, hstate⟩ :=
      openThrough_begun_ok hlt hlive hopened
    obtain ⟨opener, hopener⟩ := hroster.opener hbegan hwriters hopen
    rcases hcommit : after.commit native with ⟨answer, last⟩
    rw [hanswer, hleft, hstate]
    obtain ⟨hended, hcommitted, hrefused⟩ := commit_opened hlt hlock hcommit
    rw [hended]
    cases answer with
    | error code =>
        rw [hrefused code rfl]
        have hafter := (hroster.of_began hbegan).of_openDatabase hopen
        exact .failed _ hlt rfl (hopener.commit_refused hafter hwriters hcommit)
    | ok value =>
        obtain ⟨hlast, hread⟩ := hopener.commit_ok hwriters hcommit
        rw [hcommitted rfl]
        exact .opened hlt rfl hlast hread hlookup

/-! ## Atomicity -/

/-- A root that has just begun accepts the handles with the retained generation of their slot. -/
theorem accepts_begin_iff {kind : TxnFlags} {thread : Nat} {txn : TxnId} (h : Reachable system)
    (hbegin : (system.begin env none kind thread).result = .ok txn) (database : Database) :
    (system.begin env none kind thread).state.accepts txn database = true ↔
      (system.retained env).lookup database.slot = some database.generation := by
  rw [accepts, liveGeneration_begin h.sound hbegin, decide_eq_true_iff]

/-- If a live slot keeps its generation when it is opened, a root that begins afterwards accepts
every handle that one would have accepted before. -/
theorem accepts_begin_opened {last : System} {slot generation : Nat} {kind kind' : TxnFlags}
    {thread thread' : Nat} {earlier later : TxnId} {database : Database} (h : Reachable system)
    (hlast : Reachable last)
    (hretained : last.retained env = (slot, generation) :: system.retained env)
    (hlive : (system.retained env).lookup slot = some generation ∨
      (system.retained env).lookup slot = none)
    (hearlier : (system.begin env none kind' thread').result = .ok earlier)
    (hlater : (last.begin env none kind thread).result = .ok later)
    (haccepted : (system.begin env none kind' thread').state.accepts earlier database = true) :
    (last.begin env none kind thread).state.accepts later database = true := by
  rw [accepts_begin_iff h hearlier] at haccepted
  rw [accepts_begin_iff hlast hlater, hretained, List.lookup_cons]
  by_cases hslot : database.slot = slot
  · -- the slot was live, and has kept its generation
    rw [hslot] at haccepted ⊢
    rcases hlive with hkept | hnone
    · rw [beq_self_eq_true]
      exact hkept.symm.trans haccepted
    · cases hnone.symm.trans haccepted
  · rw [beq_false_of_ne hslot]
    exact haccepted

/-- An open that brings its own transaction is atomic. When it returns, as many transactions are
active as before, the writer lock is as it was, the transaction that it has begun is over, and all
others are as they were, in the process and in the engine. If it failed, at whatever step, the
environment retains what it did, and its engine is as it was. If it gave a handle, the handle is the
one asked for, at most the entry of its slot has changed in what the environment retains, and a root
that begins afterwards accepts it, with every handle that a root would have accepted before. -/
theorem openDatabase_atomic (h : Reachable system) (env : EnvId) (name : Option String)
    (flags : DbFlags) (thread : Nat) :
    let last := (system.openDatabase env name flags thread).state
    (last.environment env).active = (system.environment env).active ∧
      (last.environment env).writerLocked = (system.environment env).writerLocked ∧
      (∀ txn < system.transactions.length, last.transaction txn = system.transaction txn) ∧
      (∀ txn ≥ system.transactions.length, (last.transaction txn).state.isFinished = true) ∧
      (∀ other ≠ env, last.environment other = system.environment other) ∧
      (last.engine env).writers = (system.engine env).writers ∧
      (last.engine env).reading = (system.engine env).reading ∧
      (∀ refusal, (system.openDatabase env name flags thread).result = .error refusal →
        last.retained env = system.retained env ∧
          Engine.LikeBefore (system.engine env) (last.engine env)) ∧
      ∀ database, (system.openDatabase env name flags thread).result = .ok database →
        database.env = env ∧ database.name = name ∧ database.flags = flags ∧
          (∀ slot ≠ database.slot,
            (last.retained env).lookup slot = (system.retained env).lookup slot) ∧
          ∀ kind caller later, (last.begin env none kind caller).result = .ok later →
            (last.begin env none kind caller).state.accepts later database = true ∧
              ∀ kind' caller' earlier handle,
                (system.begin env none kind' caller').result = .ok earlier →
                (system.begin env none kind' caller').state.accepts earlier handle = true →
                (last.begin env none kind caller).state.accepts later handle = true := by
  have hreachable : Reachable (system.openDatabase env name flags thread).state :=
    h.run (openDatabase_run system env name flags thread).1
  have herrand := openDatabase_errand h env name flags thread
  revert hreachable herrand
  generalize (system.openDatabase env name flags thread).result = result
  generalize (system.openDatabase env name flags thread).state = last
  intro hreachable herrand
  -- Refused before anything begins, failed after the begin, or carried through.
  cases herrand with
  | refused refusal =>
      refine ⟨rfl, rfl, fun _ _ ↦ rfl, fun txn htxn ↦ ?_, fun _ _ ↦ rfl, rfl, rfl, fun _ _ ↦ ?_,
        fun _ hgiven ↦ ?_⟩
      · rw [transaction_of_length_le htxn]
        rfl
      · exact ⟨rfl, Engine.likeBefore_same ..⟩
      · cases hgiven
  | @failed refusal engine next txn henv hended hlike =>
      obtain ⟨readers, memory, handle, slots, rfl, hslots⟩ := hlike
      refine ⟨field_lend (·.active) henv, field_lend (·.writerLocked) henv,
        fun _ ↦ transaction_lend_of_lt, fun _ ↦ isFinished_lend hended,
        fun _ ↦ environment_lend_of_ne, field_lend (·.engine.writers) henv,
        field_lend (·.engine.reading) henv,
        fun _ _ ↦ ⟨field_lend (·.retained) henv, readers, memory, handle, slots,
          field_lend (·.engine) henv, hslots⟩,
        fun _ hgiven ↦ ?_⟩
      cases hgiven
  | @opened slot generation next engine txn henv hended hwriters hreading hlive =>
      refine ⟨field_lend (·.active) henv, field_lend (·.writerLocked) henv,
        fun _ ↦ transaction_lend_of_lt, fun _ ↦ isFinished_lend hended,
        fun _ ↦ environment_lend_of_ne, (field_lend (·.engine.writers) henv).trans hwriters,
        (field_lend (·.engine.reading) henv).trans hreading, fun _ hrefused ↦ ?_,
        fun database hgiven ↦ ?_⟩
      · cases hrefused
      obtain rfl := Except.ok.inj hgiven
      have hretained : (system.lend env
          { system.environment env with
            engine := engine
            retained := (slot, generation) :: system.retained env
            nextGeneration := next } txn).retained env
            = (slot, generation) :: system.retained env := field_lend (·.retained) henv
      refine ⟨rfl, rfl, rfl, fun other hother ↦ ?_, fun kind caller later hlater ↦ ⟨?_, ?_⟩⟩
      -- The environment retains one entry more, which only concerns the slot of the handle.
      · rw [hretained, List.lookup_cons, beq_false_of_ne hother]
      · rw [accepts_begin_iff hreachable hlater, hretained]
        exact List.lookup_cons_self
      · intro kind' caller' earlier handle hearlier haccepted
        exact accepts_begin_opened h hreachable hretained hlive hearlier hlater haccepted

/-- A process like `sample`, with a map that has no page left for the list of the pages that another
commit gives up. -/
def sampleNarrow : System :=
  System.afterAll { files := sampleFiles }
    [.openEnvironment samplePath .empty { mapSize := 20480, maxDbs := 4, maxReaders := 4 } .default,
      .begin 0 none .empty mainThread, .openDatabase 0 (some "a") DbFlags.create, .commit 0]

/-- A database is created, and the handle for another one stays good; the database that is asked for
next is not there, and all stays as it is. In a map that is too small the open succeeds and the
commit fails, and all stays as it is, too. -/
theorem openDatabase_atomic_sample :
    let created := sample.openDatabase 0 (some "b") DbFlags.create mainThread
    let missing := sample.openDatabase 0 (some "c") .empty mainThread
    let narrow := sampleNarrow.createDatabase 0 (some "b") mainThread
    created.result = .ok ⟨3, 2, 0, some "b", DbFlags.create⟩ ∧
      (created.state.environment 0).active = 0 ∧
      (created.state.begin 0 none .empty mainThread).state.accepts 2 sampleDatabase = true ∧
      missing.result = .error (.error (.engine .notFound)) ∧
      missing.state.retained 0 = sample.retained 0 ∧
      .log (.commitFailed (.engine .mapFull)) ∈ narrow.events ∧
      narrow.result = .error (.error (.engine .mapFull)) ∧
      narrow.state.retained 0 = sampleNarrow.retained 0 := by
  intro created missing narrow
  have hcreated : created.result = .ok ⟨3, 2, 0, some "b", DbFlags.create⟩ := by decide +kernel
  have hmissing : missing.result = .error (.error (.engine .notFound)) := by decide +kernel
  have hnarrow : narrow.result = .error (.error (.engine .mapFull)) := by decide +kernel
  obtain ⟨hactive, -, -, -, -, -, -, -, hopened⟩ :=
    openDatabase_atomic sample_reachable 0 (some "b") DbFlags.create mainThread
  obtain ⟨-, -, -, -, -, -, -, hfailed, -⟩ :=
    openDatabase_atomic sample_reachable 0 (some "c") .empty mainThread
  obtain ⟨-, -, -, -, -, -, -, hrefused, -⟩ :=
    openDatabase_atomic ⟨true, sampleFiles, .all _ _⟩ 0 (some "b") DbFlags.create mainThread
  obtain ⟨-, -, -, -, hbegins⟩ := hopened _ hcreated
  obtain ⟨-, hkept⟩ := hbegins .empty mainThread 2 (by decide +kernel)
  refine ⟨hcreated, hactive.trans (by decide +kernel),
    hkept .empty mainThread 1 sampleDatabase (by decide +kernel) (by decide +kernel), hmissing,
    (hfailed _ hmissing).1, by decide +kernel, hnarrow, (hrefused _ hnarrow).1⟩

end MappedStore.System
