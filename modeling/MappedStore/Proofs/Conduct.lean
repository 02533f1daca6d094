import MappedStore.Proofs.Engine.Failures
import MappedStore.Proofs.Anchored

/-!
# The calls behind an action

Most actions make at most one call of the engine. `System.Conduct` lists the calls of each action,
together with what it does to the stages of life of transactions and environments, and
`System.conduct_act` says that the list is complete.
-/

namespace MappedStore

/-- A call of the engine for an environment, with the code that it returned. -/
structure Called where
  env : EnvId
  call : Call
  code : Code
  deriving DecidableEq, Repr

/-- The call that an event is, if it is one. -/
def Event.called? : Event → Option Called
  | .call env made code => some ⟨env, made, code⟩
  | .log _ | .consulted => none

/-- The calls of an operation, in order. -/
def Outcome.calls {α : Type} (outcome : Outcome α) : List Called :=
  outcome.events.filterMap Event.called?

namespace Call

/-- Whether a call is about an environment as a whole. -/
def isWhole : Call → Bool
  | copy .. | stat | info | sync | readerCheck => true
  | _ => false

/-- The native transaction through which a call opens, reads or changes a database, if it does
so. -/
def use? : Call → Option Nat
  | openDatabase native _ _ | get native _ _ | put native _ _ _ _ | del native _ _ _
  | statOf native _ | drop native _ _ => some native
  | _ => none

end Call

/-- What an end, a reset, a renewal or a begin changes about a transaction, and what nothing
changes. -/
def Transaction.stage (txn : Transaction) :
    (EnvId × Nat × Bool × Option TxnId) × TxnState × Nat :=
  (txn.identity, txn.state, txn.children)

/-- What a close, a begin or an end changes about an environment. -/
def Environment.stage (environment : Environment) : Bool × Nat :=
  (environment.closed, environment.active)

namespace System

variable {α β : Type} {system middle after : System} {action : Action} {env : EnvId} {txn : TxnId}

/-- A process in which nothing about the stages of life has changed. -/
structure Unmoved (system after : System) : Prop where
  transactions : after.transactions.length = system.transactions.length
  environments : after.environments.length = system.environments.length
  transaction : ∀ txn, (after.transaction txn).stage = (system.transaction txn).stage
  environment : ∀ env, (after.environment env).stage = (system.environment env).stage

namespace Unmoved

/-- Nothing has happened. -/
theorem refl (system : System) : Unmoved system system := ⟨rfl, rfl, fun _ ↦ rfl, fun _ ↦ rfl⟩

/-- Two such changes in a row. -/
theorem trans (h : Unmoved system middle) (h' : Unmoved middle after) : Unmoved system after :=
  ⟨h'.transactions.trans h.transactions, h'.environments.trans h.environments,
    fun txn ↦ (h'.transaction txn).trans (h.transaction txn),
    fun env ↦ (h'.environment env).trans (h.environment env)⟩

/-- A change of an environment that is not of its stage. -/
theorem modifyEnvironment {change : Environment → Environment}
    (h : ∀ before, (change before).stage = before.stage) (system : System) (env : EnvId) :
    Unmoved system (system.modifyEnvironment env change) :=
  ⟨rfl, length_modifyEnvironment _ _ _, fun _ ↦ rfl,
    field_modifyEnvironment (·.stage) h system env⟩

/-- A change of a transaction that is not of its stage. -/
theorem modifyTransaction {change : Transaction → Transaction}
    (h : ∀ before, (change before).stage = before.stage) (system : System) (txn : TxnId) :
    Unmoved system (system.modifyTransaction txn change) :=
  ⟨length_modifyTransaction _ _ _, rfl, field_modifyTransaction (·.stage) h system txn,
    fun _ ↦ rfl⟩

/-- Another engine. -/
theorem setEngine (system : System) (env : EnvId) (engine : Engine) :
    Unmoved system (system.setEngine env engine) :=
  modifyEnvironment (fun _ ↦ by rfl) system env

/-- Other files. -/
theorem files (system : System) (files : Files.Tree) :
    Unmoved system { system with files := files } :=
  ⟨rfl, rfl, fun _ ↦ rfl, fun _ ↦ rfl⟩

/-- A hand-over. -/
theorem handOver (system : System) (txn : TxnId) : Unmoved system (system.handOver txn) :=
  ⟨length_handOver _ _, environments_length_handOver _ _,
    field_handOver (·.stage) (fun _ _ _ ↦ by rfl) system txn,
    field_environment_handOver (·.stage) (fun _ _ ↦ by rfl) system txn⟩

end Unmoved

/-- The calls that an action makes, and the process that it leaves. -/
inductive Conduct (system : System) : Action → List Called → System → Prop where
  | quiet {action : Action} {after : System} (h : Unmoved system after) :
      Conduct system action [] after
  | opened {path : Bytes} {flags : EnvFlags} {config : Config} {kind : ViewKind}
      {environment : Environment} {files : Files.Tree} (hstage : environment.stage = (false, 0)) :
      Conduct system (.openEnvironment path flags config kind)
        [⟨system.environments.length, .openEnvironment path flags config, 0⟩]
        { system with files := files, environments := system.environments ++ [environment] }
  | openFailed {path : Bytes} {flags : EnvFlags} {config : Config} {kind : ViewKind} {code : Code}
      {after : System} (hcode : code ≠ 0) (h : Unmoved system after) :
      Conduct system (.openEnvironment path flags config kind)
        [⟨system.environments.length, .openEnvironment path flags config, code⟩,
          ⟨system.environments.length, .closeEnvironment, 0⟩] after
  | closed {env : EnvId} {after : System} (hclosed : (system.environment env).closed = false)
      (hactive : (system.environment env).active = 0)
      (h : Unmoved (system.modifyEnvironment env ({ · with closed := true, retained := [] })) after) :
      Conduct system (.close env) [⟨env, .closeEnvironment, 0⟩] after
  | whole {action : Action} {env : EnvId} {call : Call} {code : Code} {after : System}
      (hcall : call.isWhole = true) (hclosed : (system.environment env).closed = false)
      (h : Unmoved system after) : Conduct system action [⟨env, call, code⟩] after
  | began {env : EnvId} {parent : Option TxnId} {flags : TxnFlags} {thread native : Nat}
      {engine : Engine} (hfault : system.beginFault env parent flags = none)
      (hbegin : (system.engine env).begin (parent.map system.native) flags thread
        = (.ok native, engine)) :
      Conduct system (.begin env parent flags thread)
        [⟨env, .begin (some native) (parent.map system.native) flags, 0⟩]
        ((system.setEngine env engine).enter (entrant env parent flags native thread))
  | beginFailed {env : EnvId} {parent : Option TxnId} {flags : TxnFlags} {thread : Nat}
      {code : Code} {after : System} (hfault : system.beginFault env parent flags = none)
      (h : Unmoved system after) :
      Conduct system (.begin env parent flags thread)
        [⟨env, .begin none (parent.map system.native) flags, code⟩] after
  | used {action : Action} {txn : TxnId} {call : Call} {code : Code} {after : System}
      (haction : action.through? = some txn) (hcall : call.use? = some (system.native txn))
      (hfault : (system.transaction txn).lifecycleFault = none) (h : Unmoved system after) :
      Conduct system action [⟨(system.transaction txn).env, call, code⟩] after
  | committed {txn : TxnId} {code : Code} {state : TxnState} {middle : System}
      (hfault : (system.transaction txn).lifecycleFault = none) (hstate : state.isFinished = true)
      (h : Unmoved system middle) :
      Conduct system (.commit txn)
        [⟨(system.transaction txn).env, .commit (system.native txn), code⟩]
        (middle.finish txn state)
  | aborted {action : Action} {txn : TxnId} {middle : System}
      (haction : action = .abort txn ∨ action = .drop txn)
      (hstate : (system.transaction txn).state.isFinished = false) (h : Unmoved system middle) :
      Conduct system action [⟨(system.transaction txn).env, .abort (system.native txn), 0⟩]
        (middle.finish txn .aborted)
  | reset {txn : TxnId} {middle : System} (hfault : (system.transaction txn).lifecycleFault = none)
      (h : Unmoved system middle) :
      Conduct system (.reset txn) [⟨(system.transaction txn).env, .reset (system.native txn), 0⟩]
        (middle.setState txn .reset)
  | renewed {txn : TxnId} {middle : System} (hstate : (system.transaction txn).state = .reset)
      (h : Unmoved system middle) :
      Conduct system (.renew txn) [⟨(system.transaction txn).env, .renew (system.native txn), 0⟩]
        (middle.setState txn .active)
  | renewalFailed {txn : TxnId} {code : Code} {after : System} (hcode : code ≠ 0)
      (hstate : (system.transaction txn).state = .reset) (h : Unmoved system after) :
      Conduct system (.renew txn) [⟨(system.transaction txn).env, .renew (system.native txn), code⟩]
        after

/-! ## Uses of databases -/

/-- An operation behind the gate makes the calls of the use, if it gets there. -/
theorem conduct_withAccess {access : Access} {use : Transaction → Outcome α}
    (h : (system.transaction txn).lifecycleFault = none →
      Conduct system action (use (system.transaction txn)).calls
        (use (system.transaction txn)).state) :
    Conduct system action (system.withAccess txn access use).calls
      (system.withAccess txn access use).state := by
  have houtcome := system.withAccess_outcome txn access use
  generalize system.withAccess txn access use = outcome at houtcome ⊢
  cases houtcome with
  | guarded | objected => exact .quiet (.refl system)
  | admitted hguard => exact h (lifecycleFault_of_guardFault hguard).1

/-- A relayed use of the engine is a single call, also when more follows that makes no call. -/
theorem conduct_relay_andThen [Inhabited α] {call : Call} {run : Engine → Engine.Answer Engine α}
    {following : α → System → Outcome β} (haction : action.through? = some txn)
    (hcall : call.use? = some (system.native txn))
    (hfault : (system.transaction txn).lifecycleFault = none)
    (hfollowing : ∀ value middle, (following value middle).calls = [] ∧
      Unmoved middle (following value middle).state) :
    Conduct system action
      ((system.relay (system.transaction txn).env call run).andThen following).calls
      ((system.relay (system.transaction txn).env call run).andThen following).state := by
  rcases system.relay_ends (system.transaction txn).env call run with
    ⟨code, -, hrelay⟩ | ⟨value, hrelay⟩
  · rw [hrelay]
    exact .used haction hcall hfault (.setEngine _ _ _)
  · generalize (run (system.engine (system.transaction txn).env)).2 = engine at hrelay
    obtain ⟨hcalls, hstate⟩ := hfollowing value (system.setEngine (system.transaction txn).env engine)
    have hall : (Outcome.andThen ⟨.ok value, [.call (system.transaction txn).env call 0],
        system.setEngine (system.transaction txn).env engine⟩ following).calls
          = [⟨(system.transaction txn).env, call, 0⟩] := by
      simp only [Outcome.calls, Outcome.andThen, List.filterMap_append] at hcalls ⊢
      rw [hcalls]
      rfl
    rw [hrelay, hall]
    exact .used haction hcall hfault ((Unmoved.setEngine _ _ _).trans hstate)

/-- A relayed use of the engine is a single call. -/
theorem conduct_relay [Inhabited α] (call : Call) {run : Engine → Engine.Answer Engine α}
    (haction : action.through? = some txn) (hcall : call.use? = some (system.native txn))
    (hfault : (system.transaction txn).lifecycleFault = none) :
    Conduct system action (system.relay (system.transaction txn).env call run).calls
      (system.relay (system.transaction txn).env call run).state := by
  rcases system.relay_ends (system.transaction txn).env call run with ⟨_, -, hrelay⟩ | ⟨_, hrelay⟩
  all_goals
    rw [hrelay]
    exact .used haction hcall hfault (.setEngine _ _ _)

/-- A search is a single call. -/
theorem conduct_seek (call : Call) {run : Engine → Engine.Answer Engine α}
    (haction : action.through? = some txn) (hcall : call.use? = some (system.native txn))
    (hfault : (system.transaction txn).lifecycleFault = none) :
    Conduct system action (system.seek (system.transaction txn).env call run).calls
      (system.seek (system.transaction txn).env call run).state := by
  rcases system.seek_cases (system.transaction txn).env call run with
    ⟨_, _, -, hseek⟩ | ⟨_, -, hseek⟩ | ⟨_, _, -, -, hseek⟩
  all_goals
    rw [hseek]
    exact .used haction hcall hfault (.setEngine _ _ _)

/-- A read of a value. -/
theorem conduct_get (database : Database) (key : Bytes) :
    Conduct system (.get txn database key) (system.get txn database key).calls
      (system.get txn database key).state := by
  rw [get_eq_seek]
  exact conduct_withAccess (conduct_seek _ rfl rfl)

/-- A removal of values. -/
theorem conduct_del (database : Database) (key : Bytes) (item : Option Bytes) :
    Conduct system (.del txn database key item) (system.del txn database key item).calls
      (system.del txn database key item).state := by
  rw [del_eq_seek]
  refine conduct_withAccess fun hfault ↦ ?_
  exact conduct_seek _ rfl rfl hfault

/-- An open of a database. -/
theorem conduct_open (name : Option String) (flags : DbFlags) :
    Conduct system (.openDatabase txn name flags) (system.openThrough txn name flags).calls
      (system.openThrough txn name flags).state := by
  have h := system.openThrough_outcome txn name flags
  generalize system.openThrough txn name flags = outcome at h ⊢
  cases h with
  | unready | misnamed => exact .quiet (.refl system)
  | failed hfault => exact .used rfl rfl hfault (.setEngine _ _ _)
  | reopened hfault =>
      exact .used rfl rfl hfault
        ((Unmoved.setEngine _ _ _).trans (.modifyTransaction (fun _ ↦ by rfl) _ _))
  | opened hfault =>
      exact .used rfl rfl hfault <| (Unmoved.setEngine _ _ _).trans <|
        (Unmoved.modifyEnvironment (fun _ ↦ by rfl) _ _).trans
          (.modifyTransaction (fun _ ↦ by rfl) _ _)

/-- A drop of a database. -/
theorem conduct_drop (database : Database) :
    Conduct system (.dropDatabase txn database) (system.dropDatabase txn database).calls
      (system.dropDatabase txn database).state := by
  have h := system.dropDatabase_outcome txn database
  generalize system.dropDatabase txn database = outcome at h ⊢
  cases h with
  | guarded | objected => exact .quiet (.refl system)
  | failed hguard | emptied hguard =>
      exact .used rfl rfl (lifecycleFault_of_guardFault hguard).1 (.setEngine _ _ _)
  | dropped hguard =>
      exact .used rfl rfl (lifecycleFault_of_guardFault hguard).1
        ((Unmoved.setEngine _ _ _).trans (.modifyTransaction (fun _ ↦ by rfl) _ _))

/-- A reservation, with the filling of its buffer. -/
theorem conduct_reserve (database : Database) (key data : Bytes) (flags : WriteFlags) :
    Conduct system (.reserve txn database key data flags)
      (system.reserveFilled txn database key data flags).calls
      (system.reserveFilled txn database key data flags).state := by
  unfold reserveFilled reserve
  rw [andThen_withAccess]
  refine conduct_withAccess fun hfault ↦ ?_
  rw [map_andThen]
  exact conduct_relay_andThen rfl rfl hfault fun _ _ ↦
    ⟨rfl, .modifyEnvironment (fun _ ↦ by rfl) _ _⟩

/-- A write of a value. -/
theorem conduct_put (database : Database) (key value : Bytes) (flags : WriteFlags) :
    Conduct system (.put txn database key value flags)
      (system.put txn database key value flags).calls
      (system.put txn database key value flags).state := by
  refine conduct_withAccess fun hfault ↦ ?_
  exact conduct_relay (.put _ _ _ _ _) rfl rfl hfault

/-- A question for the figures of a database. -/
theorem conduct_stat (database : Database) :
    Conduct system (.stat txn database) (system.stat txn database).calls
      (system.stat txn database).state := by
  refine conduct_withAccess fun hfault ↦ ?_
  exact conduct_relay _ rfl rfl hfault

/-- A removal of all values. -/
theorem conduct_clear (database : Database) :
    Conduct system (.clear txn database) (system.clear txn database).calls
      (system.clear txn database).state := by
  refine conduct_withAccess fun hfault ↦ ?_
  exact conduct_relay _ rfl rfl hfault

/-! ## Lives of transactions -/

/-- A begin. -/
theorem conduct_begin (parent : Option TxnId) (flags : TxnFlags) (thread : Nat) :
    Conduct system (.begin env parent flags thread) (system.begin env parent flags thread).calls
      (system.begin env parent flags thread).state := by
  have h := system.begin_outcome env parent flags thread
  generalize system.begin env parent flags thread = outcome at h ⊢
  cases h with
  | refused | waits => exact .quiet (.refl system)
  | failed hfault => exact .beginFailed hfault (.setEngine _ _ _)
  | begun hfault _ hbegin => exact .began hfault hbegin

/-- A commit. -/
theorem conduct_commit : Conduct system (.commit txn) (system.commit txn).calls
    (system.commit txn).state := by
  have h := system.commit_outcome txn
  generalize system.commit txn = outcome at h ⊢
  cases h with
  | unready => exact .quiet (.refl system)
  | failed hfault => exact .committed hfault rfl (.setEngine _ _ _)
  | committed hfault =>
      exact .committed hfault rfl ((Unmoved.setEngine _ _ _).trans (.handOver _ _))

/-- Records in the log are not calls. -/
theorem filterMap_called_log (records : List Log.Record) :
    (records.map Event.log).filterMap Event.called? = [] := by
  simp [List.filterMap_map, Function.comp_def, Event.called?]

/-- A transaction that has not ended is aborted by one call. -/
theorem EndOutcome.calls_eq {outcome : Outcome Unit} (h : EndOutcome system txn outcome) :
    outcome.calls =
      if (system.transaction txn).state.isFinished then []
      else [⟨(system.transaction txn).env, .abort (system.native txn), 0⟩] := by
  cases h with
  | idle hstate => exact (if_pos hstate).symm
  | discarded _ _ hstate =>
      rw [if_neg (by simp [hstate])]
      simp only [Outcome.calls, List.filterMap_append, List.filterMap_cons, filterMap_called_log,
        Event.called?, List.nil_append]

/-- The end of a transaction by an abort or a drop. -/
theorem conduct_end {outcome : Outcome Unit} (haction : action = .abort txn ∨ action = .drop txn)
    (h : EndOutcome system txn outcome) : Conduct system action outcome.calls outcome.state := by
  rw [h.calls_eq, h.state_eq]
  split
  · exact .quiet (.refl system)
  · rename_i hstate
    exact .aborted haction (by simpa using hstate) (.setEngine _ _ _)

/-- A reset. -/
theorem conduct_reset : Conduct system (.reset txn) (system.reset txn).calls
    (system.reset txn).state := by
  have h := system.reset_outcome txn
  generalize system.reset txn = outcome at h ⊢
  cases h with
  | unready | writer => exact .quiet (.refl system)
  | reset hfault => exact .reset hfault (.setEngine _ _ _)

/-- A renewal. -/
theorem conduct_renew : Conduct system (.renew txn) (system.renew txn).calls
    (system.renew txn).state := by
  have h := system.renew_outcome txn
  generalize system.renew txn = outcome at h ⊢
  cases h with
  | active | finished => exact .quiet (.refl system)
  | failed hstate hrenew =>
      have hcode := (Engine.proper_renew ..).ne_zero (congrArg Prod.fst hrenew)
      exact .renewalFailed hcode hstate (.setEngine _ _ _)
  | renewed hstate => exact .renewed hstate (.setEngine _ _ _)

/-! ## Environments -/

/-- An operation on an environment that is open. -/
theorem conduct_whileOpen {use : Environment → Outcome α}
    (h : (system.environment env).closed = false →
      Conduct system action (use (system.environment env)).calls
        (use (system.environment env)).state) :
    Conduct system action (system.whileOpen env use).calls (system.whileOpen env use).state := by
  rcases system.whileOpen_cases env use with ⟨-, hrefused⟩ | ⟨hopen, hallowed⟩
  · rw [hrefused]
    exact .quiet (.refl system)
  · rw [hallowed]
    exact h hopen

/-- A relayed call about an environment. -/
theorem conduct_whole [Inhabited α] (call : Call) {run : Engine → Engine.Answer Engine α}
    (hcall : call.isWhole = true) (hclosed : (system.environment env).closed = false) :
    Conduct system action (system.relay env call run).calls (system.relay env call run).state := by
  rcases system.relay_ends env call run with ⟨_, -, hrelay⟩ | ⟨_, hrelay⟩
  all_goals
    rw [hrelay]
    exact .whole hcall hclosed (.setEngine _ _ _)

/-- A relayed call about an environment that is open. -/
theorem conduct_asked [Inhabited α] (call : Call) (run : Engine → Engine.Answer Engine α)
    (hcall : call.isWhole = true) :
    Conduct system action (system.whileOpen env fun _ ↦ system.relay env call run).calls
      (system.whileOpen env fun _ ↦ system.relay env call run).state :=
  conduct_whileOpen fun hclosed ↦ conduct_whole call hcall hclosed

/-- A copy. -/
theorem conduct_copy (destination : Bytes) (flags : CopyFlags) (thread : Nat) :
    Conduct system (.copy env destination flags thread)
      (system.copy env destination flags thread).calls
      (system.copy env destination flags thread).state := by
  have h := system.copy_outcome env destination flags thread
  generalize system.copy env destination flags thread = outcome at h ⊢
  cases h with
  | closed | unfit | unusable | waits => exact .quiet (.refl system)
  | failed hopen | copied hopen =>
      exact .whole rfl hopen ((Unmoved.setEngine _ _ _).trans (.files _ _))

/-- A flush. -/
theorem conduct_sync : Conduct system (.sync env) (system.sync env).calls
    (system.sync env).state := by
  have h := system.sync_outcome env
  generalize system.sync env = outcome at h ⊢
  cases h with
  | closed | objected => exact .quiet (.refl system)
  | failed hopen | flushed hopen => exact .whole rfl hopen (.refl system)

/-- Opening an environment. -/
theorem conduct_openWith (path : Bytes) (flags : EnvFlags) (config : Config) (kind : ViewKind) :
    Conduct system (.openEnvironment path flags config kind)
      (system.openWith path flags config kind).calls
      (system.openWith path flags config kind).state := by
  have h := system.openWith_outcome path flags config kind
  generalize system.openWith path flags config kind = outcome at h ⊢
  cases h with
  | failed hopen => exact .openFailed (Engine.openAt_error hopen) (.files _ _)
  | opened => exact .opened rfl

/-- Closing an environment. -/
theorem conduct_close : Conduct system (.close env) (system.close env).calls
    (system.close env).state := by
  have h := system.close_outcome env
  generalize system.close env = outcome at h ⊢
  cases h with
  | idle | busy => exact .quiet (.refl system)
  | closed hopen hactive => exact .closed hopen hactive (.files _ _)

/-- The calls of every action, and what becomes of the process, are among what `Conduct` lists. -/
theorem conduct_act (system : System) (action : Action) :
    Conduct system action (system.act action).calls (system.after action) := by
  cases action with
  | changeFiles files => exact .quiet (.files _ _)
  | openEnvironment path flags config kind => exact conduct_openWith path flags config kind
  | close env => exact conduct_close
  | copy env destination flags thread => exact conduct_copy destination flags thread
  | statEnvironment env => exact conduct_asked .stat (fun engine ↦ (.ok engine.stat, engine)) rfl
  | info env => exact conduct_asked .info (fun engine ↦ (.ok engine.info, engine)) rfl
  | sync env => exact conduct_sync
  | readerCheck env =>
      exact conduct_asked .readerCheck (fun engine ↦ ((.ok 0 : Except Code Nat), engine)) rfl
  | endThread env thread => exact .quiet (.modifyEnvironment (fun _ ↦ by rfl) _ _)
  | begin env parent flags thread => exact conduct_begin parent flags thread
  | commit txn => exact conduct_commit
  | abort txn => exact conduct_end (.inl rfl) (system.abort_outcome txn)
  | drop txn => exact conduct_end (.inr rfl) (system.dropTransaction_outcome txn)
  | reset txn => exact conduct_reset
  | renew txn => exact conduct_renew
  | openDatabase txn name flags => exact conduct_open name flags
  | get txn database key => exact conduct_get database key
  | stat txn database => exact conduct_stat database
  | put txn database key value flags => exact conduct_put database key value flags
  | reserve txn database key data flags => exact conduct_reserve database key data flags
  | del txn database key item => exact conduct_del database key item
  | clear txn database => exact conduct_clear database
  | dropDatabase txn database => exact conduct_drop database

end System

end MappedStore
