import MappedStore.Proofs.Counts
import MappedStore.Proofs.Gate

/-!
# What failures leave behind

An operation that fails before it has called the engine has changed nothing, and one that fails
because the engine has answered with a code leaves everything but that engine as it was
(`System.Inert`). Only the commit that an engine refuses does more: it ends the transaction. The
stage of life of a transaction is asked first, before anything else about an operation can be at
fault (`System.errors_inert`).
-/

namespace MappedStore

open Error (ofCode)

/-- The transaction whose stage of life an action asks for before anything else, if it does so. -/
def Action.gated? : Action → Option TxnId
  | .commit txn | .reset txn | .openDatabase txn _ _ | .get txn _ _ | .stat txn _ => some txn
  | .put txn _ _ _ _ | .reserve txn _ _ _ _ | .del txn _ _ _ => some txn
  | .clear txn _ | .dropDatabase txn _ => some txn
  | _ => none

/-- Whether an action opens an environment. -/
def Action.isOpening : Action → Bool
  | .openEnvironment .. => true
  | _ => false

/-- An error that stands for a code of the engine has that code. -/
theorem Error.code_ofCode (code : Code) : (ofCode code).code = some code := by
  unfold ofCode
  cases h : Condition.ofCode? code with
  | none => rfl
  | some condition => exact congrArg some (Condition.code_of_ofCode? h)

namespace System

variable {α β : Type} {system after : System} {action : Action} {txn : TxnId} {error : Error}
  {calls : List Called}

/-! ## The stage of life comes first -/

/-- Why a transaction cannot be used at its stage of life: it has ended, it is at rest, or one that
is nested directly in it has not ended. -/
inductive Unready (system : System) (txn : TxnId) : Error → Prop where
  | finished (h : (system.transaction txn).state.isFinished = true) :
      Unready system txn .txnFinished
  | reset (h : (system.transaction txn).state = .reset) : Unready system txn .txnReset
  | blocked {child : TxnId} (h : (system.transaction txn).state = .active)
      (hparent : (system.transaction child).parent = some txn)
      (hchild : (system.transaction child).state.isFinished = false) :
      Unready system txn .txnHasChild

/-- A transaction in which another is nested that has not ended counts it. -/
theorem Counted.children_pos (h : Counted system) {child : TxnId}
    (hparent : (system.transaction child).parent = some txn)
    (hchild : (system.transaction child).state.isFinished = false) :
    0 < (system.transaction txn).children := by
  refine Nat.pos_of_ne_zero fun hzero ↦ ?_
  rw [h.finished_of_children hzero hparent] at hchild
  cases hchild

/-- What is wrong with the stage of life of a transaction. -/
theorem Unready.lifecycleFault (h : Unready system txn error) (hcounted : Counted system) :
    (system.transaction txn).lifecycleFault = some error := by
  unfold Transaction.lifecycleFault
  cases h with
  | finished hstate => cases hcase : (system.transaction txn).state <;> simp_all [TxnState.isFinished]
  | reset hstate => rw [hstate]
  | blocked hstate hparent hchild =>
      rw [hstate]
      exact if_pos (hcounted.children_pos hparent hchild)

/-- An access to a database through a transaction that cannot be used. -/
theorem withAccess_unready {access : Access} (use : Transaction → Outcome α)
    (h : (system.transaction txn).lifecycleFault = some error) :
    system.withAccess txn access use = system.fail error := by
  have hguard : system.guardFault txn access = some error := by
    rw [guardFault, h, Option.some_or]
  unfold withAccess
  rw [hguard]

/-- An action that asks first for the stage of life of a transaction fails with what is wrong with
that. It calls nothing and changes nothing. -/
theorem act_unready (haction : action.gated? = some txn)
    (h : (system.transaction txn).lifecycleFault = some error) :
    (system.act action).result = .error (.error error) ∧ (system.act action).calls = [] ∧
      system.after action = system := by
  have hrefused : system.act action = system.fail error := by
    cases action with
    | get | stat | put | del | clear | dropDatabase =>
        obtain rfl := Option.some.inj haction
        exact congrArg (Outcome.map _) (withAccess_unready _ h)
    | reserve owner database key data flags =>
        obtain rfl := Option.some.inj haction
        have hreserve : system.reserve owner database key data.length flags = system.fail error :=
          withAccess_unready _ h
        have hfilled : system.reserveFilled owner database key data flags = system.fail error := by
          rw [reserveFilled, hreserve]
          rfl
        exact congrArg (Outcome.map _) hfilled
    | openDatabase opener name flags =>
        obtain rfl := Option.some.inj haction
        have hopen : system.openThrough opener name flags = system.fail error := by
          unfold openThrough
          dsimp only
          rw [h]
        exact congrArg (Outcome.map _) hopen
    | commit owner =>
        obtain rfl := Option.some.inj haction
        have hcommit : system.commit owner = system.fail error := by
          unfold commit
          dsimp only
          rw [h]
        exact congrArg (Outcome.map _) hcommit
    | reset owner =>
        obtain rfl := Option.some.inj haction
        have hreset : system.reset owner = system.fail error := by
          unfold System.reset
          dsimp only
          rw [h]
        exact congrArg (Outcome.map _) hreset
    | _ => cases haction
  rw [Outcome.calls, after, hrefused]
  exact ⟨rfl, rfl, rfl⟩

/-! ## Failures -/

/-- The calls that an operation that failed has made, and the process that it leaves. An error that
the engine did not raise has no code. -/
inductive Inert (system : System) (error : Error) : List Called → System → Prop where
  | own (hcode : error.code = none) : Inert system error [] system
  | engine {env : EnvId} {call : Call} {code : Code} {engine : Engine} {files : Files.Tree}
      (herror : error = ofCode code) :
      Inert system error [⟨env, call, code⟩] { system.setEngine env engine with files := files }

namespace Inert

/-- A failure leaves all transactions as they were. -/
theorem transactions (h : Inert system error calls after) :
    after.transactions = system.transactions := by
  cases h <;> rfl

/-- A failure leaves all environments as they were, but for their engines. -/
theorem environment (h : Inert system error calls after) (env : EnvId) :
    ∃ engine, after.environment env = { system.environment env with engine := engine } := by
  cases h with
  | own => exact ⟨_, rfl⟩
  | @engine place call code engine files =>
      refine modifyEnvironment_induction
        (fun before later ↦ ∃ engine, later = { before with engine := engine })
        (fun before ↦ ⟨before.engine, rfl⟩) ?_ env
      exact ⟨engine, rfl⟩

/-- A failure that the engine did not cause is a refusal to call it. -/
theorem of_code_eq_none (h : Inert system error calls after) (hcode : error.code = none) :
    calls = [] ∧ after = system := by
  cases h with
  | own => exact ⟨rfl, rfl⟩
  | engine herror =>
      rw [herror, Error.code_ofCode] at hcode
      cases hcode

/-- A failure changes no view that a transaction has of a slot. -/
theorem liveGeneration (h : Inert system error calls after) (txn : TxnId) (slot : Nat) :
    after.liveGeneration txn slot = system.liveGeneration txn slot := by
  have htransaction : ∀ other, after.transaction other = system.transaction other := fun other ↦
    transaction_congr h.transactions other
  have hlineage : after.lineage txn = system.lineage txn :=
    lineageFrom_congr (fun other ↦ by rw [htransaction]) _ _
  obtain ⟨engine, henvironment⟩ := h.environment (system.transaction txn).env
  unfold System.liveGeneration
  rw [hlineage, htransaction txn, henvironment]
  simp only [htransaction]

end Inert

/-- An operation that is inert if it fails. -/
def FailsInertly (system : System) (outcome : Outcome α) : Prop :=
  ∀ error, outcome.result = .error (.error error) → Inert system error outcome.calls outcome.state

/-- A refusal to call the engine. -/
theorem failsInertly_fail (hcode : error.code = none) :
    FailsInertly system (system.fail error : Outcome α) := by
  rintro other ⟨rfl⟩
  exact .own hcode

/-- An operation that does not fail. -/
theorem failsInertly_ok {outcome : Outcome α} {value : α} (h : outcome.result = .ok value) :
    FailsInertly system outcome := fun error herror ↦ by
  rw [h] at herror
  cases herror

/-- A call that the engine has answered with a code, and nothing else. -/
theorem failsInertly_code {env : EnvId} {call : Call} {code : Code} {engine : Engine}
    {files : Files.Tree} {events : List Event}
    (hevents : events.filterMap Event.called? = [⟨env, call, code⟩]) :
    FailsInertly system (⟨.error (.error (ofCode code)), events,
      { system.setEngine env engine with files := files }⟩ : Outcome α) := by
  rintro error ⟨rfl⟩
  rw [Outcome.calls, hevents]
  exact .engine rfl

/-- An operation whose result is passed on in another form. -/
theorem FailsInertly.map {outcome : Outcome α} (h : FailsInertly system outcome)
    (change : α → β) : FailsInertly system (outcome.map change) := by
  intro error herror
  exact h error (map_eq_error.mp herror)

/-- An operation after events that are no calls. -/
theorem FailsInertly.preceded {outcome : Outcome α} (h : FailsInertly system outcome)
    {events : List Event} (hevents : events.filterMap Event.called? = []) :
    FailsInertly system (outcome.after events) := by
  intro error herror
  have hcalls : (outcome.after events).calls = outcome.calls := by
    rw [Outcome.calls, Outcome.after, List.filterMap_append, hevents, List.nil_append]
    rfl
  rw [hcalls]
  exact h error herror

/-- An operation that is followed by one that does not fail. -/
theorem FailsInertly.andThen {outcome : Outcome α} (h : FailsInertly system outcome)
    {following : α → System → Outcome β}
    (hfollowing : ∀ value middle, ∃ response, (following value middle).result = .ok response) :
    FailsInertly system (outcome.andThen following) := by
  intro error herror
  cases hresult : outcome.result with
  | error refusal =>
      have heq : outcome.andThen following = ⟨.error refusal, outcome.events, outcome.state⟩ := by
        rw [Outcome.andThen, hresult]
      rw [heq] at herror ⊢
      obtain rfl : refusal = .error error := by simpa using herror
      exact h error hresult
  | ok value =>
      obtain ⟨response, hresponse⟩ := hfollowing value outcome.state
      rw [(andThen_of_ok following hresult).1, hresponse] at herror
      cases herror

/-- A relayed use of the engine. -/
theorem failsInertly_relay [Inhabited α] (env : EnvId) (call : Call)
    (run : Engine → Engine.Answer Engine α) : FailsInertly system (system.relay env call run) := by
  rcases system.relay_ends env call run with ⟨code, -, heq⟩ | ⟨value, heq⟩
  · rw [heq]
    exact failsInertly_code rfl
  · rw [heq]
    exact failsInertly_ok rfl

/-- A search. -/
theorem failsInertly_seek (env : EnvId) (call : Call)
    (run : Engine → Engine.Answer Engine α) : FailsInertly system (system.seek env call run) := by
  rcases system.seek_cases env call run with
    ⟨value, engine, -, heq⟩ | ⟨engine, -, heq⟩ | ⟨code, engine, -, -, heq⟩
  · rw [heq]
    exact failsInertly_ok rfl
  · rw [heq]
    exact failsInertly_ok rfl
  · rw [heq]
    exact failsInertly_code rfl

/-! ### What is no concern of the engine -/

/-- The stage of life of a transaction is no concern of the engine. -/
theorem code_of_lifecycleFault {owner : Transaction} (h : owner.lifecycleFault = some error) :
    error.code = none := by
  rcases lifecycleFault_cases h with rfl | rfl | rfl <;> rfl

/-- What the memory guards object to is no concern of the engine. -/
theorem code_of_guardFault {access : Access} (h : system.guardFault txn access = some error) :
    error.code = none := by
  rcases guardFault_cases h with hfault | rfl
  · exact code_of_lifecycleFault hfault
  · rfl

/-- What the courtesy checks object to is no concern of the engine. -/
theorem code_of_courtesyFault {access : Access}
    (h : system.courtesyFault txn access = some error) : error.code = none := by
  rcases courtesyFault_cases h with rfl | rfl | ⟨key, -, rfl⟩ <;> rfl

/-- What keeps a transaction from beginning is no concern of the engine. -/
theorem code_of_beginFault {env : EnvId} {parent : Option TxnId} {flags : TxnFlags}
    (h : system.beginFault env parent flags = some error) : error.code = none := by
  rcases beginFault_cases h with rfl | rfl | rfl | ⟨outer, hfault⟩
  · rfl
  · rfl
  · rfl
  · exact code_of_lifecycleFault hfault

/-- What is wrong with the destination of a copy is no concern of the engine. -/
theorem code_of_copyFault {tree : Files.Tree} {destination : Bytes}
    (h : copyFault tree destination = some error) : error.code = none := by
  rcases copyFault_cases h with ⟨fault, rfl⟩ | ⟨cause, rfl⟩ <;> rfl

/-- An access to a database. -/
theorem failsInertly_withAccess {access : Access} {use : Transaction → Outcome α}
    (h : FailsInertly system (use (system.transaction txn))) :
    FailsInertly system (system.withAccess txn access use) := by
  have houtcome := system.withAccess_outcome txn access use
  generalize system.withAccess txn access use = outcome at houtcome ⊢
  cases houtcome with
  | guarded hguard => exact failsInertly_fail (code_of_guardFault hguard)
  | objected _ _ hcourtesy =>
      exact (failsInertly_fail (code_of_courtesyFault hcourtesy)).preceded rfl
  | admitted => exact h.preceded rfl

/-- An operation on an environment that is open. -/
theorem failsInertly_whileOpen {env : EnvId} {use : Environment → Outcome α}
    (h : FailsInertly system (use (system.environment env))) :
    FailsInertly system (system.whileOpen env use) := by
  rcases system.whileOpen_cases env use with ⟨-, hrefused⟩ | ⟨-, hallowed⟩
  · rw [hrefused]
    exact failsInertly_fail rfl
  · rw [hallowed]
    exact h

/-! ### Each operation -/

variable {database : Database}

/-- A read of a value. -/
theorem failsInertly_get (key : Bytes) : FailsInertly system (system.get txn database key) := by
  rw [get_eq_seek]
  exact failsInertly_withAccess (failsInertly_seek _ _ _)

/-- A removal of values. -/
theorem failsInertly_del (key : Bytes) (item : Option Bytes) :
    FailsInertly system (system.del txn database key item) := by
  rw [del_eq_seek]
  exact failsInertly_withAccess ((failsInertly_seek _ _ _).map _)

/-- A write of a value. -/
theorem failsInertly_put (key value : Bytes) (flags : WriteFlags) :
    FailsInertly system (system.put txn database key value flags) :=
  failsInertly_withAccess ((failsInertly_relay _ _ _).preceded rfl)

/-- A reservation, with the filling of its buffer. -/
theorem failsInertly_reserve (key data : Bytes) (flags : WriteFlags) :
    FailsInertly system (system.reserveFilled txn database key data flags) :=
  (failsInertly_withAccess ((failsInertly_relay _ _ _).map _)).andThen fun length _ ↦ ⟨length, rfl⟩

/-- A drop of a database. -/
theorem failsInertly_drop : FailsInertly system (system.dropDatabase txn database) := by
  refine failsInertly_withAccess ((failsInertly_relay _ _ _).andThen fun _ middle ↦ ?_)
  split
  all_goals exact ⟨(), rfl⟩

/-- An open of a database. -/
theorem failsInertly_open (name : Option String) (flags : DbFlags) :
    FailsInertly system (system.openThrough txn name flags) := by
  have h := system.openThrough_outcome txn name flags
  generalize system.openThrough txn name flags = outcome at h ⊢
  cases h with
  | unready hfault => exact failsInertly_fail (code_of_lifecycleFault hfault)
  | misnamed => exact failsInertly_fail rfl
  | failed => exact failsInertly_code rfl
  | reopened | opened => exact failsInertly_ok rfl

/-- A begin. -/
theorem failsInertly_begin (env : EnvId) (parent : Option TxnId) (flags : TxnFlags)
    (thread : Nat) : FailsInertly system (system.begin env parent flags thread) := by
  have h := system.begin_outcome env parent flags thread
  generalize system.begin env parent flags thread = outcome at h ⊢
  cases h with
  | refused hfault => exact failsInertly_fail (code_of_beginFault hfault)
  | waits => exact fun _ herror ↦ by cases herror
  | failed => exact failsInertly_code rfl
  | begun => exact failsInertly_ok rfl

/-- A renewal. -/
theorem failsInertly_renew : FailsInertly system (system.renew txn) := by
  have h := system.renew_outcome txn
  generalize system.renew txn = outcome at h ⊢
  cases h with
  | active | finished => exact failsInertly_fail rfl
  | failed => exact failsInertly_code rfl
  | renewed => exact failsInertly_ok rfl

/-- A reset. -/
theorem failsInertly_reset : FailsInertly system (system.reset txn) := by
  have h := system.reset_outcome txn
  generalize system.reset txn = outcome at h ⊢
  cases h with
  | unready hfault => exact failsInertly_fail (code_of_lifecycleFault hfault)
  | writer => exact failsInertly_fail rfl
  | reset => exact failsInertly_ok rfl

/-- The end of a transaction by an abort or a drop, which does not fail. -/
theorem failsInertly_end {outcome : Outcome Unit} (h : EndOutcome system txn outcome) :
    FailsInertly system outcome := by
  cases h with
  | idle | discarded => exact failsInertly_ok rfl

/-- A commit that the engine was not asked for. -/
theorem inert_commit (h : (system.commit txn).result = .error (.error error))
    (hcode : error.code = none) :
    Inert system error (system.commit txn).calls (system.commit txn).state := by
  have houtcome := system.commit_outcome txn
  generalize system.commit txn = outcome at h houtcome ⊢
  cases houtcome with
  | unready hfault => exact failsInertly_fail (code_of_lifecycleFault hfault) error h
  | failed =>
      cases h
      rw [Error.code_ofCode] at hcode
      cases hcode
  | committed => cases h

/-- A copy. -/
theorem failsInertly_copy (env : EnvId) (destination : Bytes) (flags : CopyFlags)
    (thread : Nat) : FailsInertly system (system.copy env destination flags thread) := by
  have h := system.copy_outcome env destination flags thread
  generalize system.copy env destination flags thread = outcome at h ⊢
  cases h with
  | unfit _ hfault => exact failsInertly_fail (code_of_copyFault hfault)
  | closed | unusable => exact failsInertly_fail rfl
  | waits => exact fun _ herror ↦ by cases herror
  | failed => exact failsInertly_code rfl
  | copied => exact failsInertly_ok rfl

/-- A flush. -/
theorem failsInertly_sync (env : EnvId) : FailsInertly system (system.sync env) := by
  have h := system.sync_outcome env
  generalize system.sync env = outcome at h ⊢
  cases h with
  | closed => exact failsInertly_fail rfl
  | objected => exact (failsInertly_fail rfl).preceded rfl
  | failed =>
      rintro error ⟨rfl⟩
      have hinert : Inert system (ofCode (system.engine env).sync)
          [⟨env, .sync, (system.engine env).sync⟩] (system.setEngine env (system.engine env)) :=
        .engine rfl
      rwa [setEngine_engine] at hinert
  | flushed => exact failsInertly_ok rfl

/-- The closing of an environment. -/
theorem failsInertly_close (env : EnvId) : FailsInertly system (system.close env) := by
  have h := system.close_outcome env
  generalize system.close env = outcome at h ⊢
  cases h with
  | busy => exact failsInertly_fail rfl
  | idle | closed => exact failsInertly_ok rfl

/-- Every action but the opening of an environment is inert if it fails, unless it is a commit that
the engine refuses. -/
theorem inert_act (hopening : action.isOpening = false)
    (h : (system.act action).result = .error (.error error))
    (hcommit : ∀ txn, action = .commit txn → error.code = none) :
    Inert system error (system.act action).calls (system.after action) := by
  have hact : (∀ txn, action ≠ .commit txn) → FailsInertly system (system.act action) := by
    intro hne
    cases action with
    | commit txn => exact absurd rfl (hne txn)
    | openEnvironment => cases hopening
    | changeFiles | endThread => exact failsInertly_ok rfl
    | close env => exact (failsInertly_close env).map _
    | copy env destination flags thread =>
        exact (failsInertly_copy env destination flags thread).map _
    | statEnvironment env | info env | readerCheck env =>
        exact (failsInertly_whileOpen (failsInertly_relay _ _ _)).map _
    | sync env => exact (failsInertly_sync env).map _
    | begin env parent flags thread => exact (failsInertly_begin env parent flags thread).map _
    | abort => exact (failsInertly_end (system.abort_outcome _)).map _
    | drop => exact (failsInertly_end (system.dropTransaction_outcome _)).map _
    | reset => exact failsInertly_reset.map _
    | renew => exact failsInertly_renew.map _
    | openDatabase txn name flags => exact (failsInertly_open name flags).map _
    | get txn database key => exact (failsInertly_get key).map _
    | stat => exact (failsInertly_withAccess (failsInertly_relay _ _ _)).map _
    | put txn database key value flags => exact (failsInertly_put key value flags).map _
    | reserve txn database key data flags => exact (failsInertly_reserve key data flags).map _
    | del txn database key item => exact (failsInertly_del key item).map _
    | clear => exact (failsInertly_withAccess (failsInertly_relay _ _ _)).map _
    | dropDatabase => exact failsInertly_drop.map _
  by_cases hcase : ∃ txn, action = .commit txn
  · obtain ⟨txn, rfl⟩ := hcase
    exact inert_commit (map_eq_error.mp h) (hcommit txn rfl)
  · exact hact (fun txn heq ↦ hcase ⟨txn, heq⟩) error h

/-! ## All failures -/

/-- An operation through a transaction that has ended, is at rest or has one nested in it fails with
just that, whatever else is wrong with it. Any failure, the refusal of the engine to commit apart,
leaves all transactions and all environments as they were, their engines apart, and so all handles
as accepted or rejected as they were. If the engine did not raise the error, it was not called. A
transaction whose renewal fails is still at rest, and so is all else. -/
theorem errors_inert (h : Reachable system) :
    (∀ action txn error, action.gated? = some txn → Unready system txn error →
        (system.act action).result = .error (.error error) ∧ (system.act action).calls = [] ∧
          system.after action = system) ∧
      (∀ action error, action.isOpening = false →
        (system.act action).result = .error (.error error) →
        (∀ txn, action = .commit txn → error.code = none) →
        (system.after action).transactions = system.transactions ∧
          (∀ env, ∃ engine, (system.after action).environment env
            = { system.environment env with engine := engine }) ∧
          (∀ txn database, (system.after action).accepts txn database
            = system.accepts txn database) ∧
          (error.code = none → (system.act action).calls = [] ∧ system.after action = system)) ∧
      ∀ txn refusal, (system.renew txn).result = .error refusal →
        system.after (.renew txn) = system := by
  refine ⟨fun action txn error haction hunready ↦ ?_, fun action error hopening hresult hcommit ↦ ?_,
    fun txn refusal hresult ↦ ?_⟩
  · exact act_unready haction (hunready.lifecycleFault h.counted)
  · have hinert := inert_act hopening hresult hcommit
    refine ⟨hinert.transactions, hinert.environment, fun txn database ↦ ?_,
      hinert.of_code_eq_none⟩
    rw [accepts, accepts, hinert.liveGeneration]
  · exact renew_error hresult

/-- Through a transaction at rest nothing can be read, whatever the handle and the key, and it
cannot be renewed while another one of its thread reads; it stays at rest, and can be renewed
afterwards. -/
theorem errors_inert_at_rest :
    let resting := sample.afterAll [.begin 0 none TxnFlags.readOnly mainThread, .reset 1,
      .begin 0 none TxnFlags.readOnly mainThread]
    (resting.act (.get 1 ⟨9, 9, 9, none, .empty⟩ [])).result = .error (.error .txnReset) ∧
      (resting.renew 1).result = .error (.error (.engine .badRslot)) ∧
      resting.after (.renew 1) = resting ∧
      (((resting.after (.renew 1)).after (.abort 2)).renew 1).result = .ok () := by
  intro resting
  have hreachable : Reachable resting := sample_reachable.run (.all _ _)
  obtain ⟨hunready, -, hrenew⟩ := errors_inert hreachable
  have hfailed : (resting.renew 1).result = .error (.error (.engine .badRslot)) := by
    decide +kernel
  refine ⟨(hunready (.get 1 ⟨9, 9, 9, none, .empty⟩ []) 1 _ rfl (.reset ?_)).1, hfailed,
    hrenew 1 _ hfailed, ?_⟩
  · decide +kernel
  · decide +kernel

end System

end MappedStore
