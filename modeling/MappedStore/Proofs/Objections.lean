import MappedStore.Proofs.Engine.Refusing
import MappedStore.Proofs.Refusals

/-!
# Refusals by courtesy checks

Which actions a courtesy check refuses, and that nothing else raises its errors
(`System.objection_of_act`). An action that it would refuse goes to the engine if the courtesy
checks are off, and can then only fail with what the engine answers (`System.coded_of_objection`).
-/

namespace MappedStore

open Error (ofCode)

/-- Whether an error is raised by a courtesy check. That an environment is read-only is a courtesy
only where it is flushed; a begin is refused for it in any case. -/
def Error.isCourtesy (flushing : Bool) : Error → Bool
  | .databaseNotRetained _ | .txnReadOnly | .keyTooLarge .. => true
  | .envReadOnly => flushing
  | _ => false

/-- Whether an action flushes an environment to disk. -/
def Action.isSync : Action → Bool
  | .sync _ => true
  | _ => false

namespace System

variable {α β : Type} {system : System} {action : Action} {txn : TxnId} {access : Access}
  {error : Error} {flushing : Bool}

/-- What a courtesy check objects to in an action that nothing else keeps from the engine. -/
def objection (system : System) (action : Action) : Option Error :=
  match action.access?, action with
  | some (txn, access), _ =>
      if (system.guardFault txn access).isSome then none else system.courtesyFault txn access
  | none, .sync env =>
      if !(system.environment env).closed && (system.environment env).isReadOnly then
        some .envReadOnly
      else none
  | none, _ => none

/-! ## Errors of courtesy -/

/-- What the courtesy checks object to is one of their errors. -/
theorem isCourtesy_of_courtesyFault
    (h : system.courtesyFault txn access = some error) : error.isCourtesy flushing = true := by
  rcases courtesyFault_cases h with rfl | rfl | ⟨key, -, rfl⟩ <;> rfl

/-- What is wrong with the stage of life of a transaction is not a matter of courtesy. -/
theorem isCourtesy_of_lifecycleFault {owner : Transaction} {error : Error}
    (h : owner.lifecycleFault = some error) : Error.isCourtesy flushing error = false := by
  rcases lifecycleFault_cases h with rfl | rfl | rfl <;> rfl

/-- What the memory guards object to is not a matter of courtesy. -/
theorem isCourtesy_of_guardFault (h : system.guardFault txn access = some error) :
    Error.isCourtesy flushing error = false := by
  rcases guardFault_cases h with hfault | rfl
  · exact isCourtesy_of_lifecycleFault hfault
  · rfl

/-- An error that stands for a code of the engine is not one of courtesy. -/
theorem isCourtesy_ofCode (code : Code) : Error.isCourtesy flushing (ofCode code) = false := by
  unfold ofCode
  cases Condition.ofCode? code <;> rfl

/-! ## What operations raise -/

/-- An operation that raises no other errors than those allowed. -/
def Raises (allowed : Error → Prop) (outcome : Outcome α) : Prop :=
  ∀ error, outcome.result = .error (.error error) → allowed error

/-- An error that is not one of courtesy. -/
def Stern (error : Error) : Prop := error.isCourtesy false = false

variable {allowed : Error → Prop}

/-- An error of the engine is not one of courtesy. -/
theorem stern_ofCode (code : Code) : Stern (ofCode code) := isCourtesy_ofCode code

/-- A refusal to call the engine. -/
theorem raises_fail (h : allowed error) : Raises allowed (system.fail error : Outcome α) := by
  rintro other ⟨rfl⟩
  exact h

/-- An operation that does not fail. -/
theorem raises_ok {outcome : Outcome α} {value : α} (h : outcome.result = .ok value) :
    Raises allowed outcome := fun error herror ↦ by
  rw [h] at herror
  cases herror

/-- A failure. -/
theorem raises_error {outcome : Outcome α} (hresult : outcome.result = .error (.error error))
    (h : allowed error) : Raises allowed outcome := fun other hother ↦ by
  rw [hresult] at hother
  cases hother
  exact h

/-- A use of the engine whose result is passed on. -/
theorem raises_relay [Inhabited α] {env : EnvId} {call : Call}
    {run : Engine → Engine.Answer Engine α}
    (h : ∀ code, Engine.failure (run (system.engine env)).1 = some code → allowed (ofCode code)) :
    Raises allowed (system.relay env call run) := by
  rcases system.relay_ends env call run with ⟨code, hrun, heq⟩ | ⟨value, heq⟩
  · rw [heq]
    exact raises_error rfl (h code (by rw [hrun]; rfl))
  · rw [heq]
    exact raises_ok rfl

/-- A search. -/
theorem raises_seek {env : EnvId} {call : Call} {run : Engine → Engine.Answer Engine α}
    (h : ∀ code, Engine.failure (run (system.engine env)).1 = some code → allowed (ofCode code)) :
    Raises allowed (system.seek env call run) := by
  rcases system.seek_cases env call run with
    ⟨value, engine, -, heq⟩ | ⟨engine, -, heq⟩ | ⟨code, engine, hrun, -, heq⟩
  · rw [heq]
    exact raises_ok rfl
  · rw [heq]
    exact raises_ok rfl
  · rw [heq]
    exact raises_error rfl (h code (by rw [hrun]; rfl))

/-- An operation whose result is passed on in another form. -/
theorem raises_map {outcome : Outcome α} (h : Raises allowed outcome) (change : α → β) :
    Raises allowed (outcome.map change) := by
  intro error herror
  exact h error (map_eq_error.mp herror)

/-- Two operations in turn. -/
theorem raises_andThen {outcome : Outcome α} (h : Raises allowed outcome)
    {following : α → System → Outcome β}
    (hfollowing : ∀ value middle, Raises allowed (following value middle)) :
    Raises allowed (outcome.andThen following) := by
  intro error herror
  cases hresult : outcome.result with
  | error refusal =>
      rw [(andThen_of_error following hresult).1] at herror
      cases herror
      exact h error hresult
  | ok value =>
      rw [(andThen_of_ok following hresult).1] at herror
      exact hfollowing value _ error herror

/-- An operation on an environment that is open. -/
theorem raises_whileOpen {env : EnvId} {use : Environment → Outcome α}
    (hclosed : allowed .envClosed) (h : Raises allowed (use (system.environment env))) :
    Raises allowed (system.whileOpen env use) := by
  rcases system.whileOpen_cases env use with ⟨-, hrefused⟩ | ⟨-, hallowed⟩
  · rw [hrefused]
    exact raises_fail hclosed
  · rw [hallowed]
    exact h

/-- A begin. -/
theorem stern_begin (env : EnvId) (parent : Option TxnId) (flags : TxnFlags) (thread : Nat) :
    Raises Stern (system.begin env parent flags thread) := by
  have h := system.begin_outcome env parent flags thread
  generalize system.begin env parent flags thread = outcome at h ⊢
  cases h with
  | refused hfault =>
      refine raises_fail ?_
      -- That an environment is read-only is a courtesy only where it is flushed.
      rcases beginFault_cases hfault with rfl | rfl | rfl | ⟨outer, hstage⟩
      · rfl
      · rfl
      · rfl
      · exact isCourtesy_of_lifecycleFault hstage
  | waits => exact fun _ herror ↦ by cases herror
  | failed => exact raises_error rfl (stern_ofCode _)
  | begun => exact raises_ok rfl

/-- A commit. -/
theorem stern_commit (txn : TxnId) : Raises Stern (system.commit txn) := by
  have h := system.commit_outcome txn
  generalize system.commit txn = outcome at h ⊢
  cases h with
  | unready hfault => exact raises_fail (isCourtesy_of_lifecycleFault hfault)
  | failed => exact raises_error rfl (stern_ofCode _)
  | committed => exact raises_ok rfl

/-- The end of a transaction by an abort or a drop. -/
theorem stern_end {txn : TxnId} {outcome : Outcome Unit} (h : EndOutcome system txn outcome) :
    Raises Stern outcome := by
  cases h with
  | idle | discarded => exact raises_ok rfl

/-- A reset. -/
theorem stern_reset (txn : TxnId) : Raises Stern (system.reset txn) := by
  have h := system.reset_outcome txn
  generalize system.reset txn = outcome at h ⊢
  cases h with
  | unready hfault => exact raises_fail (isCourtesy_of_lifecycleFault hfault)
  | writer => exact raises_fail rfl
  | reset => exact raises_ok rfl

/-- A renewal. -/
theorem stern_renew (txn : TxnId) : Raises Stern (system.renew txn) := by
  have h := system.renew_outcome txn
  generalize system.renew txn = outcome at h ⊢
  cases h with
  | active | finished => exact raises_fail rfl
  | failed => exact raises_error rfl (stern_ofCode _)
  | renewed => exact raises_ok rfl

/-- An open of a database. -/
theorem stern_open (txn : TxnId) (name : Option String) (flags : DbFlags) :
    Raises Stern (system.openThrough txn name flags) := by
  have h := system.openThrough_outcome txn name flags
  generalize system.openThrough txn name flags = outcome at h ⊢
  cases h with
  | unready hfault => exact raises_fail (isCourtesy_of_lifecycleFault hfault)
  | misnamed => exact raises_fail rfl
  | failed => exact raises_error rfl (stern_ofCode _)
  | reopened | opened => exact raises_ok rfl

/-- The opening of an environment. -/
theorem stern_openWith (path : Bytes) (flags : EnvFlags) (config : Config) (kind : ViewKind) :
    Raises Stern (system.openWith path flags config kind) := by
  have h := system.openWith_outcome path flags config kind
  generalize system.openWith path flags config kind = outcome at h ⊢
  cases h with
  | failed => exact raises_error rfl (stern_ofCode _)
  | opened => exact raises_ok rfl

/-- The closing of an environment. -/
theorem stern_close (env : EnvId) : Raises Stern (system.close env) := by
  have h := system.close_outcome env
  generalize system.close env = outcome at h ⊢
  cases h with
  | busy => exact raises_fail rfl
  | idle | closed => exact raises_ok rfl

/-- A copy. -/
theorem stern_copy (env : EnvId) (destination : Bytes) (flags : CopyFlags) (thread : Nat) :
    Raises Stern (system.copy env destination flags thread) := by
  have h := system.copy_outcome env destination flags thread
  generalize system.copy env destination flags thread = outcome at h ⊢
  cases h with
  | unfit _ hfault =>
      refine raises_fail ?_
      rcases copyFault_cases hfault with ⟨fault, rfl⟩ | ⟨cause, rfl⟩ <;> rfl
  | closed | unusable => exact raises_fail rfl
  | waits => exact fun _ herror ↦ by cases herror
  | failed => exact raises_error rfl (stern_ofCode _)
  | copied => exact raises_ok rfl

/-- A use of a database behind the gate is refused for courtesy only by a courtesy check. -/
theorem courtesyFault_of_withAccess {use : Transaction → Outcome α}
    (huse : Raises Stern (use (system.transaction txn)))
    (h : (system.withAccess txn access use).result = .error (.error error))
    (hcourtesy : error.isCourtesy false = true) :
    system.guardFault txn access = none ∧ system.checks = true ∧
      system.courtesyFault txn access = some error := by
  have houtcome := system.withAccess_outcome txn access use
  generalize system.withAccess txn access use = outcome at h houtcome
  cases houtcome with
  | guarded hguard =>
      cases h
      rw [isCourtesy_of_guardFault hguard] at hcourtesy
      cases hcourtesy
  | objected hguard hchecks hfault =>
      cases h
      exact ⟨hguard, hchecks, hfault⟩
  | admitted =>
      rw [huse error h] at hcourtesy
      cases hcourtesy

/-! ## Uses of databases -/

/-- An action on a database is a use of it behind the gate that raises only errors for which the
engine refuses the use. -/
theorem act_of_access (system : System) (haccess : action.access? = some (txn, access)) :
    ∃ use : Transaction → Outcome Response, system.act action = system.withAccess txn access use ∧
      ∀ allowed, (∀ engineUse code, action.use? = some (txn, engineUse) →
          (system.engineOf txn).refusal (system.native txn) engineUse = some code →
          allowed (ofCode code)) →
        Raises allowed (use (system.transaction txn)) := by
  cases action with
  | get owner database key =>
      cases haccess
      exact ⟨_, (congrArg _ (get_eq_seek ..)).trans (map_withAccess ..), fun allowed h ↦
        raises_map (raises_seek fun code hcode ↦ by exact h _ code rfl hcode) _⟩
  | del owner database key item =>
      cases haccess
      exact ⟨_, (congrArg _ (del_eq_seek ..)).trans (map_withAccess ..), fun allowed h ↦
        raises_map (raises_map (raises_seek fun code hcode ↦ by exact h _ code rfl hcode) _) _⟩
  | stat | clear =>
      cases haccess
      exact ⟨_, map_withAccess .., fun allowed h ↦
        raises_map (raises_relay fun code hcode ↦ by exact h _ code rfl hcode) _⟩
  | put owner database key value flags =>
      cases haccess
      exact ⟨_, map_withAccess .., fun allowed h ↦ raises_map
        (fun error herror ↦ raises_relay (fun code hcode ↦ by exact h _ code rfl hcode) error herror) _⟩
  | reserve owner database key data flags =>
      cases haccess
      refine ⟨_, (congrArg _ (andThen_withAccess ..)).trans (map_withAccess ..), fun allowed h ↦ ?_⟩
      exact raises_map (raises_andThen (raises_map
        (raises_relay fun code hcode ↦ by exact h _ code rfl hcode) _) fun _ _ ↦ raises_ok rfl) _
  | dropDatabase owner database =>
      cases haccess
      refine ⟨_, map_withAccess .., fun allowed h ↦ raises_map ?_ _⟩
      refine raises_andThen (raises_relay fun code hcode ↦ by exact h _ code rfl hcode)
        fun _ middle ↦ ?_
      split <;> exact raises_ok rfl
  | _ => cases haccess

/-! ## Objections -/

/-- What is objected to in an action on a database. -/
theorem objection_of_access (haccess : action.access? = some (txn, access)) :
    system.objection action =
      if (system.guardFault txn access).isSome then none else system.courtesyFault txn access := by
  cases action <;> cases haccess <;> rfl

/-- What is objected to in a flush. -/
theorem objection_sync (system : System) (env : EnvId) : system.objection (.sync env) =
    if !(system.environment env).closed && (system.environment env).isReadOnly then
      some .envReadOnly
    else none :=
  rfl

/-- An action that a courtesy check objects to is either a flush or an action on a database that the
memory guards let through. -/
theorem objection_cases (h : system.objection action = some error) :
    (∃ env, action = .sync env ∧ error = .envReadOnly ∧ (system.environment env).closed = false ∧
        (system.environment env).isReadOnly = true) ∨
      ∃ txn access, action.access? = some (txn, access) ∧ system.guardFault txn access = none ∧
        system.courtesyFault txn access = some error := by
  unfold objection at h
  split at h
  · rename_i txn access haccess
    split at h
    · cases h
    rename_i hguard
    exact .inr ⟨txn, access, haccess, Option.not_isSome_iff_eq_none.mp hguard, h⟩
  · split at h
    · rename_i hflush
      exact .inl ⟨_, rfl, (Option.some.inj h).symm, by simpa using hflush⟩
    · cases h
  · cases h

/-- With the courtesy checks on, an action that one of them objects to fails with that, and changes
nothing. -/
theorem act_of_objection (hchecks : system.checks = true)
    (h : system.objection action = some error) :
    (system.act action).result = .error (.error error) ∧ system.after action = system := by
  rcases objection_cases h with
    ⟨env, rfl, rfl, hopen, hreadOnly⟩ | ⟨txn, access, haccess, hguard, hfault⟩
  · have houtcome := system.sync_outcome env
    rw [after, act]
    generalize system.sync env = outcome at houtcome ⊢
    cases houtcome with
    | closed hclosed =>
        rw [hopen] at hclosed
        cases hclosed
    | objected => exact ⟨rfl, rfl⟩
    | failed _ hallowed | flushed _ hallowed =>
        rw [hallowed hchecks] at hreadOnly
        cases hreadOnly
  · refine act_refused haccess ?_
    rw [gateFault, hguard, hchecks]
    exact hfault

/-- An action that is neither on a database nor a flush raises no error of courtesy. -/
theorem stern_act (haccess : action.access? = none) (hsync : action.isSync = false) :
    Raises Stern (system.act action) := by
  cases action with
  | changeFiles | endThread => exact raises_ok rfl
  | openEnvironment => exact raises_map (stern_openWith _ _ _ _) _
  | close => exact raises_map (stern_close _) _
  | copy => exact raises_map (stern_copy _ _ _ _) _
  | statEnvironment | info | readerCheck =>
      have hclosed : Stern .envClosed := rfl
      exact raises_map (raises_whileOpen hclosed (raises_relay fun code _ ↦ stern_ofCode code)) _
  | begin => exact raises_map (stern_begin _ _ _ _) _
  | commit => exact raises_map (stern_commit _) _
  | abort => exact raises_map (stern_end (system.abort_outcome _)) _
  | drop => exact raises_map (stern_end (system.dropTransaction_outcome _)) _
  | reset => exact raises_map (stern_reset _) _
  | renew => exact raises_map (stern_renew _) _
  | openDatabase => exact raises_map (stern_open _ _ _) _
  | sync => cases hsync
  | _ => cases haccess

/-- A flush raises an error of courtesy only in a read-only environment that is open. -/
theorem objection_of_sync {env : EnvId}
    (h : (system.sync env).result = .error (.error error))
    (hcourtesy : error.isCourtesy true = true) :
    system.checks = true ∧ system.objection (.sync env) = some error := by
  have houtcome := system.sync_outcome env
  generalize system.sync env = outcome at h houtcome
  cases houtcome with
  | closed =>
      cases h
      cases hcourtesy
  | objected hopen hchecks hreadOnly =>
      cases h
      refine ⟨hchecks, ?_⟩
      rw [objection_sync]
      simp [hopen, hreadOnly]
  | failed =>
      cases h
      rw [isCourtesy_ofCode] at hcourtesy
      cases hcourtesy
  | flushed => cases h

/-- The errors of the courtesy checks are raised only where one of them objects. -/
theorem objection_of_act (h : (system.act action).result = .error (.error error))
    (hcourtesy : error.isCourtesy action.isSync = true) :
    system.checks = true ∧ system.objection action = some error := by
  cases haccess : action.access? with
  | some accessed =>
      obtain ⟨txn, access⟩ := accessed
      have hsync : action.isSync = false := by
        cases action <;> first | rfl | cases haccess
      obtain ⟨use, huse, hraises⟩ := system.act_of_access haccess
      rw [huse] at h
      rw [hsync] at hcourtesy
      obtain ⟨hguard, hchecks, hfault⟩ := courtesyFault_of_withAccess
        (hraises Stern fun _ code _ _ ↦ stern_ofCode code) h hcourtesy
      rw [objection_of_access haccess, hguard]
      exact ⟨hchecks, hfault⟩
  | none =>
      cases hsync : action.isSync with
      | false =>
          rw [hsync, stern_act haccess hsync error h] at hcourtesy
          cases hcourtesy
      | true =>
          cases action with
          | sync env =>
              exact objection_of_sync (map_eq_error.mp h) hcourtesy
          | _ => cases hsync

/-- An action that a courtesy check objects to goes to the engine if these checks are off. If it
fails then, it is for what the engine answers. -/
theorem coded_of_objection (hchecks : system.checks = false)
    (h : system.objection action = some error) :
    Raises (fun fault ↦ ∃ code, fault = ofCode code) (system.act action) := by
  have hcoded : ∀ code, ∃ other, ofCode code = ofCode other := fun code ↦ ⟨code, rfl⟩
  rcases objection_cases h with ⟨env, rfl, -, hopen, -⟩ | ⟨txn, access, haccess, hguard, -⟩
  · refine raises_map ?_ _
    have houtcome := system.sync_outcome env
    generalize system.sync env = outcome at houtcome ⊢
    cases houtcome with
    | closed hclosed =>
        rw [hopen] at hclosed
        cases hclosed
    | objected _ hon =>
        rw [hchecks] at hon
        cases hon
    | failed => exact raises_error rfl (hcoded _)
    | flushed => exact raises_ok rfl
  · obtain ⟨use, huse, hraises⟩ := system.act_of_access haccess
    rw [huse, withAccess_passed use (by rw [gateFault, hguard, hchecks]; rfl)]
    exact hraises _ fun _ code _ _ ↦ hcoded code

end System

end MappedStore
