import MappedStore.Proofs.Engine.Failures
import MappedStore.Proofs.Run

/-!
# How operations end

What the operations of a process are put together from, and how each of them can end. A relation for
each operation lists its outcomes, with the result, the events and the process that is left, under
what the operation has found (`System.GateOutcome`, `System.BeginOutcome` and so on). Whatever is to
be shown of all outcomes of an operation is shown by cases on its relation, so that a change of the
operation is a change of the relation.
-/

namespace MappedStore.System

variable {α β : Type} {system : System}

/-! ## Engines -/

/-- The process with another engine behind one of its environments. -/
def setEngine (system : System) (env : EnvId) (engine : Engine) : System :=
  system.modifyEnvironment env ({ · with engine := engine })

/-- The engine behind an environment. -/
def engine (system : System) (env : EnvId) : Engine := (system.environment env).engine

/-- The engine behind the environment of a transaction. -/
def engineOf (system : System) (txn : TxnId) : Engine :=
  system.engine (system.transaction txn).env

/-- The native handle of a transaction. -/
def native (system : System) (txn : TxnId) : Nat := (system.transaction txn).native

/-- The thread on which a transaction lives. -/
def thread (system : System) (txn : TxnId) : Nat := (system.transaction txn).thread

/-- The process after the engine of a transaction has turned into another. -/
def setEngineOf (system : System) (txn : TxnId) (engine : Engine) : System :=
  system.setEngine (system.transaction txn).env engine

/-- Changing the engine of an environment is replacing it by the changed one. -/
theorem modifyEngine_eq (system : System) (env : EnvId) (change : Engine → Engine) :
    system.modifyEnvironment env (fun environment ↦
        { environment with engine := change environment.engine })
      = system.setEngine env (change (system.engine env)) := by
  have hmodify : system.environments.modify env (fun environment ↦
        { environment with engine := change environment.engine })
      = system.environments.modify env ({ · with engine := change (system.engine env) }) := by
    apply List.ext_getElem?
    intro other
    rw [List.getElem?_modify, List.getElem?_modify]
    split
    · rename_i heq
      subst heq
      cases hfound : system.environments[env]? with
      | none => rfl
      | some found => simp [engine, environment, List.getD_eq_getElem?_getD, hfound]
    · rfl
  simp [setEngine, modifyEnvironment, hmodify]

/-- An engine replaced by itself changes nothing. -/
@[simp]
theorem setEngine_engine (system : System) (env : EnvId) :
    system.setEngine env (system.engine env) = system := by
  refine (modifyEngine_eq system env id).symm.trans ?_
  have hid : (fun environment : Environment ↦
      { environment with engine := id environment.engine }) = id := rfl
  rw [hid]
  simp [modifyEnvironment, List.modify_id]

/-- A change of a replaced engine. -/
theorem modifyEngine_setEngine (system : System) (env : EnvId) (engine : Engine)
    (change : Engine → Engine) :
    (system.setEngine env engine).modifyEnvironment env (fun environment ↦
        { environment with engine := change environment.engine })
      = system.setEngine env (change engine) := by
  simp [setEngine, modifyEnvironment, List.modify_modify_eq, Function.comp_def]

/-! ## Uses -/

/-- A use of the engine passes its answer on, and changes nothing but the engine. -/
theorem perform_eq (system : System) (env : EnvId) (call : Except Code α → Call)
    (run : Engine → Engine.Answer Engine α) :
    system.perform env call run = ((run (system.engine env)).1,
      .call env (call (run (system.engine env)).1) (codeOf (run (system.engine env)).1),
      system.setEngine env (run (system.engine env)).2) :=
  rfl

section Relay

variable [Inhabited α] (system : System) (env : EnvId) (call : Call)
  (run : Engine → Engine.Answer Engine α)

/-- The state that a relayed use of the engine leaves. -/
theorem relay_state :
    (system.relay env call run).state = system.setEngine env (run (system.engine env)).2 := by
  unfold relay
  rw [perform_eq]
  dsimp only
  split <;> rfl

/-- A relayed use of the engine is a call, which has failed if its code is not that of success. -/
theorem relay_ends :
    (∃ code, (run (system.engine env)).1 = .error code ∧
        system.relay env call run = ⟨.error (.error (.ofCode code)), [.call env call code],
          system.setEngine env (run (system.engine env)).2⟩) ∨
      ∃ value, system.relay env call run =
        ⟨.ok value, [.call env call 0], system.setEngine env (run (system.engine env)).2⟩ := by
  unfold relay
  rw [perform_eq]
  rcases run (system.engine env) with ⟨code | value, engine⟩
  · by_cases hcode : code = 0
    · subst hcode
      exact .inr ⟨default, rfl⟩
    · refine .inl ⟨code, rfl, ?_⟩
      dsimp only [codeOf]
      rw [Error.check_of_ne_zero hcode]
  · exact .inr ⟨value, rfl⟩

/-- A relayed use of the engine fails or succeeds as the engine does. -/
theorem relay_cases (hproper : Engine.Proper (run (system.engine env))) :
    (∃ code engine, run (system.engine env) = (.error code, engine) ∧
        system.relay env call run =
          ⟨.error (.error (.ofCode code)), [.call env call code], system.setEngine env engine⟩) ∨
      ∃ value engine, run (system.engine env) = (.ok value, engine) ∧
        system.relay env call run = ⟨.ok value, [.call env call 0], system.setEngine env engine⟩ := by
  unfold relay
  rw [perform_eq]
  rcases h : run (system.engine env) with ⟨code | value, engine⟩
  · refine .inl ⟨code, engine, rfl, ?_⟩
    dsimp only [codeOf]
    rw [Error.check_of_ne_zero (hproper.ne_zero (congrArg Prod.fst h))]
  · exact .inr ⟨value, engine, rfl, rfl⟩

/-- The result of a relayed use of the engine is the answer of the engine. -/
theorem relay_result (hproper : Engine.Proper (run (system.engine env))) :
    (system.relay env call run).result
      = (run (system.engine env)).1.mapError fun code ↦ .error (.ofCode code) := by
  rcases system.relay_cases env call run hproper with ⟨_, _, hrun, hrelay⟩ | ⟨_, _, hrun, hrelay⟩
  all_goals
    rw [hrelay, hrun]
    rfl

end Relay

/-- Let the engine look for something. That there is nothing to be found is an answer as well. -/
def seek (system : System) (env : EnvId) (call : Call)
    (run : Engine → Engine.Answer Engine α) : Outcome (Option α) :=
  match system.perform env (fun _ ↦ call) run with
  | (.ok value, event, system) => ⟨.ok (some value), [event], system⟩
  | (.error code, event, system) =>
      if code = Condition.notFound.code then ⟨.ok none, [event], system⟩
      else ⟨.error (.error (.ofCode code)), [event], system⟩

/-- A search finds something, or nothing, or fails as the engine does. -/
theorem seek_cases (system : System) (env : EnvId) (call : Call)
    (run : Engine → Engine.Answer Engine α) :
    (∃ value engine, run (system.engine env) = (.ok value, engine) ∧
        system.seek env call run
          = ⟨.ok (some value), [.call env call 0], system.setEngine env engine⟩) ∨
      (∃ engine, run (system.engine env) = (.error Condition.notFound.code, engine) ∧
        system.seek env call run =
          ⟨.ok none, [.call env call Condition.notFound.code], system.setEngine env engine⟩) ∨
      ∃ code engine, run (system.engine env) = (.error code, engine) ∧
        code ≠ Condition.notFound.code ∧ system.seek env call run =
          ⟨.error (.error (.ofCode code)), [.call env call code], system.setEngine env engine⟩ := by
  unfold seek
  rw [perform_eq]
  rcases run (system.engine env) with ⟨code | value, engine⟩
  · by_cases hcode : code = Condition.notFound.code
    · subst hcode
      exact .inr (.inl ⟨engine, rfl, if_pos rfl⟩)
    · exact .inr (.inr ⟨code, engine, rfl, hcode, if_neg hcode⟩)
  · exact .inl ⟨value, engine, rfl, rfl⟩

/-- The state that a search leaves. -/
theorem seek_state (system : System) (env : EnvId) (call : Call)
    (run : Engine → Engine.Answer Engine α) :
    (system.seek env call run).state = system.setEngine env (run (system.engine env)).2 := by
  rcases system.seek_cases env call run with
    ⟨_, _, hrun, hseek⟩ | ⟨_, hrun, hseek⟩ | ⟨_, _, hrun, -, hseek⟩
  all_goals rw [hseek, hrun]

/-! ## What is objected to -/

section Faults

variable {txn : TxnId} {access : Access} {error : Error}

/-- There are three things that can be wrong with the stage of life of a transaction. -/
theorem lifecycleFault_cases {owner : Transaction} (h : owner.lifecycleFault = some error) :
    error = .txnReset ∨ error = .txnFinished ∨ error = .txnHasChild := by
  unfold Transaction.lifecycleFault at h
  split at h
  · exact .inl (Option.some.inj h).symm
  · exact .inr (.inl (Option.some.inj h).symm)
  · exact .inr (.inl (Option.some.inj h).symm)
  · split at h
    · exact .inr (.inr (Option.some.inj h).symm)
    · cases h

/-- The memory guards object to the stage of life of a transaction, or to the handle of another
environment. -/
theorem guardFault_cases (h : system.guardFault txn access = some error) :
    (system.transaction txn).lifecycleFault = some error ∨ error = .foreignDatabase := by
  obtain hfault | ⟨-, hforeign⟩ := Option.or_eq_some_iff.mp h
  · exact .inl hfault
  · split at hforeign
    · exact .inr (Option.some.inj hforeign).symm
    · cases hforeign

/-- The courtesy checks object to a handle, to a write by a reader, or to the length of a key. -/
theorem courtesyFault_cases (h : system.courtesyFault txn access = some error) :
    error = .databaseNotRetained access.database.slot ∨ error = .txnReadOnly ∨
      ∃ key, access.key = some key ∧ error = .keyTooLarge key.length Engine.maxKeySize := by
  unfold courtesyFault at h
  split at h
  · exact .inl (Option.some.inj h).symm
  split at h
  · exact .inr (.inl (Option.some.inj h).symm)
  split at h
  · cases h
  rename_i key hkey
  split at h
  · exact .inr (.inr ⟨key, hkey, (Option.some.inj h).symm⟩)
  · cases h

/-- A begin is refused for the environment, or for the transaction that it is nested in. -/
theorem beginFault_cases {env : EnvId} {parent : Option TxnId} {flags : TxnFlags}
    (h : system.beginFault env parent flags = some error) :
    error = .envClosed ∨ error = .envReadOnly ∨ error = .foreignTransaction ∨
      ∃ outer, (system.transaction outer).lifecycleFault = some error := by
  unfold beginFault at h
  dsimp only at h
  split at h
  · exact .inl (Option.some.inj h).symm
  split at h
  · exact .inr (.inl (Option.some.inj h).symm)
  obtain ⟨outer, -, hnesting⟩ := Option.bind_eq_some_iff.mp h
  unfold nestingFault at hnesting
  split at hnesting
  · exact .inr (.inr (.inl (Option.some.inj hnesting).symm))
  · exact .inr (.inr (.inr ⟨outer, hnesting⟩))

/-- A destination of a copy cannot be looked up, or is no empty directory. -/
theorem copyFault_cases {tree : Files.Tree} {destination : Bytes}
    (h : copyFault tree destination = some error) :
    (∃ fault, error = .io fault) ∨ ∃ cause, error = .invalidCopyDestination destination cause := by
  unfold copyFault at h
  split at h
  · exact .inl ⟨_, (Option.some.inj h).symm⟩
  split at h
  · split at h
    · exact .inr ⟨_, (Option.some.inj h).symm⟩
    · exact .inl ⟨_, (Option.some.inj h).symm⟩
  · exact .inr ⟨_, (Option.some.inj h).symm⟩
  · split at h
    · cases h
    · exact .inr ⟨_, (Option.some.inj h).symm⟩

/-- A transaction whose guards have nothing to object to can be used. -/
theorem lifecycleFault_of_guardFault {txn : TxnId} {access : Access}
    (h : system.guardFault txn access = none) :
    (system.transaction txn).lifecycleFault = none ∧
      access.database.env = (system.transaction txn).env := by
  unfold guardFault at h
  rw [Option.or_eq_none_iff] at h
  refine ⟨h.1, ?_⟩
  simpa using h.2

/-- The courtesy checks have nothing to object to only in a handle that is live. -/
theorem accepts_of_courtesyFault {txn : TxnId} {access : Access}
    (h : system.courtesyFault txn access = none) : system.accepts txn access.database = true := by
  unfold courtesyFault at h
  split at h
  · cases h
  · rename_i haccepts
    simpa using haccepts

end Faults

/-! ## The gate -/

/-- How a use of a database can end: a memory guard or a courtesy check refuses it, or it is carried
out. -/
inductive GateOutcome (system : System) (txn : TxnId) (access : Access)
    (use : Transaction → Outcome α) : Outcome α → Prop where
  | guarded {error : Error} (hguard : system.guardFault txn access = some error) :
      GateOutcome system txn access use (system.fail error)
  | objected {error : Error} (hguard : system.guardFault txn access = none)
      (hchecks : system.checks = true)
      (hcourtesy : system.courtesyFault txn access = some error) :
      GateOutcome system txn access use ((system.fail error).after [.consulted])
  | admitted (hguard : system.guardFault txn access = none)
      (hcourtesy : system.checks = true → system.courtesyFault txn access = none) :
      GateOutcome system txn access use ((use (system.transaction txn)).after [.consulted])

/-- Every use of a database ends so. -/
theorem withAccess_outcome (system : System) (txn : TxnId) (access : Access)
    (use : Transaction → Outcome α) :
    GateOutcome system txn access use (system.withAccess txn access use) := by
  unfold withAccess
  split
  · exact .guarded ‹_›
  rename_i hguard
  cases hchecks : system.checks with
  | false => exact .admitted hguard (by simp [hchecks])
  | true =>
      cases hcourtesy : system.courtesyFault txn access with
      | some error => exact .objected hguard hchecks hcourtesy
      | none => exact .admitted hguard fun _ ↦ hcourtesy

/-- An operation behind the gate is refused without a trace, or carried out. -/
theorem withAccess_cases (system : System) (txn : TxnId) (access : Access)
    (use : Transaction → Outcome α) :
    (∃ error, (system.withAccess txn access use).result = .error (.error error) ∧
        (system.withAccess txn access use).state = system) ∨
      (system.guardFault txn access = none ∧
        (system.checks = true → system.courtesyFault txn access = none) ∧
        (system.withAccess txn access use).result = (use (system.transaction txn)).result ∧
        (system.withAccess txn access use).state = (use (system.transaction txn)).state) := by
  have h := system.withAccess_outcome txn access use
  generalize system.withAccess txn access use = outcome at h ⊢
  cases h with
  | guarded | objected => exact .inl ⟨_, rfl, rfl⟩
  | admitted hguard hcourtesy => exact .inr ⟨hguard, hcourtesy, rfl, rfl⟩

/-- The result of a use of a database is passed on in another form. -/
theorem map_withAccess {txn : TxnId} {access : Access} (change : α → β)
    (use : Transaction → Outcome α) :
    (system.withAccess txn access use).map change
      = system.withAccess txn access fun transaction ↦ (use transaction).map change := by
  unfold withAccess
  split
  · rfl
  split <;> rfl

/-- What follows an operation follows it after other events as well. -/
theorem andThen_after (outcome : Outcome α) (events : List Event)
    (following : α → System → Outcome β) :
    (outcome.after events).andThen following = (outcome.andThen following).after events := by
  obtain ⟨result, later, state⟩ := outcome
  cases result with
  | error refusal => rfl
  | ok value => simp [Outcome.andThen, Outcome.after]

/-- What follows an operation whose result is passed on in another form. -/
theorem map_andThen {γ : Type} (outcome : Outcome α) (change : α → β)
    (following : β → System → Outcome γ) :
    (outcome.map change).andThen following
      = outcome.andThen fun value system ↦ following (change value) system := by
  obtain ⟨result, events, state⟩ := outcome
  cases result <;> rfl

/-- A use of a database is followed by something else. -/
theorem andThen_withAccess {txn : TxnId} {access : Access}
    (following : α → System → Outcome β) (use : Transaction → Outcome α) :
    (system.withAccess txn access use).andThen following
      = system.withAccess txn access fun transaction ↦ (use transaction).andThen following := by
  unfold withAccess
  split
  · rfl
  split
  · rfl
  · exact andThen_after ..

/-- An operation on an environment is refused if that is closed. -/
theorem whileOpen_cases (system : System) (env : EnvId) (use : Environment → Outcome α) :
    ((system.environment env).closed = true ∧
        system.whileOpen env use = system.fail .envClosed) ∨
      (system.environment env).closed = false ∧
        system.whileOpen env use = use (system.environment env) := by
  unfold whileOpen
  cases (system.environment env).closed with
  | true => exact .inl ⟨rfl, rfl⟩
  | false => exact .inr ⟨rfl, rfl⟩

/-! ## Databases -/

/-- A search that does not fail. -/
theorem seek_ok {env : EnvId} {call : Call} {run : Engine → Engine.Answer Engine α}
    {found : Option α} (h : (system.seek env call run).result = .ok found) :
    (∃ value engine, found = some value ∧ run (system.engine env) = (.ok value, engine) ∧
        (system.seek env call run).state = system.setEngine env engine) ∨
      ∃ engine, found = none ∧ run (system.engine env) = (.error Condition.notFound.code, engine) ∧
        (system.seek env call run).state = system.setEngine env engine := by
  rcases system.seek_cases env call run with
    ⟨value, engine, hrun, hseek⟩ | ⟨engine, hrun, hseek⟩ | ⟨_, _, -, -, hseek⟩
  · rw [hseek] at h ⊢
    exact .inl ⟨value, engine, (Except.ok.inj h).symm, hrun, rfl⟩
  · rw [hseek] at h ⊢
    exact .inr ⟨engine, (Except.ok.inj h).symm, hrun, rfl⟩
  · rw [hseek] at h
    cases h

/-- The result of a search. -/
theorem seek_result (system : System) (env : EnvId) (call : Call)
    (run : Engine → Engine.Answer Engine α) :
    (system.seek env call run).result =
      match (run (system.engine env)).1 with
      | .ok value => .ok (some value)
      | .error code =>
          if code = Condition.notFound.code then .ok none else .error (.error (.ofCode code)) := by
  rcases system.seek_cases env call run with
    ⟨_, _, hrun, hseek⟩ | ⟨_, hrun, hseek⟩ | ⟨_, _, hrun, hcode, hseek⟩
  · rw [hseek, hrun]
  · rw [hseek, hrun]
    exact (if_pos rfl).symm
  · rw [hseek, hrun]
    exact (if_neg hcode).symm

/-- A read of a value looks for it behind the gate. -/
theorem get_eq_seek (system : System) (txn : TxnId) (database : Database) (key : Bytes) :
    system.get txn database key
      = system.withAccess txn { database := database, key := some key } fun transaction ↦
          system.seek transaction.env (.get transaction.native database.slot key)
            (·.get transaction.native database.slot key) := by
  unfold get
  refine congrArg (system.withAccess txn _) (funext fun transaction ↦ ?_)
  unfold seek
  rw [perform_eq]
  rcases (system.engine transaction.env).get transaction.native database.slot key with
    ⟨code | value, engine⟩
  · rfl
  · rfl

/-- A removal looks behind the gate for what it removes. -/
theorem del_eq_seek (system : System) (txn : TxnId) (database : Database) (key : Bytes)
    (item : Option Bytes) :
    system.del txn database key item
      = system.withAccess txn { database := database, writes := true, key := some key }
          fun transaction ↦
            (system.seek transaction.env (.del transaction.native database.slot key item)
              (·.del transaction.native database.slot key item)).map Option.isSome := by
  unfold del
  refine congrArg (system.withAccess txn _) (funext fun transaction ↦ ?_)
  unfold seek
  rw [perform_eq]
  rcases (system.engine transaction.env).del transaction.native database.slot key item with
    ⟨code | ⟨⟨⟩⟩, engine⟩
  · by_cases hcode : code = Condition.notFound.code
    · subst hcode
      rfl
    · simp only [if_neg hcode]
      rfl
  · rfl

/-- The lineage of a transaction depends on the parents of transactions only. -/
theorem lineageFrom_congr {other : System}
    (h : ∀ txn, (other.transaction txn).parent = (system.transaction txn).parent) (fuel : Nat)
    (txn : TxnId) : other.lineageFrom fuel txn = system.lineageFrom fuel txn := by
  induction fuel generalizing txn with
  | zero => rfl
  | succ fuel ih =>
      unfold lineageFrom
      rw [h txn]
      cases (system.transaction txn).parent with
      | none => rfl
      | some parent => exact congrArg (txn :: ·) (ih parent)

/-- What an environment retains, and how many generations it has given out, do not depend on its
engine. -/
theorem environment_setEngine (system : System) (env other : EnvId) (engine : Engine) :
    ((system.setEngine env engine).environment other).retained
        = (system.environment other).retained ∧
      ((system.setEngine env engine).environment other).nextGeneration
        = (system.environment other).nextGeneration := by
  by_cases hlt : other < system.environments.length
  · by_cases hother : other = env
    · subst hother
      rw [setEngine, environment_modifyEnvironment_self _ _ hlt]
      exact ⟨rfl, rfl⟩
    · rw [setEngine, environment_modifyEnvironment_of_ne _ _ hother]
      exact ⟨rfl, rfl⟩
  · have hge := Nat.le_of_not_lt hlt
    simp [environment, setEngine, modifyEnvironment, List.getD_eq_getElem?_getD, hge]

/-- The live generation of a slot does not depend on the engine. -/
@[simp]
theorem liveGeneration_setEngine (system : System) (env : EnvId) (engine : Engine) (txn : TxnId)
    (slot : Nat) :
    (system.setEngine env engine).liveGeneration txn slot = system.liveGeneration txn slot := by
  have hparent : ∀ other, ((system.setEngine env engine).transaction other).parent
      = (system.transaction other).parent := fun _ ↦ rfl
  have hlineage : (system.setEngine env engine).lineage txn = system.lineage txn :=
    lineageFrom_congr hparent _ _
  have htransaction : (system.setEngine env engine).transaction = system.transaction := rfl
  unfold liveGeneration
  rw [hlineage, htransaction, (environment_setEngine system env _ engine).1]

/-- The process after a transaction has recorded an open of a slot. -/
def recordOpen (system : System) (txn : TxnId) (slot generation : Nat) : System :=
  system.modifyTransaction txn fun opener ↦
    { opener with opened := (slot, generation) :: opener.opened }

/-- The process after an environment has given out its next generation. -/
def advance (system : System) (env : EnvId) : System :=
  system.modifyEnvironment env fun environment ↦
    { environment with nextGeneration := environment.nextGeneration + 1 }

/-- The process after a transaction has recorded a drop of a slot. -/
def recordDrop (system : System) (txn : TxnId) (slot : Nat) : System :=
  system.modifyTransaction txn fun dropper ↦
    { dropper with
      opened := dropper.opened.filter (·.1 ≠ slot)
      dropped := slot :: dropper.dropped }

/-- The transaction that a begin enters. -/
def entrant (env : EnvId) (parent : Option TxnId) (flags : TxnFlags) (native thread : Nat) :
    Transaction where
  env := env
  native := native
  thread := thread
  readOnly := flags.contains TxnFlags.readOnly
  parent := parent
  holdsWriter := !flags.contains TxnFlags.readOnly && parent.isNone

/-- The process after a transaction has changed its stage of life. -/
def setState (system : System) (txn : TxnId) (state : TxnState) : System :=
  system.modifyTransaction txn ({ · with state := state })

/-- The handle for a slot that the engine has opened, and the process that has recorded it. -/
theorem takeHandle_eq (system : System) (txn : TxnId) (slot : Nat) (name : Option String)
    (flags : DbFlags) :
    system.takeHandle txn slot name flags =
      match system.liveGeneration txn slot with
      | some generation => (⟨slot, generation, (system.transaction txn).env, name, flags⟩, system)
      | none =>
          (⟨slot, (system.environment (system.transaction txn).env).nextGeneration,
              (system.transaction txn).env, name, flags⟩,
            system.advance (system.transaction txn).env) := rfl

/-- How an open of a database can end. The handle has the generation that is live in the slot, or
the next one of the environment. -/
inductive OpenThroughOutcome (system : System) (txn : TxnId) (name : Option String)
    (flags : DbFlags) : Outcome Database → Prop where
  | unready {error : Error} (hfault : (system.transaction txn).lifecycleFault = some error) :
      OpenThroughOutcome system txn name flags (system.fail error)
  | misnamed {text : String} (hfault : (system.transaction txn).lifecycleFault = none)
      (hname : name.filter (·.toList.contains '\x00') = some text) :
      OpenThroughOutcome system txn name flags (system.fail (.invalidDatabaseName text))
  | failed {code : Code} {engine : Engine}
      (hfault : (system.transaction txn).lifecycleFault = none)
      (hopen : (system.engineOf txn).openDatabase (system.native txn) (name.map Bytes.ofText) flags
        = (.error code, engine)) :
      OpenThroughOutcome system txn name flags
        ⟨.error (.error (.ofCode code)),
          [.call (system.transaction txn).env
            (.openDatabase (system.native txn) (name.map Bytes.ofText) flags) code],
          system.setEngineOf txn engine⟩
  | reopened {slot generation : Nat} {engine : Engine}
      (hfault : (system.transaction txn).lifecycleFault = none)
      (hopen : (system.engineOf txn).openDatabase (system.native txn) (name.map Bytes.ofText) flags
        = (.ok slot, engine))
      (hlive : system.liveGeneration txn slot = some generation) :
      OpenThroughOutcome system txn name flags
        ⟨.ok ⟨slot, generation, (system.transaction txn).env, name, flags⟩,
          [.call (system.transaction txn).env
            (.openDatabase (system.native txn) (name.map Bytes.ofText) flags) 0,
            .log (.openedDatabase name slot generation)],
          (system.setEngineOf txn engine).recordOpen txn slot generation⟩
  | opened {slot : Nat} {engine : Engine}
      (hfault : (system.transaction txn).lifecycleFault = none)
      (hopen : (system.engineOf txn).openDatabase (system.native txn) (name.map Bytes.ofText) flags
        = (.ok slot, engine))
      (hlive : system.liveGeneration txn slot = none) :
      OpenThroughOutcome system txn name flags
        ⟨.ok ⟨slot, (system.environment (system.transaction txn).env).nextGeneration,
            (system.transaction txn).env, name, flags⟩,
          [.call (system.transaction txn).env
            (.openDatabase (system.native txn) (name.map Bytes.ofText) flags) 0,
            .log (.openedDatabase name slot
              (system.environment (system.transaction txn).env).nextGeneration)],
          ((system.setEngineOf txn engine).advance (system.transaction txn).env).recordOpen txn slot
            (system.environment (system.transaction txn).env).nextGeneration⟩

/-- Every open of a database ends so. -/
theorem openThrough_outcome (system : System) (txn : TxnId) (name : Option String)
    (flags : DbFlags) :
    OpenThroughOutcome system txn name flags (system.openThrough txn name flags) := by
  unfold openThrough
  dsimp only
  split
  · exact .unready ‹_›
  · exact .misnamed ‹_› ‹_›
  rename_i hfault _
  rcases system.relay_cases (system.transaction txn).env
    (.openDatabase (system.transaction txn).native (name.map Bytes.ofText) flags)
    (·.openDatabase (system.transaction txn).native (name.map Bytes.ofText) flags)
    (Engine.proper_openDatabase ..)
    with ⟨code, engine, hopen, hrelay⟩ | ⟨slot, engine, hopen, hrelay⟩
  · rw [hrelay]
    exact .failed hfault hopen
  · rw [hrelay]
    simp only [Outcome.andThen, takeHandle_eq, liveGeneration_setEngine]
    cases hlive : system.liveGeneration txn slot with
    | some generation => exact .reopened hfault hopen hlive
    | none =>
        have hnext := (environment_setEngine system (system.transaction txn).env
          (system.transaction txn).env engine).2
        have htxn : (system.setEngine (system.transaction txn).env engine).transaction txn
          = system.transaction txn := rfl
        dsimp only
        rw [htxn, hnext]
        exact .opened hfault hopen hlive

/-- How a drop of a database can end. The main one is only emptied. -/
inductive DropDatabaseOutcome (system : System) (txn : TxnId) (database : Database) :
    Outcome Unit → Prop where
  | guarded {error : Error}
      (hguard : system.guardFault txn { database := database, writes := true } = some error) :
      DropDatabaseOutcome system txn database (system.fail error)
  | objected {error : Error}
      (hguard : system.guardFault txn { database := database, writes := true } = none)
      (hchecks : system.checks = true)
      (hcourtesy : system.courtesyFault txn { database := database, writes := true }
        = some error) :
      DropDatabaseOutcome system txn database ((system.fail error).after [.consulted])
  | failed {code : Code} {engine : Engine}
      (hguard : system.guardFault txn { database := database, writes := true } = none)
      (hdrop : (system.engineOf txn).drop (system.native txn) database.slot true
        = (.error code, engine)) :
      DropDatabaseOutcome system txn database
        ⟨.error (.error (.ofCode code)),
          [.consulted,
            .call (system.transaction txn).env (.drop (system.native txn) database.slot true) code],
          system.setEngineOf txn engine⟩
  | emptied {engine : Engine}
      (hguard : system.guardFault txn { database := database, writes := true } = none)
      (hdrop : (system.engineOf txn).drop (system.native txn) database.slot true
        = (.ok (), engine))
      (hslot : database.slot = Engine.mainSlot) :
      DropDatabaseOutcome system txn database
        ⟨.ok (),
          [.consulted,
            .call (system.transaction txn).env (.drop (system.native txn) database.slot true) 0],
          system.setEngineOf txn engine⟩
  | dropped {engine : Engine}
      (hguard : system.guardFault txn { database := database, writes := true } = none)
      (hcourtesy : system.checks = true →
        system.courtesyFault txn { database := database, writes := true } = none)
      (hdrop : (system.engineOf txn).drop (system.native txn) database.slot true
        = (.ok (), engine))
      (hslot : database.slot ≠ Engine.mainSlot) :
      DropDatabaseOutcome system txn database
        ⟨.ok (),
          [.consulted,
            .call (system.transaction txn).env (.drop (system.native txn) database.slot true) 0],
          (system.setEngineOf txn engine).recordDrop txn database.slot⟩

/-- Every drop of a database ends so. -/
theorem dropDatabase_outcome (system : System) (txn : TxnId) (database : Database) :
    DropDatabaseOutcome system txn database (system.dropDatabase txn database) := by
  have h := system.withAccess_outcome txn { database := database, writes := true }
    fun transaction ↦
      (system.relay transaction.env (.drop transaction.native database.slot true)
        (·.drop transaction.native database.slot true)).andThen fun _ system ↦
          if database.slot = Engine.mainSlot then system.done ()
          else (system.recordDrop txn database.slot).done ()
  change GateOutcome _ _ _ _ (system.dropDatabase txn database) at h
  generalize system.dropDatabase txn database = outcome at h ⊢
  cases h with
  | guarded hguard => exact .guarded hguard
  | objected hguard hchecks hcourtesy => exact .objected hguard hchecks hcourtesy
  | admitted hguard hcourtesy =>
      rcases system.relay_cases (system.transaction txn).env
        (.drop (system.transaction txn).native database.slot true)
        (·.drop (system.transaction txn).native database.slot true) (Engine.proper_drop ..)
        with ⟨code, engine, hdrop, hrelay⟩ | ⟨⟨⟩, engine, hdrop, hrelay⟩
      · rw [hrelay]
        exact .failed hguard hdrop
      rw [hrelay]
      dsimp only [Outcome.andThen]
      split
      · exact .emptied hguard hdrop ‹_›
      · exact .dropped hguard hcourtesy hdrop ‹_›

/-! ## Lives of transactions -/

/-- How a begin can end. A root that can write waits for another to end. -/
inductive BeginOutcome (system : System) (env : EnvId) (parent : Option TxnId) (flags : TxnFlags)
    (thread : Nat) : Outcome TxnId → Prop where
  | refused {error : Error} (hfault : system.beginFault env parent flags = some error) :
      BeginOutcome system env parent flags thread (system.fail error)
  | waits (hfault : system.beginFault env parent flags = none)
      (hwriter : flags.contains TxnFlags.readOnly = false) (hroot : parent = none)
      (hlocked : (system.environment env).writerLocked = true) :
      BeginOutcome system env parent flags thread ⟨.error .wait, [], system⟩
  | failed {code : Code} {engine : Engine} (hfault : system.beginFault env parent flags = none)
      (hbegin : (system.engine env).begin (parent.map system.native) flags thread
        = (.error code, engine)) :
      BeginOutcome system env parent flags thread
        ⟨.error (.error (.ofCode code)),
          [.call env (.begin none (parent.map system.native) flags) code],
          system.setEngine env engine⟩
  | begun {native : Nat} {engine : Engine} (hfault : system.beginFault env parent flags = none)
      (hwriter : flags.contains TxnFlags.readOnly = false → parent = none →
        (system.environment env).writerLocked = false)
      (hbegin : (system.engine env).begin (parent.map system.native) flags thread
        = (.ok native, engine)) :
      BeginOutcome system env parent flags thread
        ⟨.ok system.transactions.length,
          [.call env (.begin (some native) (parent.map system.native) flags) 0,
            .log (.began (flags.contains TxnFlags.readOnly) parent.isSome)],
          (system.setEngine env engine).enter (entrant env parent flags native thread)⟩

/-- Every begin ends so. -/
theorem begin_outcome (system : System) (env : EnvId) (parent : Option TxnId) (flags : TxnFlags)
    (thread : Nat) :
    BeginOutcome system env parent flags thread (system.begin env parent flags thread) := by
  unfold begin
  split
  · exact .refused ‹_›
  rename_i hfault
  dsimp only
  split
  · rename_i hwaits
    simp only [Bool.and_eq_true, Bool.not_eq_true', Option.isNone_iff_eq_none] at hwaits
    exact .waits hfault hwaits.1.1 hwaits.1.2 hwaits.2
  rename_i hfree
  rw [perform_eq]
  rcases hbegin : (system.engine env).begin (parent.map system.native) flags thread
    with ⟨code | native, engine⟩
  all_goals
    have hbegin' : (system.engine env).begin
      (parent.map fun parent ↦ (system.transaction parent).native) flags thread = _ := hbegin
    rw [hbegin']
  · have hcode := (Engine.proper_begin ..).ne_zero (congrArg Prod.fst hbegin)
    dsimp only [codeOf]
    rw [Error.check_of_ne_zero hcode]
    exact .failed hfault hbegin
  · exact .begun hfault (fun hflags hparent ↦ by simpa [hflags, hparent] using hfree) hbegin

/-- How a commit can end. The transaction has ended as well if the engine refuses it. -/
inductive CommitOutcome (system : System) (txn : TxnId) : Outcome Unit → Prop where
  | unready {error : Error} (hfault : (system.transaction txn).lifecycleFault = some error) :
      CommitOutcome system txn (system.fail error)
  | failed {code : Code} {engine : Engine}
      (hfault : (system.transaction txn).lifecycleFault = none)
      (hcommit : (system.engineOf txn).commit (system.native txn) = (.error code, engine)) :
      CommitOutcome system txn
        ⟨.error (.error (.ofCode code)),
          [.call (system.transaction txn).env (.commit (system.native txn)) code,
            .log (.commitFailed (.ofCode code))],
          (system.setEngineOf txn engine).finish txn .aborted⟩
  | committed {engine : Engine} (hfault : (system.transaction txn).lifecycleFault = none)
      (hcommit : (system.engineOf txn).commit (system.native txn) = (.ok (), engine)) :
      CommitOutcome system txn
        ⟨.ok (),
          [.call (system.transaction txn).env (.commit (system.native txn)) 0, .log .committed],
          ((system.setEngineOf txn engine).handOver txn).finish txn .committed⟩

/-- Every commit ends so. -/
theorem commit_outcome (system : System) (txn : TxnId) :
    CommitOutcome system txn (system.commit txn) := by
  unfold commit
  dsimp only
  split
  · exact .unready ‹_›
  rename_i hfault
  rw [perform_eq]
  rcases hcommit : (system.engineOf txn).commit (system.native txn) with ⟨code | ⟨⟨⟩⟩, engine⟩
  all_goals
    have hcommit' : (system.engine (system.transaction txn).env).commit
      (system.transaction txn).native = _ := hcommit
    rw [hcommit']
  · have hcode := (Engine.proper_commit ..).ne_zero (congrArg Prod.fst hcommit)
    dsimp only [codeOf]
    rw [Error.check_of_ne_zero hcode]
    exact .failed hfault hcommit
  · exact .committed hfault hcommit

/-- How an abort or a drop of a transaction can end: nothing happens to one that has ended. Any
other is discarded, with or without a word about it. -/
inductive EndOutcome (system : System) (txn : TxnId) : Outcome Unit → Prop where
  | idle (hstate : (system.transaction txn).state.isFinished = true) :
      EndOutcome system txn (system.done ())
  | discarded (before after : List Log.Record)
      (hstate : (system.transaction txn).state.isFinished = false) :
      EndOutcome system txn
        ⟨.ok (),
          before.map .log ++
            .call (system.transaction txn).env (.abort (system.native txn)) 0 :: after.map .log,
          (system.setEngineOf txn ((system.engineOf txn).abort (system.native txn))).finish txn
            .aborted⟩

/-- Every abort ends so. -/
theorem abort_outcome (system : System) (txn : TxnId) :
    EndOutcome system txn (system.abort txn) := by
  unfold abort
  split
  · exact .idle ‹_›
  · rename_i hstate
    exact .discarded [] [.aborted] (by simpa using hstate)

/-- Every drop of a transaction ends so. -/
theorem dropTransaction_outcome (system : System) (txn : TxnId) :
    EndOutcome system txn (system.dropTransaction txn) := by
  unfold dropTransaction
  dsimp only
  split
  · rename_i hstate
    exact .idle (by rw [hstate]; rfl)
  · rename_i hstate
    exact .idle (by rw [hstate]; rfl)
  · rename_i hstate
    split
    · exact .discarded [] [] (by rw [hstate]; rfl)
    · unfold abort
      rw [hstate]
      exact .discarded [.abandoned] [.aborted] (by rw [hstate]; rfl)
  · rename_i hstate
    exact .discarded [] [] (by rw [hstate]; rfl)

/-- How a reset can end. -/
inductive ResetOutcome (system : System) (txn : TxnId) : Outcome Unit → Prop where
  | unready {error : Error} (hfault : (system.transaction txn).lifecycleFault = some error) :
      ResetOutcome system txn (system.fail error)
  | writer (hfault : (system.transaction txn).lifecycleFault = none)
      (hwriter : (system.transaction txn).readOnly = false) :
      ResetOutcome system txn (system.fail .txnNotReadOnly)
  | reset (hfault : (system.transaction txn).lifecycleFault = none)
      (hreader : (system.transaction txn).readOnly = true) :
      ResetOutcome system txn
        ⟨.ok (),
          [.call (system.transaction txn).env (.reset (system.native txn)) 0, .log .reset],
          (system.setEngineOf txn ((system.engineOf txn).reset (system.native txn))).setState txn
            .reset⟩

/-- Every reset ends so. -/
theorem reset_outcome (system : System) (txn : TxnId) :
    ResetOutcome system txn (system.reset txn) := by
  unfold reset
  dsimp only
  split
  · exact .unready ‹_›
  rename_i hfault
  cases hreader : (system.transaction txn).readOnly with
  | false => exact .writer hfault hreader
  | true => exact .reset hfault hreader

/-- How a renewal can end. -/
inductive RenewOutcome (system : System) (txn : TxnId) : Outcome Unit → Prop where
  | active (hstate : (system.transaction txn).state = .active) :
      RenewOutcome system txn (system.fail .txnNotReset)
  | finished (hstate : (system.transaction txn).state.isFinished = true) :
      RenewOutcome system txn (system.fail .txnFinished)
  | failed {code : Code} {engine : Engine} (hstate : (system.transaction txn).state = .reset)
      (hrenew : (system.engineOf txn).renew (system.native txn) (system.thread txn)
        = (.error code, engine)) :
      RenewOutcome system txn
        ⟨.error (.error (.ofCode code)),
          [.call (system.transaction txn).env (.renew (system.native txn)) code],
          system.setEngineOf txn engine⟩
  | renewed {engine : Engine} (hstate : (system.transaction txn).state = .reset)
      (hrenew : (system.engineOf txn).renew (system.native txn) (system.thread txn)
        = (.ok (), engine)) :
      RenewOutcome system txn
        ⟨.ok (),
          [.call (system.transaction txn).env (.renew (system.native txn)) 0, .log .renewed],
          (system.setEngineOf txn engine).setState txn .active⟩

/-- Every renewal ends so. -/
theorem renew_outcome (system : System) (txn : TxnId) :
    RenewOutcome system txn (system.renew txn) := by
  unfold renew
  dsimp only
  split
  · exact .active ‹_›
  · rename_i hstate
    exact .finished (by rw [hstate]; rfl)
  · rename_i hstate
    exact .finished (by rw [hstate]; rfl)
  rename_i hstate
  rcases system.relay_cases (system.transaction txn).env (.renew (system.transaction txn).native)
    (·.renew (system.transaction txn).native (system.transaction txn).thread)
    (Engine.proper_renew ..)
    with ⟨code, engine, hrenew, hrelay⟩ | ⟨⟨⟩, engine, hrenew, hrelay⟩
  · rw [hrelay]
    exact .failed hstate hrenew
  · rw [hrelay]
    exact .renewed hstate hrenew

/-! ## Environments -/

/-- How the opening of an environment can end. What the engine has made is closed again if it
fails. -/
inductive OpenWithOutcome (system : System) (path : Bytes) (flags : EnvFlags) (config : Config)
    (kind : ViewKind) : Outcome EnvId → Prop where
  | failed {code : Code} {files : Files.Tree}
      (hopen : Engine.openAt system.files path flags config = (.error code, files)) :
      OpenWithOutcome system path flags config kind
        ⟨.error (.error (.ofCode code)),
          [.call system.environments.length (.openEnvironment path flags config) code,
            .call system.environments.length .closeEnvironment 0,
            .log (.openFailed path (.ofCode code))],
          { system with files := files }⟩
  | opened {engine : Engine} {files : Files.Tree}
      (hopen : Engine.openAt system.files path flags config = (.ok engine, files)) :
      OpenWithOutcome system path flags config kind
        ⟨.ok system.environments.length,
          [.call system.environments.length (.openEnvironment path flags config) 0,
            .log (.opened system.environments.length path flags kind)],
          { system with
            files := files
            environments := system.environments ++
              [{ path := path
                 flags := flags
                 maxReaders := config.maxReaders
                 kind := kind
                 engine := engine }] }⟩

/-- Every opening of an environment ends so. -/
theorem openWith_outcome (system : System) (path : Bytes) (flags : EnvFlags) (config : Config)
    (kind : ViewKind) :
    OpenWithOutcome system path flags config kind (system.openWith path flags config kind) := by
  unfold openWith
  rcases hopen : Engine.openAt system.files path flags config with ⟨code | engine, files⟩
  · dsimp only [codeOf]
    rw [Error.check_of_ne_zero (Engine.openAt_error hopen)]
    exact .failed hopen
  · exact .opened hopen

/-- How the closing of an environment can end. -/
inductive CloseOutcome (system : System) (env : EnvId) : Outcome Unit → Prop where
  | idle (hclosed : (system.environment env).closed = true) :
      CloseOutcome system env (system.done ())
  | busy (hopen : (system.environment env).closed = false)
      (hactive : 0 < (system.environment env).active) :
      CloseOutcome system env (system.fail (.txnsActive (system.environment env).active))
  | closed (hopen : (system.environment env).closed = false)
      (hactive : (system.environment env).active = 0) :
      CloseOutcome system env
        ⟨.ok (), [.call env .closeEnvironment 0, .log (.closed env)],
          { system.modifyEnvironment env ({ · with closed := true, retained := [] }) with
            files := (system.engine env).close system.files }⟩

/-- Every closing of an environment ends so. -/
theorem close_outcome (system : System) (env : EnvId) :
    CloseOutcome system env (system.close env) := by
  unfold close
  dsimp only
  split
  · exact .idle ‹_›
  rename_i hclosed
  have hopen := Bool.eq_false_iff.mpr hclosed
  split
  · exact .busy hopen ‹_›
  · rename_i hactive
    exact .closed hopen (Nat.eq_zero_of_not_pos hactive)

/-- How a flush can end. A read-only environment is not flushed as a courtesy. -/
inductive SyncOutcome (system : System) (env : EnvId) : Outcome Unit → Prop where
  | closed (hclosed : (system.environment env).closed = true) :
      SyncOutcome system env (system.fail .envClosed)
  | objected (hopen : (system.environment env).closed = false) (hchecks : system.checks = true)
      (hreadOnly : (system.environment env).isReadOnly = true) :
      SyncOutcome system env ((system.fail .envReadOnly).after [.consulted])
  | failed (hopen : (system.environment env).closed = false)
      (hallowed : system.checks = true → (system.environment env).isReadOnly = false)
      (hcode : (system.engine env).sync ≠ 0) :
      SyncOutcome system env
        ⟨.error (.error (.ofCode (system.engine env).sync)),
          [.consulted, .call env .sync (system.engine env).sync], system⟩
  | flushed (hopen : (system.environment env).closed = false)
      (hallowed : system.checks = true → (system.environment env).isReadOnly = false)
      (hcode : (system.engine env).sync = 0) :
      SyncOutcome system env ⟨.ok (), [.consulted, .call env .sync 0], system⟩

/-- Every flush ends so. -/
theorem sync_outcome (system : System) (env : EnvId) :
    SyncOutcome system env (system.sync env) := by
  rcases system.whileOpen_cases env _ with ⟨hclosed, hsync⟩ | ⟨hopen, hsync⟩
  · unfold sync
    rw [hsync]
    exact .closed hclosed
  unfold sync
  rw [hsync]
  split
  · rename_i hobjected
    obtain ⟨hchecks, hreadOnly⟩ := Bool.and_eq_true_iff.mp hobjected
    exact .objected hopen hchecks hreadOnly
  rename_i hallowed
  have hallowed : system.checks = true → (system.environment env).isReadOnly = false := by
    simpa using hallowed
  unfold relay
  rw [perform_eq, setEngine_engine]
  by_cases hcode : (system.engine env).sync = 0
  · rw [hcode]
    exact .flushed hopen hallowed hcode
  · rw [if_neg hcode]
    dsimp only [codeOf]
    rw [Error.check_of_ne_zero hcode]
    exact .failed hopen hallowed hcode

/-- How a copy can end. It waits for a root that can write if it needs the lock of the writer. -/
inductive CopyOutcome (system : System) (env : EnvId) (destination : Bytes) (flags : CopyFlags)
    (thread : Nat) : Outcome Unit → Prop where
  | closed (hclosed : (system.environment env).closed = true) :
      CopyOutcome system env destination flags thread (system.fail .envClosed)
  | unfit {error : Error} (hopen : (system.environment env).closed = false)
      (hfault : copyFault system.files destination = some error) :
      CopyOutcome system env destination flags thread (system.fail error)
  | unusable (hopen : (system.environment env).closed = false)
      (hfault : copyFault system.files destination = none)
      (husable : isUsablePath ((system.environment env).copyTarget destination) = false) :
      CopyOutcome system env destination flags thread
        (system.fail (.invalidPath ((system.environment env).copyTarget destination)))
  | waits (hopen : (system.environment env).closed = false)
      (hfault : copyFault system.files destination = none)
      (hdelays : (system.environment env).delaysCopy flags = true) :
      CopyOutcome system env destination flags thread ⟨.error .wait, [], system⟩
  | failed {code : Code} {engine : Engine} {files : Files.Tree}
      (hopen : (system.environment env).closed = false)
      (hfault : copyFault system.files destination = none)
      (hcopy : (system.engine env).copy system.files
        ((system.environment env).copyTarget destination) flags thread
          = (.error code, engine, files)) :
      CopyOutcome system env destination flags thread
        ⟨.error (.error (.ofCode code)),
          [.log (.copying env destination),
            .call env (.copy ((system.environment env).copyTarget destination) flags) code],
          { system.setEngine env engine with files := files }⟩
  | copied {engine : Engine} {files : Files.Tree}
      (hopen : (system.environment env).closed = false)
      (hfault : copyFault system.files destination = none)
      (hcopy : (system.engine env).copy system.files
        ((system.environment env).copyTarget destination) flags thread
          = (.ok (), engine, files)) :
      CopyOutcome system env destination flags thread
        ⟨.ok (),
          [.log (.copying env destination),
            .call env (.copy ((system.environment env).copyTarget destination) flags) 0,
            .log (.copied env destination)],
          { system.setEngine env engine with files := files }⟩

/-- Every copy ends so. -/
theorem copy_outcome (system : System) (env : EnvId) (destination : Bytes) (flags : CopyFlags)
    (thread : Nat) :
    CopyOutcome system env destination flags thread
      (system.copy env destination flags thread) := by
  rcases system.whileOpen_cases env _ with ⟨hclosed, hcopy⟩ | ⟨hopen, hcopy⟩
  · unfold copy
    rw [hcopy]
    exact .closed hclosed
  unfold copy
  rw [hcopy]
  split
  · exact .unfit hopen ‹_›
  rename_i hfault
  dsimp only
  split
  · rename_i husable
    exact .unusable hopen hfault (by simpa using husable)
  split
  · exact .waits hopen hfault ‹_›
  rcases hmade : (system.engine env).copy system.files
    ((system.environment env).copyTarget destination) flags thread
    with ⟨code | ⟨⟨⟩⟩, engine, files⟩
  all_goals
    have hmade' : (system.environment env).engine.copy system.files
      ((system.environment env).copyTarget destination) flags thread = _ := hmade
    rw [hmade']
  · dsimp only [codeOf]
    rw [Error.check_of_ne_zero (Engine.copy_error hmade)]
    exact .failed hopen hfault hmade
  · exact .copied hopen hfault hmade

end MappedStore.System
