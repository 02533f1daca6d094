import MappedStore.Proofs.Objections

/-!
# The switch for courtesy checks

The switch matters to an operation only where a courtesy check refuses it: with the checks off any
other operation has the same result and the same events, and leaves the same process
(`Outcome.Spared`). One law for each way to put operations together carries this from the gate to
every action (`System.spared_act`).
-/

namespace MappedStore

/-- A process as it would be with the courtesy checks on, or off. -/
def System.withChecks (system : System) (checks : Bool) : System := { system with checks := checks }

/-- An outcome that leaves the same process with the courtesy checks on, or off. -/
def Outcome.withChecks {α : Type} (outcome : Outcome α) (checks : Bool) : Outcome α :=
  { outcome with state := outcome.state.withChecks checks }

/-- An operation without the courtesy checks does what it does with them, unless it is refused by an
error of theirs. -/
def Outcome.Spared {α : Type} (flushing : Bool) (checked unchecked : Outcome α) : Prop :=
  (∃ error, Error.isCourtesy flushing error = true ∧ checked.result = .error (.error error)) ∨
    unchecked = checked.withChecks false

namespace System

variable {α β : Type} {system : System} {checks flushing : Bool}

/-! ## Operations that do not ask -/

@[simp]
theorem transaction_withChecks (system : System) (checks : Bool) (txn : TxnId) :
    (system.withChecks checks).transaction txn = system.transaction txn :=
  rfl

@[simp]
theorem environment_withChecks (system : System) (checks : Bool) (env : EnvId) :
    (system.withChecks checks).environment env = system.environment env :=
  rfl

/-- The transactions that one is nested in. -/
theorem lineage_withChecks (system : System) (checks : Bool) (txn : TxnId) :
    (system.withChecks checks).lineage txn = system.lineage txn := by
  have hparent (scope : TxnId) : ((system.withChecks checks).transaction scope).parent
      = (system.transaction scope).parent := rfl
  exact lineageFrom_congr hparent _ _

/-- The live generation of a slot. -/
theorem liveGeneration_withChecks (system : System) (checks : Bool) (txn : TxnId) (slot : Nat) :
    (system.withChecks checks).liveGeneration txn slot = system.liveGeneration txn slot := by
  unfold liveGeneration
  rw [lineage_withChecks]
  rfl

/-- What the courtesy checks object to. -/
theorem courtesyFault_withChecks (system : System) (checks : Bool) (txn : TxnId)
    (access : Access) : (system.withChecks checks).courtesyFault txn access
      = system.courtesyFault txn access := by
  unfold courtesyFault accepts
  rw [liveGeneration_withChecks]
  rfl

/-- What a courtesy check would object to in an action. -/
theorem objection_withChecks (system : System) (checks : Bool) (action : Action) :
    (system.withChecks checks).objection action = system.objection action := by
  cases haccess : action.access? with
  | some accessed =>
      rw [objection_of_access haccess, objection_of_access haccess, courtesyFault_withChecks]
      rfl
  | none => cases action <;> first | rfl | cases haccess

/-- A use of the engine does not ask for the switch. -/
theorem perform_withChecks (system : System) (checks : Bool) (env : EnvId)
    (call : Except Code α → Call) (run : Engine → Engine.Answer Engine α) :
    (system.withChecks checks).perform env call run =
      let (result, event, state) := system.perform env call run
      (result, event, state.withChecks checks) :=
  rfl

/-- A use of the engine whose result is passed on. -/
theorem relay_withChecks [Inhabited α] (system : System) (checks : Bool) (env : EnvId)
    (call : Call) (run : Engine → Engine.Answer Engine α) :
    (system.withChecks checks).relay env call run
      = (system.relay env call run).withChecks checks := by
  unfold relay
  rw [perform_withChecks]
  obtain ⟨result, event, state⟩ := system.perform env (fun _ ↦ call) run
  dsimp only
  cases Error.check (codeOf result) <;> rfl

/-- A search. -/
theorem seek_withChecks (system : System) (checks : Bool) (env : EnvId) (call : Call)
    (run : Engine → Engine.Answer Engine α) :
    (system.withChecks checks).seek env call run
      = (system.seek env call run).withChecks checks := by
  unfold seek
  rw [perform_withChecks]
  obtain ⟨result, event, state⟩ := system.perform env (fun _ ↦ call) run
  cases result with
  | ok value => rfl
  | error code =>
      by_cases hcode : code = Condition.notFound.code <;> simp [hcode, Outcome.withChecks]

/-- A begin. -/
theorem begin_withChecks (system : System) (checks : Bool) (env : EnvId) (parent : Option TxnId)
    (flags : TxnFlags) (thread : Nat) : (system.withChecks checks).begin env parent flags thread
      = (system.begin env parent flags thread).withChecks checks := by
  unfold begin
  rw [show (system.withChecks checks).beginFault env parent flags
    = system.beginFault env parent flags from rfl]
  cases system.beginFault env parent flags with
  | some error => rfl
  | none =>
      dsimp only
      -- The environment and the outer transaction are asked for in both processes; they have to be
      -- the same term before the answer of the engine can be split.
      simp only [transaction_withChecks, environment_withChecks,
        apply_ite (Outcome.withChecks · checks)]
      refine ite_congr rfl (fun _ ↦ rfl) fun _ ↦ ?_
      rw [perform_withChecks]
      obtain ⟨result, event, state⟩ := system.perform env _ _
      dsimp only
      cases Error.check (codeOf result) with
      | error error => rfl
      | ok passed =>
          cases result.toOption with
          | none => rfl
          | some native => cases parent <;> rfl

/-- The end of a transaction. -/
theorem finish_withChecks (system : System) (checks : Bool) (txn : TxnId) (state : TxnState) :
    (system.withChecks checks).finish txn state = (system.finish txn state).withChecks checks := by
  unfold finish
  dsimp only
  rw [transaction_withChecks]
  cases (system.transaction txn).parent <;> rfl

/-- A hand-over. -/
theorem handOver_withChecks (system : System) (checks : Bool) (txn : TxnId) :
    (system.withChecks checks).handOver txn = (system.handOver txn).withChecks checks := by
  unfold handOver
  dsimp only
  rw [transaction_withChecks]
  cases (system.transaction txn).parent <;> rfl

/-- A commit. -/
theorem commit_withChecks (system : System) (checks : Bool) (txn : TxnId) :
    (system.withChecks checks).commit txn = (system.commit txn).withChecks checks := by
  unfold commit
  dsimp only
  rw [transaction_withChecks]
  cases (system.transaction txn).lifecycleFault with
  | some error => rfl
  | none =>
      dsimp only
      rw [perform_withChecks]
      obtain ⟨result, event, state⟩ := system.perform _ _ _
      dsimp only
      cases Error.check (codeOf result) with
      | error error => exact congrArg (Outcome.mk _ _) (finish_withChecks ..)
      | ok passed =>
          dsimp only
          rw [handOver_withChecks, finish_withChecks]
          rfl

/-- The end of a transaction that is discarded. -/
theorem discard_withChecks (system : System) (checks : Bool) (txn : TxnId) :
    (system.withChecks checks).discard txn = (system.discard txn).withChecks checks :=
  congrArg (Outcome.mk _ _)
    (finish_withChecks (system.setEngine _ (system.engine _ |>.abort _)) checks txn .aborted)

/-- What follows an operation that does not ask for the switch. -/
theorem andThen_withChecks (outcome : Outcome α) (checks : Bool)
    {following following' : α → System → Outcome β}
    (h : ∀ value, following' value (outcome.state.withChecks checks)
      = (following value outcome.state).withChecks checks) :
    (outcome.withChecks checks).andThen following'
      = (outcome.andThen following).withChecks checks := by
  obtain ⟨result, events, state⟩ := outcome
  cases result with
  | error refusal => rfl
  | ok value =>
      have hnext := h value
      simp only [Outcome.andThen, Outcome.withChecks] at hnext ⊢
      rw [hnext]

/-- An abort. -/
theorem abort_withChecks (system : System) (checks : Bool) (txn : TxnId) :
    (system.withChecks checks).abort txn = (system.abort txn).withChecks checks := by
  unfold abort
  rw [transaction_withChecks,
    apply_ite (Outcome.withChecks · checks), discard_withChecks]
  exact ite_congr rfl (fun _ ↦ rfl) fun _ ↦ andThen_withChecks _ checks fun _ ↦ rfl

/-- A transaction that is dropped. -/
theorem dropTransaction_withChecks (system : System) (checks : Bool) (txn : TxnId) :
    (system.withChecks checks).dropTransaction txn
      = (system.dropTransaction txn).withChecks checks := by
  unfold dropTransaction
  dsimp only
  rw [transaction_withChecks,
    abort_withChecks, discard_withChecks]
  cases (system.transaction txn).state with
  | active => cases (system.transaction txn).readOnly <;> rfl
  | _ => rfl

/-- A reset. -/
theorem reset_withChecks (system : System) (checks : Bool) (txn : TxnId) :
    (system.withChecks checks).reset txn = (system.reset txn).withChecks checks := by
  unfold System.reset
  dsimp only
  rw [transaction_withChecks]
  cases (system.transaction txn).lifecycleFault with
  | some error => rfl
  | none => cases (system.transaction txn).readOnly <;> rfl

/-- A renewal. -/
theorem renew_withChecks (system : System) (checks : Bool) (txn : TxnId) :
    (system.withChecks checks).renew txn = (system.renew txn).withChecks checks := by
  unfold renew
  dsimp only
  rw [transaction_withChecks]
  cases (system.transaction txn).state with
  | reset =>
      dsimp only
      rw [relay_withChecks]
      exact andThen_withChecks _ checks fun _ ↦ rfl
  | _ => rfl

/-- The handle for a slot that the engine has opened. -/
theorem takeHandle_withChecks (system : System) (checks : Bool) (txn : TxnId) (slot : Nat)
    (name : Option String) (flags : DbFlags) :
    (system.withChecks checks).takeHandle txn slot name flags =
      ((system.takeHandle txn slot name flags).1,
        (system.takeHandle txn slot name flags).2.withChecks checks) := by
  unfold takeHandle
  dsimp only
  rw [liveGeneration_withChecks]
  cases system.liveGeneration txn slot <;> rfl

/-- An open of a database. -/
theorem openThrough_withChecks (system : System) (checks : Bool) (txn : TxnId)
    (name : Option String) (flags : DbFlags) :
    (system.withChecks checks).openThrough txn name flags
      = (system.openThrough txn name flags).withChecks checks := by
  unfold openThrough
  dsimp only
  rw [transaction_withChecks]
  split
  · rfl
  · rfl
  · rw [relay_withChecks]
    refine andThen_withChecks _ checks fun slot ↦ ?_
    rw [takeHandle_withChecks]
    rfl

/-- An operation on an environment that is open. -/
theorem whileOpen_withChecks {env : EnvId} {use use' : Environment → Outcome α}
    (h : use' (system.environment env) = (use (system.environment env)).withChecks checks) :
    (system.withChecks checks).whileOpen env use'
      = (system.whileOpen env use).withChecks checks := by
  unfold whileOpen
  rw [apply_ite (Outcome.withChecks · checks), ← h]
  rfl

/-- A copy. -/
theorem copy_withChecks (system : System) (checks : Bool) (env : EnvId) (destination : Bytes)
    (flags : CopyFlags) (thread : Nat) :
    (system.withChecks checks).copy env destination flags thread
      = (system.copy env destination flags thread).withChecks checks := by
  refine whileOpen_withChecks ?_
  rw [show (system.withChecks checks).files = system.files from rfl]
  cases copyFault system.files destination with
  | some error => rfl
  | none =>
      dsimp only
      rw [apply_ite (Outcome.withChecks · checks), apply_ite (Outcome.withChecks · checks)]
      refine ite_congr rfl (fun _ ↦ rfl) fun _ ↦ ite_congr rfl (fun _ ↦ rfl) fun _ ↦ ?_
      obtain ⟨result, engine, files⟩ := (system.environment env).engine.copy ..
      dsimp only
      cases Error.check (codeOf result) <;> rfl

/-- The opening of an environment. -/
theorem openWith_withChecks (system : System) (checks : Bool) (path : Bytes) (flags : EnvFlags)
    (config : Config) (kind : ViewKind) :
    (system.withChecks checks).openWith path flags config kind
      = (system.openWith path flags config kind).withChecks checks := by
  unfold openWith
  rw [show (system.withChecks checks).files = system.files from rfl]
  dsimp only
  obtain ⟨result, files⟩ := Engine.openAt system.files path flags config
  dsimp only
  cases Error.check (codeOf result) <;> rfl

/-- The closing of an environment. -/
theorem close_withChecks (system : System) (checks : Bool) (env : EnvId) :
    (system.withChecks checks).close env = (system.close env).withChecks checks := by
  unfold close
  dsimp only
  rw [apply_ite (Outcome.withChecks · checks), apply_ite (Outcome.withChecks · checks)]
  rfl

/-! ## Operations that are spared -/

variable {checked unchecked : Outcome α}

/-- An operation whose result is passed on in another form. -/
theorem spared_map (h : checked.Spared flushing unchecked) (change : α → β) :
    (checked.map change).Spared flushing (unchecked.map change) := by
  obtain ⟨error, herror, hresult⟩ | rfl := h
  · refine .inl ⟨error, herror, ?_⟩
    rw [Outcome.map, hresult]
    rfl
  · exact .inr rfl

/-- Two operations in turn. -/
theorem spared_andThen (h : checked.Spared flushing unchecked)
    {following following' : α → System → Outcome β}
    (hfollowing : ∀ value, checked.result = .ok value →
      (following value checked.state).Spared flushing
        (following' value (checked.state.withChecks false))) :
    (checked.andThen following).Spared flushing (unchecked.andThen following') := by
  obtain ⟨error, herror, hresult⟩ | rfl := h
  · exact .inl ⟨error, herror, (andThen_of_error following hresult).1⟩
  · obtain ⟨result, events, state⟩ := checked
    cases result with
    | error refusal => exact .inr rfl
    | ok value =>
        obtain ⟨error, herror, hresult⟩ | hnext := hfollowing value rfl
        · exact .inl ⟨error, herror, hresult⟩
        · refine .inr ?_
          simp only [Outcome.andThen, Outcome.withChecks] at hnext ⊢
          rw [hnext]

/-- A use of a database behind the gate. -/
theorem spared_withAccess {txn : TxnId} {access : Access} {use use' : Transaction → Outcome α}
    (h : use' (system.transaction txn) = (use (system.transaction txn)).withChecks false) :
    (system.withAccess txn access use).Spared flushing
      ((system.withChecks false).withAccess txn access use') := by
  unfold withAccess
  rw [show (system.withChecks false).guardFault txn access = system.guardFault txn access from rfl,
    transaction_withChecks]
  cases system.guardFault txn access with
  | some error => exact .inr rfl
  | none =>
      dsimp only
      cases hcourtesy : if system.checks then system.courtesyFault txn access else none with
      | some error =>
          have hfault : system.courtesyFault txn access = some error := by
            split at hcourtesy
            · exact hcourtesy
            · cases hcourtesy
          exact .inl ⟨error, isCourtesy_of_courtesyFault hfault, rfl⟩
      | none =>
          refine .inr ?_
          rw [h]
          rfl

variable {txn : TxnId} {database : Database}

/-- A read of a value. -/
theorem spared_get (key : Bytes) : (system.get txn database key).Spared flushing
    ((system.withChecks false).get txn database key) := by
  rw [get_eq_seek, get_eq_seek]
  exact spared_withAccess (seek_withChecks ..)

/-- A removal of values. -/
theorem spared_del (key : Bytes) (item : Option Bytes) :
    (system.del txn database key item).Spared flushing
      ((system.withChecks false).del txn database key item) := by
  rw [del_eq_seek, del_eq_seek]
  exact spared_withAccess (congrArg (Outcome.map _) (seek_withChecks ..))

/-- The figures of a database. -/
theorem spared_stat : (system.stat txn database).Spared flushing
    ((system.withChecks false).stat txn database) :=
  spared_withAccess (relay_withChecks ..)

/-- A write of a value. -/
theorem spared_put (key value : Bytes) (flags : WriteFlags) :
    (system.put txn database key value flags).Spared flushing
      ((system.withChecks false).put txn database key value flags) :=
  spared_withAccess (congrArg (Outcome.after _) (relay_withChecks ..))

/-- A reservation. -/
theorem spared_reserve (key : Bytes) (length : Nat) (flags : WriteFlags) :
    (system.reserve txn database key length flags).Spared flushing
      ((system.withChecks false).reserve txn database key length flags) :=
  spared_withAccess (congrArg (Outcome.map _) (relay_withChecks ..))

/-- The emptying of a database. -/
theorem spared_clear : (system.clear txn database).Spared flushing
    ((system.withChecks false).clear txn database) :=
  spared_withAccess (relay_withChecks ..)

/-- The deletion of a database. -/
theorem spared_drop : (system.dropDatabase txn database).Spared flushing
    ((system.withChecks false).dropDatabase txn database) := by
  refine spared_withAccess ?_
  rw [relay_withChecks]
  refine andThen_withChecks _ false fun _ ↦ ?_
  by_cases hmain : database.slot = Engine.mainSlot <;> simp [hmain, Outcome.withChecks] <;> rfl

/-- A flush, which is refused in a read-only environment as a courtesy. -/
theorem spared_sync (env : EnvId) :
    (system.sync env).Spared true ((system.withChecks false).sync env) := by
  unfold sync whileOpen
  rw [environment_withChecks]
  by_cases hclosed : (system.environment env).closed = true
  · rw [if_pos hclosed, if_pos hclosed]
    exact .inr rfl
  rw [if_neg hclosed, if_neg hclosed]
  dsimp only
  rw [relay_withChecks]
  by_cases hchecked : (system.checks && (system.environment env).isReadOnly) = true
  · rw [if_pos hchecked]
    exact .inl ⟨.envReadOnly, rfl, rfl⟩
  · rw [if_neg hchecked]
    exact .inr rfl

/-- An action. -/
theorem spared_act (system : System) (action : Action) :
    (system.act action).Spared action.isSync ((system.withChecks false).act action) := by
  cases action with
  | changeFiles | endThread => exact .inr rfl
  | openEnvironment => exact spared_map (.inr (openWith_withChecks ..)) _
  | close => exact spared_map (.inr (close_withChecks ..)) _
  | copy => exact spared_map (.inr (copy_withChecks ..)) _
  | statEnvironment | info | readerCheck =>
      exact spared_map (.inr (whileOpen_withChecks (relay_withChecks ..))) _
  | sync => exact spared_map (spared_sync _) _
  | begin => exact spared_map (.inr (begin_withChecks ..)) _
  | commit => exact spared_map (.inr (commit_withChecks ..)) _
  | abort => exact spared_map (.inr (abort_withChecks ..)) _
  | drop => exact spared_map (.inr (dropTransaction_withChecks ..)) _
  | reset => exact spared_map (.inr (reset_withChecks ..)) _
  | renew => exact spared_map (.inr (renew_withChecks ..)) _
  | openDatabase => exact spared_map (.inr (openThrough_withChecks ..)) _
  | get => exact spared_map (spared_get _) _
  | stat => exact spared_map spared_stat _
  | put => exact spared_map (spared_put ..) _
  | reserve => exact spared_map (spared_andThen (spared_reserve ..) fun _ _ ↦ .inr rfl) _
  | del => exact spared_map (spared_del ..) _
  | clear => exact spared_map spared_clear _
  | dropDatabase => exact spared_map spared_drop _

/-! ### Operations made of several -/

/-- The drop of an environment. -/
theorem dropEnvironment_withChecks (system : System) (checks : Bool) (env : EnvId) :
    (system.withChecks checks).dropEnvironment env
      = (system.dropEnvironment env).withChecks checks := by
  unfold dropEnvironment
  rw [close_withChecks]
  obtain ⟨result, events, state⟩ := system.close env
  rcases result with (error | _) | value <;> rfl

/-- The opening of an environment through a builder. -/
theorem openEnvironment_withChecks (system : System) (checks : Bool) (builder : Builder)
    (path : Bytes) (flags : EnvFlags) (mode : Option UInt32) (kind : ViewKind) :
    (system.withChecks checks).openEnvironment builder path flags mode kind =
      ((system.openEnvironment builder path flags mode kind).1,
        (system.openEnvironment builder path flags mode kind).2.withChecks checks) := by
  unfold openEnvironment
  obtain ⟨result, builder⟩ := builder.take path mode
  cases result with
  | error error => rfl
  | ok config => exact Prod.ext rfl (openWith_withChecks ..)

/-- The opening of a database in a transaction of its own. -/
theorem openDatabase_withChecks (system : System) (checks : Bool) (env : EnvId)
    (name : Option String) (flags : DbFlags) (thread : Nat) :
    (system.withChecks checks).openDatabase env name flags thread
      = (system.openDatabase env name flags thread).withChecks checks := by
  unfold openDatabase
  rw [environment_withChecks]
  extract_lets kind
  rw [begin_withChecks]
  refine andThen_withChecks _ checks fun txn ↦ ?_
  dsimp only
  rw [openThrough_withChecks]
  generalize ((system.begin env none _ thread).state.openThrough txn name flags) = opened
  obtain ⟨result, events, state⟩ := opened
  cases result with
  | error refusal =>
      dsimp only [Outcome.withChecks]
      rw [dropTransaction_withChecks]
      rfl
  | ok database =>
      dsimp only [Outcome.withChecks]
      rw [commit_withChecks]
      rfl

/-- A read on a thread that begins a transaction for it. -/
theorem spared_getOnThread (env : EnvId) (key : Bytes) (thread : Nat) :
    (system.getOnThread env database key thread).Spared flushing
      ((system.withChecks false).getOnThread env database key thread) := by
  unfold getOnThread
  rw [begin_withChecks]
  refine spared_andThen (.inr rfl) fun reader _ ↦ ?_
  generalize (system.begin env none TxnFlags.readOnly thread).state = begun
  have hspared : (begun.get reader database key).Spared flushing
    ((begun.withChecks false).get reader database key) := spared_get key
  obtain ⟨error, herror, hresult⟩ | hread := hspared
  · exact .inl ⟨error, herror, hresult⟩
  · refine .inr ?_
    dsimp only
    rw [hread]
    simp only [Outcome.withChecks, dropTransaction_withChecks]
    rfl

/-- An operation for each item in turn. -/
theorem spared_each {ι : Type} {operation : System → ι → Outcome α}
    (h : ∀ system item, (operation system item).Spared flushing
      (operation (system.withChecks false) item)) (system : System) (items : List ι) :
    (system.each operation items).Spared flushing
      ((system.withChecks false).each operation items) := by
  induction items generalizing system with
  | nil => exact .inr rfl
  | cons item rest ih =>
      exact spared_andThen (h system item) fun value _ ↦ spared_map (ih _) _

end System

end MappedStore
