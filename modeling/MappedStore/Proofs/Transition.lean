import MappedStore.Proofs.Engine.Turns
import MappedStore.Proofs.Outcomes

/-!
# What an action can do to a process

`System.Transition` lists the states that an action can lead to, and `System.act_transition` says
that the list is complete. Invariants of a process are proved by cases on it, so no other proof
needs to unfold an operation.
-/

namespace MappedStore

/-- The transaction that an action goes through, if it goes through one. -/
def Action.through? : Action → Option TxnId
  | .commit txn | .abort txn | .drop txn | .reset txn | .renew txn => some txn
  | .openDatabase txn _ _ | .get txn _ _ | .stat txn _ => some txn
  | .put txn _ _ _ _ | .reserve txn _ _ _ _ | .del txn _ _ _ => some txn
  | .clear txn _ | .dropDatabase txn _ => some txn
  | _ => none

/-- What an action lets the engine do through a transaction, if it lets it use one. -/
def Action.use? : Action → Option (TxnId × Engine.Use)
  | .openDatabase txn name flags => some (txn, .openDatabase (name.map Bytes.ofText) flags)
  | .get txn database key => some (txn, .get database.slot key)
  | .stat txn database => some (txn, .stat database.slot)
  | .put txn database key value flags =>
      some (txn, .put database.slot key (.bytes value) (flags.minus WriteFlags.reserve))
  | .reserve txn database key data flags =>
      some (txn, .reserve database.slot key data (flags.union WriteFlags.reserve))
  | .del txn database key item => some (txn, .del database.slot key item)
  | .clear txn database => some (txn, .drop database.slot false)
  | .dropDatabase txn database => some (txn, .drop database.slot true)
  | _ => none

namespace System

variable {α β : Type} {system : System}

/-! ## Transitions -/

/-- What an action can do to a process. -/
inductive Transition (system : System) : Action → System → Prop where
  | idle (action : Action) : Transition system action system
  | files (action : Action) (files : Files.Tree) (haction : action.through? = none) :
      Transition system action { system with files := files }
  | openedEnvironment {path : Bytes} {flags : EnvFlags} {config : Config} {kind : ViewKind}
      {engine : Engine} {files : Files.Tree}
      (hopen : Engine.openAt system.files path flags config = (.ok engine, files)) :
      Transition system (.openEnvironment path flags config kind)
        { system with
          files := files
          environments := system.environments ++
            [{ path := path
               flags := flags
               maxReaders := config.maxReaders
               kind := kind
               engine := engine }] }
  | closed {env : EnvId} (files : Files.Tree) (hactive : (system.environment env).active = 0) :
      Transition system (.close env)
        { system.modifyEnvironment env ({ · with closed := true, retained := [] }) with
          files := files }
  | aside {action : Action} {env : EnvId} {engine : Engine} (files : Files.Tree)
      (haction : action.through? = none) (h : Engine.Aside (system.engine env) engine) :
      Transition system action { system.setEngine env engine with files := files }
  | used {action : Action} {txn : TxnId} (use : Engine.Use) (haction : action.use? = some (txn, use))
      (hfault : (system.transaction txn).lifecycleFault = none) :
      Transition system action
        (system.setEngineOf txn ((system.engineOf txn).use (system.native txn) use))
  | reopened {txn : TxnId} {name : Option String} {flags : DbFlags} {slot generation : Nat}
      {engine : Engine} (hfault : (system.transaction txn).lifecycleFault = none)
      (hopen : (system.engineOf txn).openDatabase (system.native txn) (name.map Bytes.ofText) flags
        = (.ok slot, engine))
      (hlive : system.liveGeneration txn slot = some generation) :
      Transition system (.openDatabase txn name flags)
        ((system.setEngineOf txn engine).recordOpen txn slot generation)
  | opened {txn : TxnId} {name : Option String} {flags : DbFlags} {slot : Nat}
      {engine : Engine} (hfault : (system.transaction txn).lifecycleFault = none)
      (hopen : (system.engineOf txn).openDatabase (system.native txn) (name.map Bytes.ofText) flags
        = (.ok slot, engine))
      (hlive : system.liveGeneration txn slot = none) :
      Transition system (.openDatabase txn name flags)
        (((system.setEngineOf txn engine).advance (system.transaction txn).env).recordOpen txn slot
          (system.environment (system.transaction txn).env).nextGeneration)
  | dropped {txn : TxnId} {database : Database} {engine : Engine}
      (hfault : (system.transaction txn).lifecycleFault = none)
      (henv : database.env = (system.transaction txn).env)
      (hlive : system.checks = true → system.accepts txn database = true)
      (hslot : database.slot ≠ Engine.mainSlot)
      (hdrop : (system.engineOf txn).drop (system.native txn) database.slot true
        = (.ok (), engine)) :
      Transition system (.dropDatabase txn database)
        ((system.setEngineOf txn engine).recordDrop txn database.slot)
  | began {env : EnvId} {parent : Option TxnId} {flags : TxnFlags} {thread native : Nat}
      {engine : Engine} (hfault : system.beginFault env parent flags = none)
      (hwriter : flags.contains TxnFlags.readOnly = false → parent = none →
        (system.environment env).writerLocked = false)
      (hbegin : (system.engine env).begin (parent.map system.native) flags thread
        = (.ok native, engine)) :
      Transition system (.begin env parent flags thread)
        ((system.setEngine env engine).enter (entrant env parent flags native thread))
  | committed {txn : TxnId} {engine : Engine}
      (hfault : (system.transaction txn).lifecycleFault = none)
      (hcommit : (system.engineOf txn).commit (system.native txn) = (.ok (), engine)) :
      Transition system (.commit txn)
        (((system.setEngineOf txn engine).handOver txn).finish txn .committed)
  | commitFailed {txn : TxnId} {code : Code} {engine : Engine}
      (hfault : (system.transaction txn).lifecycleFault = none)
      (hcommit : (system.engineOf txn).commit (system.native txn) = (.error code, engine)) :
      Transition system (.commit txn) ((system.setEngineOf txn engine).finish txn .aborted)
  | discarded {action : Action} {txn : TxnId} (haction : action = .abort txn ∨ action = .drop txn)
      (hstate : (system.transaction txn).state.isFinished = false) :
      Transition system action
        ((system.setEngineOf txn ((system.engineOf txn).abort (system.native txn))).finish txn
          .aborted)
  | reset {txn : TxnId} (hfault : (system.transaction txn).lifecycleFault = none)
      (hreader : (system.transaction txn).readOnly = true) :
      Transition system (.reset txn)
        ((system.setEngineOf txn ((system.engineOf txn).reset (system.native txn))).setState txn
          .reset)
  | renewed {txn : TxnId} {thread : Nat} {engine : Engine}
      (hstate : (system.transaction txn).state = .reset)
      (hrenew : (system.engineOf txn).renew (system.native txn) thread = (.ok (), engine)) :
      Transition system (.renew txn) ((system.setEngineOf txn engine).setState txn .active)

/-! ## Every action is a transition -/

variable {txn : TxnId} {database : Database}

/-- An operation behind the gate whose use of the engine goes through the transaction. -/
theorem transition_withAccess {action : Action} {access : Access}
    {use : Transaction → Outcome α} (engineUse : Engine.Use)
    (haction : action.use? = some (txn, engineUse))
    (h : (use (system.transaction txn)).state =
      system.setEngineOf txn ((system.engineOf txn).use (system.native txn) engineUse)) :
    Transition system action (system.withAccess txn access use).state := by
  rcases system.withAccess_cases txn access use with ⟨error, -, hstate⟩ | ⟨hguard, -, -, hstate⟩
  · rw [hstate]
    exact .idle action
  · rw [hstate, h]
    exact .used engineUse haction (lifecycleFault_of_guardFault hguard).1

/-- A read of a value. -/
theorem transition_get (key : Bytes) :
    Transition system (.get txn database key) (system.get txn database key).state := by
  rw [get_eq_seek]
  refine transition_withAccess (.get database.slot key) rfl ?_
  rw [seek_state]
  rfl

/-- A removal of values. -/
theorem transition_del (key : Bytes) (item : Option Bytes) :
    Transition system (.del txn database key item) (system.del txn database key item).state := by
  rw [del_eq_seek]
  refine transition_withAccess (.del database.slot key item) rfl ?_
  dsimp only [Outcome.map]
  rw [seek_state]
  rfl

/-- A question for the figures of a database. -/
theorem transition_stat :
    Transition system (.stat txn database) (system.stat txn database).state := by
  refine transition_withAccess (.stat database.slot) rfl ?_
  rw [relay_state]
  rfl

/-- A write of a value. -/
theorem transition_put (key value : Bytes) (flags : WriteFlags) :
    Transition system (.put txn database key value flags)
      (system.put txn database key value flags).state := by
  refine transition_withAccess
    (.put database.slot key (.bytes value) (flags.minus WriteFlags.reserve)) rfl ?_
  dsimp only [Outcome.after]
  rw [relay_state]
  rfl

/-- A removal of all values. -/
theorem transition_clear :
    Transition system (.clear txn database) (system.clear txn database).state := by
  refine transition_withAccess (.drop database.slot false) rfl ?_
  rw [relay_state]
  rfl

/-- A reservation, with the filling of its buffer. -/
theorem transition_reserve (key data : Bytes) (flags : WriteFlags) :
    Transition system (.reserve txn database key data flags)
      (system.reserveFilled txn database key data flags).state := by
  unfold reserveFilled reserve
  rw [andThen_withAccess]
  refine transition_withAccess
    (.reserve database.slot key data (flags.union WriteFlags.reserve)) rfl ?_
  rw [map_andThen]
  rcases system.relay_cases (system.transaction txn).env
    (.put (system.transaction txn).native database.slot key (.reserved data.length)
      (flags.union WriteFlags.reserve))
    (·.put (system.transaction txn).native database.slot key (.reserved data.length)
      (flags.union WriteFlags.reserve)) (Engine.proper_put ..) with
    ⟨code, engine, hput, hrelay⟩ | ⟨⟨⟩, engine, hput, hrelay⟩
  all_goals
    have hput' : (system.engineOf txn).put (system.native txn) database.slot key
        (.reserved data.length) (flags.union WriteFlags.reserve) = _ := hput
    rw [hrelay]
    simp only [Engine.use, hput']
  · rfl
  · exact system.modifyEngine_setEngine (system.transaction txn).env engine
      fun engine ↦ engine.fill (system.native txn) database.slot key data

/-- An open that is refused changes the engine at most. -/
theorem openThrough_error {name : Option String} {flags : DbFlags} {refusal : Refusal}
    (h : (system.openThrough txn name flags).result = .error refusal) :
    (system.openThrough txn name flags).state = system ∨
      (system.transaction txn).lifecycleFault = none ∧ ∃ code engine,
        (system.engineOf txn).openDatabase (system.native txn) (name.map Bytes.ofText) flags
          = (.error code, engine) ∧
        (system.openThrough txn name flags).state = system.setEngineOf txn engine := by
  have houtcome := system.openThrough_outcome txn name flags
  generalize system.openThrough txn name flags = outcome at h houtcome ⊢
  cases houtcome with
  | unready | misnamed => exact .inl rfl
  | @failed code engine hfault hopen => exact .inr ⟨hfault, code, engine, hopen, rfl⟩
  | reopened | opened => cases h

/-- An open through a transaction. -/
theorem transition_open (name : Option String) (flags : DbFlags) :
    Transition system (.openDatabase txn name flags) (system.openThrough txn name flags).state := by
  have h := system.openThrough_outcome txn name flags
  generalize system.openThrough txn name flags = outcome at h ⊢
  cases h with
  | unready | misnamed => exact .idle _
  | @failed code engine hfault hopen =>
      have hused : engine = (system.engineOf txn).use (system.native txn)
        (.openDatabase (name.map Bytes.ofText) flags) := (congrArg Prod.snd hopen).symm
      rw [hused]
      exact .used _ rfl hfault
  | reopened hfault hopen hlive => exact .reopened hfault hopen hlive
  | opened hfault hopen hlive => exact .opened hfault hopen hlive

/-- A drop is refused, or only empties the main database, or removes a named one. -/
theorem dropDatabase_cases (system : System) (txn : TxnId) (database : Database) :
    ((∃ refusal, (system.dropDatabase txn database).result = .error refusal) ∨
        database.slot = Engine.mainSlot) ∧
        Transition system (.dropDatabase txn database) (system.dropDatabase txn database).state ∨
      ∃ engine, (system.transaction txn).lifecycleFault = none ∧
        database.env = (system.transaction txn).env ∧
        (system.checks = true → system.accepts txn database = true) ∧
        database.slot ≠ Engine.mainSlot ∧
        (system.engineOf txn).drop (system.native txn) database.slot true = (.ok (), engine) ∧
        (system.dropDatabase txn database).result = .ok () ∧
        (system.dropDatabase txn database).state =
          (system.setEngineOf txn engine).recordDrop txn database.slot := by
  have hused (hfault : (system.transaction txn).lifecycleFault = none) {answer : Except Code Unit}
      {engine : Engine}
      (hdrop : (system.engineOf txn).drop (system.native txn) database.slot true
        = (answer, engine)) :
      Transition system (.dropDatabase txn database) (system.setEngineOf txn engine) := by
    have hengine : engine = (system.engineOf txn).use (system.native txn)
      (.drop database.slot true) := (congrArg Prod.snd hdrop).symm
    rw [hengine]
    exact .used _ rfl hfault
  have h := system.dropDatabase_outcome txn database
  generalize system.dropDatabase txn database = outcome at h ⊢
  cases h with
  | guarded | objected => exact .inl ⟨.inl ⟨_, rfl⟩, .idle _⟩
  | failed hguard hdrop =>
      exact .inl ⟨.inl ⟨_, rfl⟩, hused (lifecycleFault_of_guardFault hguard).1 hdrop⟩
  | emptied hguard hdrop hslot =>
      exact .inl ⟨.inr hslot, hused (lifecycleFault_of_guardFault hguard).1 hdrop⟩
  | @dropped engine hguard hcourtesy hdrop hslot =>
      obtain ⟨hfault, henv⟩ := lifecycleFault_of_guardFault hguard
      exact .inr ⟨engine, hfault, henv, fun hchecks ↦ accepts_of_courtesyFault (hcourtesy hchecks),
        hslot, hdrop, rfl, rfl⟩

/-- A drop of a database. -/
theorem transition_drop :
    Transition system (.dropDatabase txn database) (system.dropDatabase txn database).state := by
  rcases system.dropDatabase_cases txn database with
    ⟨-, h⟩ | ⟨engine, hfault, henv, hlive, hslot, hdrop, -, hstate⟩
  · exact h
  · rw [hstate]
    exact .dropped hfault henv hlive hslot hdrop

/-- A begin enters a transaction, or is refused. -/
theorem begin_cases (system : System) (env : EnvId) (parent : Option TxnId) (flags : TxnFlags)
    (thread : Nat) :
    (∃ refusal, (system.begin env parent flags thread).result = .error refusal ∧
        (system.begin env parent flags thread).state = system) ∨
      ∃ native engine, system.beginFault env parent flags = none ∧
        (flags.contains TxnFlags.readOnly = false → parent = none →
          (system.environment env).writerLocked = false) ∧
        (system.engine env).begin (parent.map system.native) flags thread = (.ok native, engine) ∧
        (system.begin env parent flags thread).result = .ok system.transactions.length ∧
        (system.begin env parent flags thread).state =
          (system.setEngine env engine).enter (entrant env parent flags native thread) := by
  have h := system.begin_outcome env parent flags thread
  generalize system.begin env parent flags thread = outcome at h ⊢
  cases h with
  | refused | waits => exact .inl ⟨_, rfl, rfl⟩
  | @failed code engine hfault hbegin =>
      have hsame : engine = system.engine env := by
        rcases (system.engine env).begin_cases (parent.map system.native) flags thread with
          ⟨_, h⟩ | ⟨_, _, h, -⟩
        · exact congrArg Prod.snd (hbegin.symm.trans h)
        · simpa using congrArg Prod.fst (hbegin.symm.trans h)
      rw [hsame]
      exact .inl ⟨_, rfl, system.setEngine_engine env⟩
  | @begun native engine hfault hwriter hbegin =>
      exact .inr ⟨native, engine, hfault, hwriter, hbegin, rfl, rfl⟩

/-- A begin. -/
theorem transition_begin (env : EnvId) (parent : Option TxnId) (flags : TxnFlags) (thread : Nat) :
    Transition system (.begin env parent flags thread)
      (system.begin env parent flags thread).state := by
  rcases system.begin_cases env parent flags thread with
    ⟨refusal, -, hstate⟩ | ⟨native, engine, hfault, hwriter, hbegin, -, hstate⟩
  · rw [hstate]
    exact .idle _
  · rw [hstate]
    exact .began hfault hwriter hbegin

/-- A commit that succeeds is one that the engine carries out. -/
theorem commit_ok (h : (system.commit txn).result = .ok ()) :
    ∃ engine, (system.transaction txn).lifecycleFault = none ∧
      (system.engineOf txn).commit (system.native txn) = (.ok (), engine) ∧
      (system.commit txn).state =
        ((system.setEngineOf txn engine).handOver txn).finish txn .committed := by
  have houtcome := system.commit_outcome txn
  generalize system.commit txn = outcome at h houtcome ⊢
  cases houtcome with
  | unready | failed => cases h
  | @committed engine hfault hcommit => exact ⟨engine, hfault, hcommit, rfl⟩

/-- A commit. -/
theorem transition_commit : Transition system (.commit txn) (system.commit txn).state := by
  have houtcome := system.commit_outcome txn
  generalize system.commit txn = outcome at houtcome ⊢
  cases houtcome with
  | unready => exact .idle _
  | failed hfault hcommit => exact .commitFailed hfault hcommit
  | committed hfault hcommit => exact .committed hfault hcommit

/-- What becomes of a process when a transaction is discarded. -/
theorem discard_state (system : System) (txn : TxnId) : (system.discard txn).state =
    (system.setEngineOf txn ((system.engineOf txn).abort (system.native txn))).finish txn
      .aborted := rfl

/-- What the end of a transaction by an abort or a drop leaves. -/
theorem EndOutcome.state_eq {outcome : Outcome Unit} (h : EndOutcome system txn outcome) :
    outcome.state =
      if (system.transaction txn).state.isFinished then system
      else (system.setEngineOf txn ((system.engineOf txn).abort (system.native txn))).finish txn
        .aborted := by
  cases h with
  | idle hstate => exact (if_pos hstate).symm
  | discarded _ _ hstate => exact (if_neg (by simp [hstate])).symm

/-- What becomes of a process when a transaction is aborted. -/
theorem abort_state (system : System) (txn : TxnId) : (system.abort txn).state =
    if (system.transaction txn).state.isFinished then system
    else (system.setEngineOf txn ((system.engineOf txn).abort (system.native txn))).finish txn
      .aborted :=
  (system.abort_outcome txn).state_eq

/-- Dropping a transaction leaves the process as an abort does. -/
theorem dropTransaction_state (system : System) (txn : TxnId) :
    (system.dropTransaction txn).state = (system.abort txn).state :=
  (system.dropTransaction_outcome txn).state_eq.trans (system.abort_state txn).symm

/-- An abort of a transaction that has not ended. -/
theorem transition_abort {action : Action} (haction : action = .abort txn ∨ action = .drop txn) :
    Transition system action (system.abort txn).state := by
  rw [abort_state]
  split
  · exact .idle _
  · rename_i hstate
    exact .discarded haction (by simpa using hstate)

/-- A reset. -/
theorem transition_reset : Transition system (.reset txn) (system.reset txn).state := by
  have h := system.reset_outcome txn
  generalize system.reset txn = outcome at h ⊢
  cases h with
  | unready | writer => exact .idle _
  | reset hfault hreader => exact .reset hfault hreader

/-- A renewal that is refused changes nothing. -/
theorem renew_error {refusal : Refusal} (h : (system.renew txn).result = .error refusal) :
    (system.renew txn).state = system := by
  have houtcome := system.renew_outcome txn
  generalize system.renew txn = outcome at h houtcome ⊢
  cases houtcome with
  | active | finished => rfl
  | @failed code engine hstate hrenew =>
      have hsame : engine = system.engineOf txn := by
        rcases (system.engineOf txn).renew_cases (system.native txn) (system.thread txn) with
          ⟨_, h⟩ | ⟨_, h, -⟩
        · exact congrArg Prod.snd (hrenew.symm.trans h)
        · simpa using congrArg Prod.fst (hrenew.symm.trans h)
      rw [hsame]
      exact system.setEngine_engine _
  | renewed => cases h

/-- A renewal that succeeds wakes a transaction that was reset. -/
theorem renew_ok (h : (system.renew txn).result = .ok ()) :
    ∃ engine, (system.transaction txn).state = .reset ∧
      (system.engineOf txn).renew (system.native txn) (system.thread txn) = (.ok (), engine) ∧
      (system.renew txn).state = (system.setEngineOf txn engine).setState txn .active := by
  have houtcome := system.renew_outcome txn
  generalize system.renew txn = outcome at h houtcome ⊢
  cases houtcome with
  | active | finished | failed => cases h
  | @renewed engine hstate hrenew => exact ⟨engine, hstate, hrenew, rfl⟩

/-- A renewal. -/
theorem transition_renew : Transition system (.renew txn) (system.renew txn).state := by
  rcases hresult : (system.renew txn).result with refusal | ⟨⟨⟩⟩
  · rw [renew_error hresult]
    exact .idle _
  · obtain ⟨engine, hreset, hrenew, hstate⟩ := renew_ok hresult
    rw [hstate]
    exact .renewed hreset hrenew

/-! ### Environments -/

/-- An operation on an environment that leaves its engine as it was. -/
theorem transition_whileOpen {action : Action} {env : EnvId} {use : Environment → Outcome α}
    (h : Transition system action (use (system.environment env)).state) :
    Transition system action (system.whileOpen env use).state := by
  rcases system.whileOpen_cases env use with ⟨-, hrefused⟩ | ⟨-, hallowed⟩
  · rw [hrefused]
    exact .idle _
  · rw [hallowed]
    exact h

/-- A question to the engine, which changes nothing. -/
theorem transition_question [Inhabited α] (action : Action) (env : EnvId) (call : Call)
    (answer : Engine → Except Code α) :
    Transition system action
      (system.relay env call fun engine ↦ (answer engine, engine)).state := by
  rw [relay_state, setEngine_engine]
  exact .idle action

/-- A question to the engine of an environment that is open. -/
theorem transition_asked [Inhabited α] (action : Action) (env : EnvId) (call : Call)
    (answer : Engine → Except Code α) :
    Transition system action
      (system.whileOpen env fun _ ↦
        system.relay env call fun engine ↦ (answer engine, engine)).state :=
  transition_whileOpen (transition_question action env call answer)

/-- A flush. -/
theorem transition_sync (env : EnvId) :
    Transition system (.sync env) (system.sync env).state := by
  have h := system.sync_outcome env
  generalize system.sync env = outcome at h ⊢
  cases h <;> exact .idle _

/-- A copy. -/
theorem transition_copy (hroster : ∀ env, Engine.Roster (system.engine env)) (env : EnvId)
    (destination : Bytes) (flags : CopyFlags) (thread : Nat) :
    Transition system (.copy env destination flags thread)
      (system.copy env destination flags thread).state := by
  have haside := Engine.copy_aside (hroster env) system.files
    ((system.environment env).copyTarget destination) flags thread
  have h := system.copy_outcome env destination flags thread
  generalize system.copy env destination flags thread = outcome at h ⊢
  cases h with
  | closed | unfit | unusable | waits => exact .idle _
  | failed hopen hfault hcopy | copied hopen hfault hcopy =>
      rw [hcopy] at haside
      exact .aside _ rfl haside

/-- The end of a thread. -/
theorem transition_endThread (env : EnvId) (thread : Nat) :
    Transition system (.endThread env thread) (system.endThread env thread) := by
  have hchange : system.endThread env thread =
      system.setEngine env ((system.engine env).endThread thread) :=
    system.modifyEngine_eq env (·.endThread thread)
  rw [hchange]
  exact .aside system.files rfl (Engine.endThread_aside _ thread)

/-- Opening an environment. -/
theorem transition_openWith (path : Bytes) (flags : EnvFlags) (config : Config) (kind : ViewKind) :
    Transition system (.openEnvironment path flags config kind)
      (system.openWith path flags config kind).state := by
  have h := system.openWith_outcome path flags config kind
  generalize system.openWith path flags config kind = outcome at h ⊢
  cases h with
  | @failed code files => exact .files _ files rfl
  | opened hopen => exact .openedEnvironment hopen

/-- Closing an environment. -/
theorem transition_close (env : EnvId) :
    Transition system (.close env) (system.close env).state := by
  have h := system.close_outcome env
  generalize system.close env = outcome at h ⊢
  cases h with
  | idle | busy => exact .idle _
  | closed _ hactive => exact .closed _ hactive

/-- Every action is one of the transitions. -/
theorem act_transition (hroster : ∀ env, Engine.Roster (system.engine env)) (action : Action) :
    Transition system action (system.after action) := by
  cases action with
  | changeFiles files => exact .files _ files rfl
  | openEnvironment path flags config kind => exact transition_openWith path flags config kind
  | close env => exact transition_close env
  | copy env destination flags thread =>
      exact transition_copy hroster env destination flags thread
  | statEnvironment env =>
      exact transition_asked (.statEnvironment env) env .stat fun engine ↦ .ok engine.stat
  | info env => exact transition_asked (.info env) env .info fun engine ↦ .ok engine.info
  | sync env => exact transition_sync env
  | readerCheck env =>
      exact transition_asked (.readerCheck env) env .readerCheck fun _ ↦ (.ok 0 : Except Code Nat)
  | endThread env thread => exact transition_endThread env thread
  | begin env parent flags thread => exact transition_begin env parent flags thread
  | commit txn => exact transition_commit
  | abort txn => exact transition_abort (.inl rfl)
  | drop txn =>
      have hstate := system.dropTransaction_state txn
      exact (congrArg (Transition system _) hstate).mpr (transition_abort (.inr rfl))
  | reset txn => exact transition_reset
  | renew txn => exact transition_renew
  | openDatabase txn name flags => exact transition_open name flags
  | get txn database key => exact transition_get key
  | stat txn database => exact transition_stat
  | put txn database key value flags => exact transition_put key value flags
  | reserve txn database key data flags => exact transition_reserve key data flags
  | del txn database key item => exact transition_del key item
  | clear txn database => exact transition_clear
  | dropDatabase txn database => exact transition_drop

end System

end MappedStore
