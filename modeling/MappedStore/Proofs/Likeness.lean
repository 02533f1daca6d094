import MappedStore.Proofs.Engine.Likeness
import MappedStore.Proofs.Refusals

/-!
# Processes that differ in the residue of their engines only

Two processes are alike if they are the same but for the reader slots of their engines and the
tables left in memory. The same actions then have the same answers in both and leave them alike, as
long as they are plain: none is refused a reader slot, and none looks at a table that cannot be read
(`System.answers_of_bare`).
-/

namespace MappedStore

/-- An environment without the residue in its engine. -/
def Environment.bare (environment : Environment) : Environment :=
  { environment with engine := environment.engine.bare }

/-- The transaction and the slot whose table an action looks at without reading it, if it can do
so. -/
def Action.shows? : Action → Option (TxnId × Nat)
  | .stat txn database => some (txn, database.slot)
  | .put txn database _ _ _ | .reserve txn database _ _ _ => some (txn, database.slot)
  | _ => none

namespace System

/-- A process without the residue in its engines. -/
def bare (system : System) : System :=
  { system with environments := system.environments.map Environment.bare }

variable {system left right : System} {env : EnvId} {txn : TxnId} {α β : Type}

/-- The environments of a bare process. -/
theorem environment_bare (system : System) (env : EnvId) :
    system.bare.environment env = (system.environment env).bare := by
  unfold environment bare
  rw [List.getD_eq_getElem?_getD, List.getD_eq_getElem?_getD, List.getElem?_map]
  cases system.environments[env]? <;> rfl

/-- The engines of a bare process. -/
theorem engine_bare (system : System) (env : EnvId) :
    system.bare.engine env = (system.engine env).bare :=
  congrArg Environment.engine (environment_bare system env)

/-- A change of an environment, with what it is for a bare one. -/
theorem bare_modify {change change' : Environment → Environment}
    (h : ∀ environment, (change environment).bare = change' environment.bare) :
    (system.modifyEnvironment env change).bare = system.bare.modifyEnvironment env change' := by
  have hmodify : (system.environments.modify env change).map Environment.bare =
      (system.environments.map Environment.bare).modify env change' := by
    refine List.ext_getElem? fun index ↦ ?_
    rw [List.getElem?_map, List.getElem?_modify, List.getElem?_modify, List.getElem?_map]
    cases system.environments[index]? with
    | none => rfl
    | some environment =>
        by_cases hindex : env = index
        · simp [hindex, h]
        · simp [hindex]
  exact congrArg (fun environments ↦ { system with environments := environments }) hmodify

/-- A change of an environment that is no concern of its engine. -/
theorem bare_modifyEnvironment (system : System) (env : EnvId) {change : Environment → Environment}
    (h : ∀ environment, (change environment).bare = change environment.bare) :
    (system.modifyEnvironment env change).bare = system.bare.modifyEnvironment env change :=
  bare_modify h

/-- The process with another engine behind an environment. -/
theorem bare_setEngine (system : System) (env : EnvId) (engine : Engine) :
    (system.setEngine env engine).bare = system.bare.setEngine env engine.bare :=
  bare_modify fun _ ↦ rfl

/-- The transactions that one is nested in. -/
theorem lineage_bare (system : System) (txn : TxnId) :
    system.bare.lineage txn = system.lineage txn := by
  have hparent (txn : TxnId) :
      (system.bare.transaction txn).parent = (system.transaction txn).parent := rfl
  exact lineageFrom_congr hparent _ _

/-- The live generation of a slot. -/
theorem liveGeneration_bare (system : System) (txn : TxnId) (slot : Nat) :
    system.bare.liveGeneration txn slot = system.liveGeneration txn slot := by
  unfold liveGeneration
  rw [lineage_bare, environment_bare]
  rfl

/-- What the courtesy checks object to. -/
theorem courtesyFault_bare (system : System) (txn : TxnId) (access : Access) :
    system.bare.courtesyFault txn access = system.courtesyFault txn access := by
  unfold courtesyFault accepts
  rw [liveGeneration_bare]
  rfl

/-! ## Records -/

/-- The record of the end of a transaction. -/
theorem bare_finish (system : System) (txn : TxnId) (state : TxnState) :
    (system.finish txn state).bare = system.bare.finish txn state := by
  have hended : ((system.modifyTransaction txn
      ({ · with state := state, holdsWriter := false })).modifyEnvironment (system.transaction txn).env
        fun environment ↦
          { environment with
            active := environment.active - 1
            writerLocked := environment.writerLocked && !(system.transaction txn).holdsWriter }).bare =
      (system.bare.modifyTransaction txn
        ({ · with state := state, holdsWriter := false })).modifyEnvironment _ _ :=
    bare_modifyEnvironment _ _ fun _ ↦ rfl
  unfold finish
  dsimp only
  rw [show system.bare.transaction txn = system.transaction txn from rfl]
  cases (system.transaction txn).parent with
  | none => exact hended
  | some parent =>
      exact congrArg (fun system : System ↦ system.modifyTransaction parent fun outer ↦
        { outer with children := outer.children - 1 }) hended

/-- A hand-over. -/
theorem bare_handOver (system : System) (txn : TxnId) :
    (system.handOver txn).bare = system.bare.handOver txn := by
  have hmerged : ((system.modifyTransaction txn
      ({ · with opened := [], dropped := [] })).modifyEnvironment (system.transaction txn).env
        fun environment ↦
          { environment with
            retained := Opens.merge environment.retained (system.transaction txn).opened
              (system.transaction txn).dropped }).bare =
      (system.bare.modifyTransaction txn
        ({ · with opened := [], dropped := [] })).modifyEnvironment _ _ :=
    bare_modifyEnvironment _ _ fun _ ↦ rfl
  unfold handOver
  dsimp only
  rw [show system.bare.transaction txn = system.transaction txn from rfl]
  cases (system.transaction txn).parent with
  | none => exact hmerged
  | some parent => rfl

/-- An entry. -/
theorem bare_enter (system : System) (entering : Transaction) :
    (system.enter entering).bare = system.bare.enter entering := by
  have hcounted : (system.modifyEnvironment entering.env fun environment ↦
      { environment with
        active := environment.active + 1
        writerLocked := environment.writerLocked || entering.holdsWriter }).bare =
      system.bare.modifyEnvironment entering.env _ := bare_modifyEnvironment _ _ fun _ ↦ rfl
  have henvironments := congrArg System.environments hcounted
  unfold enter
  dsimp only
  cases entering.parent with
  | none =>
      exact congrArg (fun environments ↦
        { system with
          environments := environments
          transactions := system.transactions ++ [entering] }) henvironments
  | some parent =>
      exact congrArg (fun environments ↦
        { system with
          environments := environments
          transactions := system.transactions.modify parent
            (fun outer ↦ { outer with children := outer.children + 1 }) ++ [entering] })
        henvironments

/-- A new generation. -/
theorem bare_advance (system : System) (env : EnvId) :
    (system.advance env).bare = system.bare.advance env :=
  bare_modifyEnvironment _ _ fun _ ↦ rfl

/-- The handle for a slot that the engine has opened. -/
theorem takeHandle_bare (system : System) (txn : TxnId) (slot : Nat) (name : Option String)
    (flags : DbFlags) : system.bare.takeHandle txn slot name flags =
      (system.takeHandle txn slot name flags).map id bare := by
  rw [takeHandle_eq, takeHandle_eq, liveGeneration_bare]
  cases system.liveGeneration txn slot with
  | some generation => rfl
  | none =>
      refine Prod.ext ?_ (system.bare_advance _).symm
      dsimp only [Prod.map, id]
      rw [environment_bare]
      rfl

/-! ## Outcomes -/

/-- Two outcomes with the same result and the same events, that leave processes that are alike. -/
structure Agree (outcome outcome' : Outcome α) : Prop where
  result : outcome.result = outcome'.result
  events : outcome.events = outcome'.events
  state : outcome.state.bare = outcome'.state.bare

/-- The environments of processes that are alike. -/
theorem environment_alike (h : left.bare = right.bare) (env : EnvId) :
    (left.environment env).bare = (right.environment env).bare := by
  rw [← environment_bare, h, environment_bare]

/-- The same change of an environment that is no concern of its engine. -/
theorem modify_alike (h : left.bare = right.bare) {change : Environment → Environment}
    (hchange : ∀ environment, (change environment).bare = change environment.bare) :
    (left.modifyEnvironment env change).bare = (right.modifyEnvironment env change).bare := by
  rw [bare_modifyEnvironment left env hchange, bare_modifyEnvironment right env hchange, h]

/-- The engines of processes that are alike. -/
theorem engine_alike (h : left.bare = right.bare) (env : EnvId) :
    (left.engine env).bare = (right.engine env).bare :=
  congrArg Environment.engine (environment_alike h env)

/-- The transactions of processes that are alike. -/
theorem transaction_alike (h : left.bare = right.bare) (txn : TxnId) :
    left.transaction txn = right.transaction txn :=
  (congrArg (transaction · txn) h : left.bare.transaction txn = right.bare.transaction txn)

namespace Agree

variable {outcome outcome' : Outcome α}

/-- Nothing is done, or an error is raised. -/
theorem done (h : left.bare = right.bare) (value : α) : Agree (left.done value) (right.done value) :=
  ⟨rfl, rfl, h⟩

/-- An error is raised. -/
theorem fail (h : left.bare = right.bare) (error : Error) :
    Agree (left.fail error : Outcome α) (right.fail error) :=
  ⟨rfl, rfl, h⟩

/-- Outcomes after the same events. -/
theorem after (h : Agree outcome outcome') (events : List Event) :
    Agree (outcome.after events) (outcome'.after events) :=
  ⟨h.result, congrArg (events ++ ·) h.events, h.state⟩

/-- Outcomes whose results are changed in the same way. -/
theorem map (h : Agree outcome outcome') (change : α → β) :
    Agree (outcome.map change) (outcome'.map change) :=
  ⟨congrArg (Except.map change) h.result, h.events, h.state⟩

/-- Operations that follow. -/
theorem andThen (h : Agree outcome outcome') {following following' : α → System → Outcome β}
    (hfollowing : ∀ value, outcome.result = .ok value →
      Agree (following value outcome.state) (following' value outcome'.state)) :
    Agree (outcome.andThen following) (outcome'.andThen following') := by
  unfold Outcome.andThen
  rw [← h.result]
  cases hresult : outcome.result with
  | error refusal => exact ⟨rfl, h.events, h.state⟩
  | ok value =>
      have hnext := hfollowing value hresult
      refine ⟨hnext.result, ?_, hnext.state⟩
      dsimp only
      rw [h.events, hnext.events]

/-- Uses of engines that agree. -/
theorem perform (run : Engine → Engine.Answer Engine α) (h : left.bare = right.bare)
    (hrun : Engine.Agree (run (left.engine env)) (run (right.engine env)))
    (call : Except Code α → Call) :
    ∃ result event state state', left.perform env call run = (result, event, state) ∧
      right.perform env call run = (result, event, state') ∧ state.bare = state'.bare := by
  obtain ⟨hresult, hengine⟩ := hrun
  refine ⟨_, _, _, right.setEngine env (run (right.engine env)).2, perform_eq .., ?_, ?_⟩
  · rw [perform_eq, hresult]
  · rw [bare_setEngine, bare_setEngine, h, hengine]

/-- Uses of engines that agree are passed on alike. -/
theorem relay [Inhabited α] (run : Engine → Engine.Answer Engine α)
    (h : left.bare = right.bare)
    (hrun : Engine.Agree (run (left.engine env)) (run (right.engine env))) (call : Call) :
    Agree (left.relay env call run) (right.relay env call run) := by
  obtain ⟨result, event, state, state', hleft, hright, hstate⟩ := perform run h hrun fun _ ↦ call
  unfold System.relay
  rw [hleft, hright]
  dsimp only
  split <;> exact ⟨rfl, rfl, hstate⟩

/-- Searches in engines that agree. -/
theorem seek (run : Engine → Engine.Answer Engine α) (h : left.bare = right.bare)
    (hrun : Engine.Agree (run (left.engine env)) (run (right.engine env))) (call : Call) :
    Agree (left.seek env call run) (right.seek env call run) := by
  obtain ⟨result, event, state, state', hleft, hright, hstate⟩ := perform run h hrun fun _ ↦ call
  unfold System.seek
  rw [hleft, hright]
  cases result with
  | ok value => exact ⟨rfl, rfl, hstate⟩
  | error code =>
      dsimp only
      split <;> exact ⟨rfl, rfl, hstate⟩

/-- Uses of databases behind the gate. -/
theorem withAccess {use use' : Transaction → Outcome α} {access : Access}
    (h : left.bare = right.bare)
    (huse : Agree (use (left.transaction txn)) (use' (right.transaction txn))) :
    Agree (left.withAccess txn access use) (right.withAccess txn access use') := by
  have hguard : left.guardFault txn access = right.guardFault txn access := by
    unfold guardFault
    rw [transaction_alike h]
  have hcourtesy : left.courtesyFault txn access = right.courtesyFault txn access := by
    rw [← courtesyFault_bare, h, courtesyFault_bare]
  have hchecks : left.bare.checks = right.bare.checks := congrArg System.checks h
  unfold System.withAccess
  rw [hguard, hcourtesy, show left.checks = right.checks from hchecks]
  split
  · exact .fail h _
  · split
    · exact (Agree.fail h _).after _
    · exact huse.after _

end Agree

/-! ## Actions -/

/-- An action that does not touch upon the residue of an engine. It does not count the reader slots,
is not refused one, and if it looks at the table of a slot, that can be read. -/
structure Plain (system : System) (action : Action) : Prop where
  info : ∀ env, action ≠ .info env
  seated : ∀ condition, condition = Condition.badRslot ∨ condition = Condition.readersFull →
    (system.act action).result ≠ .error (.error (.ofCode condition.code))
  reads : ∀ txn slot, action.shows? = some (txn, slot) →
    (system.engineOf txn).Reads (system.native txn) slot

/-- A result that no reader slot was refused for comes from an engine that refused none. -/
theorem seated_of_result {result : Except Code α} {final : Except Refusal β}
    (h : ∀ condition, condition = Condition.badRslot ∨ condition = Condition.readersFull →
      final ≠ .error (.error (.ofCode condition.code)))
    (hresult : ∀ code, result = .error code → final = .error (.error (.ofCode code))) :
    Engine.Seated result :=
  ⟨fun hcode ↦ h .badRslot (.inl rfl) (hresult _ hcode),
    fun hcode ↦ h .readersFull (.inr rfl) (hresult _ hcode)⟩

variable {name : Option String} {flags : DbFlags} {database : Database}

/-- Reading a value. -/
theorem get_agree (h : left.bare = right.bare) (txn : TxnId) (database : Database) (key : Bytes) :
    Agree (left.get txn database key) (right.get txn database key) := by
  rw [get_eq_seek, get_eq_seek]
  refine .withAccess h ?_
  rw [← transaction_alike h txn]
  exact .seek _ h (Engine.agree_of_alike
    (fun engine ↦ engine.get (left.transaction txn).native database.slot key)
    (engine_alike h _) (Engine.get_bare ..) (Engine.get_bare ..)) _

/-- Removing values. -/
theorem del_agree (h : left.bare = right.bare) (txn : TxnId) (database : Database) (key : Bytes)
    (item : Option Bytes) :
    Agree (left.del txn database key item) (right.del txn database key item) := by
  rw [del_eq_seek, del_eq_seek]
  refine .withAccess h ?_
  rw [← transaction_alike h txn]
  refine Agree.map (.seek _ h (Engine.agree_of_alike
    (fun engine ↦ engine.del (left.transaction txn).native database.slot key item)
    (engine_alike h _) (Engine.del_bare ..) (Engine.del_bare ..)) _) _

/-- The figures of a database. -/
theorem stat_agree (h : left.bare = right.bare)
    (hleft : (left.engineOf txn).Reads (left.native txn) database.slot)
    (hright : (right.engineOf txn).Reads (right.native txn) database.slot) :
    Agree (left.stat txn database) (right.stat txn database) := by
  refine .withAccess h ?_
  unfold engineOf native at hleft hright
  rw [← transaction_alike h txn] at hright ⊢
  exact .relay _ h (Engine.agree_of_alike
    (fun engine ↦ engine.statOf (left.transaction txn).native database.slot)
    (engine_alike h _) (Engine.statOf_bare hleft) (Engine.statOf_bare hright)) _

/-- Storing a value. -/
theorem put_agree (h : left.bare = right.bare)
    (hleft : (left.engineOf txn).Reads (left.native txn) database.slot)
    (hright : (right.engineOf txn).Reads (right.native txn) database.slot) (key value : Bytes)
    (flags : WriteFlags) :
    Agree (left.put txn database key value flags) (right.put txn database key value flags) := by
  refine .withAccess h ?_
  unfold engineOf native at hleft hright
  rw [← transaction_alike h txn] at hright ⊢
  refine Agree.after (.relay _ h (Engine.agree_of_alike
    (fun engine ↦ engine.put (left.transaction txn).native database.slot key (.bytes value)
      (flags.minus WriteFlags.reserve))
    (engine_alike h _) (Engine.put_bare hleft ..) (Engine.put_bare hright ..)) _) _

/-- Filling a reserved buffer. -/
theorem fill_alike (h : left.bare = right.bare) (txn : TxnId) (database : Database)
    (key data : Bytes) :
    (left.fill txn database key data).bare = (right.fill txn database key data).bare := by
  unfold fill
  dsimp only
  rw [← transaction_alike h txn]
  generalize left.transaction txn = transaction
  have hfill := modifyEngine_eq left transaction.env
    (·.fill transaction.native database.slot key data)
  have hfill' := modifyEngine_eq right transaction.env
    (·.fill transaction.native database.slot key data)
  rw [hfill, hfill', bare_setEngine, bare_setEngine, h, ← Engine.fill_agree, engine_alike h,
    Engine.fill_agree]

/-- Reserving a buffer and filling it. -/
theorem reserveFilled_agree (h : left.bare = right.bare)
    (hleft : (left.engineOf txn).Reads (left.native txn) database.slot)
    (hright : (right.engineOf txn).Reads (right.native txn) database.slot) (key data : Bytes)
    (flags : WriteFlags) : Agree (left.reserveFilled txn database key data flags)
      (right.reserveFilled txn database key data flags) := by
  have hreserve : Agree (left.reserve txn database key data.length flags)
      (right.reserve txn database key data.length flags) := by
    refine .withAccess h ?_
    unfold engineOf native at hleft hright
    rw [← transaction_alike h txn] at hright ⊢
    refine Agree.map (.relay _ h (Engine.agree_of_alike
      (fun engine ↦ engine.put (left.transaction txn).native database.slot key
        (.reserved data.length) (flags.union WriteFlags.reserve))
      (engine_alike h _) (Engine.put_bare hleft ..) (Engine.put_bare hright ..)) _) _
  refine hreserve.andThen fun length _ ↦ .done ?_ length
  exact fill_alike hreserve.state txn database key data

/-- Emptying a database, or removing a named one, in the engine. -/
theorem drop_agree (h : left.bare = right.bare) (env : EnvId) (native slot : Nat) (delete : Bool)
    (call : Call) :
    Agree (left.relay env call (·.drop native slot delete))
      (right.relay env call (·.drop native slot delete)) :=
  .relay _ h ((Engine.drop_agree ..).of_bare (Engine.drop_agree ..) (by rw [engine_alike h])) call

/-- Emptying a database. -/
theorem clear_agree (h : left.bare = right.bare) (txn : TxnId) (database : Database) :
    Agree (left.clear txn database) (right.clear txn database) := by
  refine .withAccess h ?_
  rw [← transaction_alike h txn]
  exact drop_agree h ..

/-- Deleting a database. -/
theorem dropDatabase_agree (h : left.bare = right.bare) (txn : TxnId) (database : Database) :
    Agree (left.dropDatabase txn database) (right.dropDatabase txn database) := by
  refine .withAccess h ?_
  rw [← transaction_alike h txn]
  have hdrop := drop_agree h (left.transaction txn).env (left.transaction txn).native database.slot
    true (.drop (left.transaction txn).native database.slot true)
  refine hdrop.andThen fun _ _ ↦ ?_
  split
  · exact .done hdrop.state ()
  · exact ⟨rfl, rfl, congrArg (recordDrop · txn database.slot) hdrop.state⟩

/-- Opening a database. -/
theorem openThrough_agree (h : left.bare = right.bare) (txn : TxnId) (name : Option String)
    (flags : DbFlags) :
    Agree (left.openThrough txn name flags) (right.openThrough txn name flags) := by
  unfold openThrough
  dsimp only
  rw [← transaction_alike h txn]
  split
  · exact .fail h _
  · exact .fail h _
  have hopen := Engine.agree_of_alike
    (fun engine ↦ engine.openDatabase (left.transaction txn).native (name.map Bytes.ofText) flags)
    (engine_alike h (left.transaction txn).env) (Engine.openDatabase_bare ..)
    (Engine.openDatabase_bare ..)
  have hrelay := Agree.relay
    (·.openDatabase (left.transaction txn).native (name.map Bytes.ofText) flags) h hopen
    (.openDatabase (left.transaction txn).native (name.map Bytes.ofText) flags)
  refine hrelay.andThen fun slot _ ↦ ?_
  have hstate := hrelay.state
  generalize (left.relay _ _ (·.openDatabase ..)).state = opened at hstate ⊢
  generalize (right.relay _ _ (·.openDatabase ..)).state = opened' at hstate ⊢
  have htake := (takeHandle_bare opened txn slot name flags).symm.trans
    (.trans (by rw [hstate]) (takeHandle_bare opened' txn slot name flags))
  generalize opened.takeHandle txn slot name flags = taken at htake ⊢
  generalize opened'.takeHandle txn slot name flags = taken' at htake ⊢
  obtain ⟨database, taken⟩ := taken
  obtain ⟨database', taken'⟩ := taken'
  obtain ⟨rfl, htaken⟩ := Prod.mk.inj htake
  exact ⟨rfl, rfl, congrArg (recordOpen · txn slot database.generation) htaken⟩

/-- A begin that the engine refuses. -/
theorem begin_of_code {parent : Option TxnId} {flags : TxnFlags} {thread : Nat} {code : Code}
    (hfault : system.beginFault env parent flags = none)
    (hwait : ¬(!flags.contains TxnFlags.readOnly && parent.isNone &&
      (system.environment env).writerLocked) = true)
    (hcode : ((system.engine env).begin (parent.map system.native) flags thread).1 = .error code) :
    (system.begin env parent flags thread).result = .error (.error (.ofCode code)) := by
  unfold begin
  rw [hfault]
  dsimp only
  rw [if_neg hwait, perform_eq]
  have hbegin : ((system.engine env).begin
    (parent.map fun parent ↦ (system.transaction parent).native) flags thread).1 = _ := hcode
  rw [hbegin]
  dsimp only [codeOf]
  rw [Error.check_of_ne_zero ((Engine.proper_begin ..).ne_zero hcode)]

/-- Why a transaction cannot begin. -/
theorem beginFault_bare (system : System) (env : EnvId) (parent : Option TxnId) (flags : TxnFlags) :
    system.bare.beginFault env parent flags = system.beginFault env parent flags := by
  unfold beginFault
  dsimp only
  rw [environment_bare]
  rfl

/-- The engine has a reader slot for a plain begin, if it comes to the engine. -/
theorem seated_of_begin {parent : Option TxnId} {flags : TxnFlags} {thread : Nat}
    (hplain : system.Plain (.begin env parent flags thread))
    (hfault : system.beginFault env parent flags = none)
    (hwait : ¬(!flags.contains TxnFlags.readOnly && parent.isNone &&
      (system.environment env).writerLocked) = true) :
    Engine.Seated ((system.engine env).begin (parent.map system.native) flags thread).1 := by
  refine seated_of_result hplain.seated fun code hcode ↦ ?_
  have hbegin := begin_of_code hfault hwait hcode
  exact congrArg (Except.map Response.transaction) hbegin

/-- Beginning a transaction. -/
theorem begin_agree (h : left.bare = right.bare) {parent : Option TxnId} {flags : TxnFlags}
    {thread : Nat} (hleft : left.Plain (.begin env parent flags thread))
    (hright : right.Plain (.begin env parent flags thread)) :
    Agree (left.begin env parent flags thread) (right.begin env parent flags thread) := by
  have hfault : left.beginFault env parent flags = right.beginFault env parent flags := by
    rw [← beginFault_bare, h, beginFault_bare]
  have hlocked : (left.environment env).bare.writerLocked =
      (right.environment env).bare.writerLocked := by rw [environment_alike h]
  replace hlocked : (left.environment env).writerLocked = (right.environment env).writerLocked :=
    hlocked
  have houter : (parent.map fun parent ↦ (left.transaction parent).native) =
      parent.map fun parent ↦ (right.transaction parent).native := by
    congr 1
    funext parent
    rw [transaction_alike h]
  cases hnone : left.beginFault env parent flags with
  | some error =>
      unfold begin
      rw [← hfault, hnone]
      exact .fail h error
  | none =>
      by_cases hwait : (!flags.contains TxnFlags.readOnly && parent.isNone &&
        (left.environment env).writerLocked) = true
      · unfold begin
        dsimp only
        rw [← hfault, hnone, ← hlocked]
        dsimp only
        rw [if_pos hwait, if_pos hwait]
        exact ⟨rfl, rfl, h⟩
      have hbegin := Engine.begin_agree (engine_alike h env) (seated_of_begin hleft hnone hwait)
        (houter ▸ seated_of_begin hright (hfault ▸ hnone) (hlocked ▸ hwait))
      obtain ⟨result, event, state, state', hperform, hperform', hstate⟩ := Agree.perform
        (·.begin (parent.map fun parent ↦ (left.transaction parent).native) flags thread) h hbegin
        fun result ↦ .begin result.toOption
          (parent.map fun parent ↦ (left.transaction parent).native) flags
      unfold begin
      dsimp only
      rw [← hfault, hnone, ← hlocked, ← houter]
      dsimp only
      rw [if_neg hwait, if_neg hwait, hperform, hperform']
      have hlength : state.bare.transactions.length = state'.bare.transactions.length := by
        rw [hstate]
      dsimp only
      split
      · exact ⟨rfl, rfl, hstate⟩
      · exact ⟨rfl, rfl, hstate⟩
      · refine ⟨congrArg Except.ok hlength, rfl, ?_⟩
        dsimp only
        rw [bare_enter, bare_enter, hstate]

/-- Committing a transaction. -/
theorem commit_agree (h : left.bare = right.bare) (txn : TxnId) :
    Agree (left.commit txn) (right.commit txn) := by
  unfold commit
  dsimp only
  rw [← transaction_alike h txn]
  split
  · exact .fail h _
  have hcommit : Engine.Agree _ _ :=
    ((left.engine (left.transaction txn).env).commit_agree (left.transaction txn).native).of_bare
      ((right.engine (left.transaction txn).env).commit_agree (left.transaction txn).native)
      (by rw [engine_alike h])
  obtain ⟨result, event, state, state', hleft, hright, hstate⟩ := Agree.perform
    (·.commit (left.transaction txn).native) h hcommit
    fun _ ↦ .commit (left.transaction txn).native
  rw [hleft, hright]
  dsimp only
  split
  · refine ⟨rfl, rfl, ?_⟩
    dsimp only
    rw [bare_finish, bare_finish, bare_handOver, bare_handOver, hstate]
  · refine ⟨rfl, rfl, ?_⟩
    dsimp only
    rw [bare_finish, bare_finish, hstate]

/-- Ending a transaction without a commit. -/
theorem discard_agree (h : left.bare = right.bare) (txn : TxnId) :
    Agree (left.discard txn) (right.discard txn) := by
  refine ⟨rfl, ?_, ?_⟩
  · unfold discard
    rw [← transaction_alike h txn]
    rfl
  · rw [discard_state, discard_state, bare_finish, bare_finish]
    unfold setEngineOf engineOf native
    rw [← transaction_alike h txn, bare_setEngine, bare_setEngine, h,
      Engine.abort_agree (engine_alike h _)]

/-- Aborting a transaction. -/
theorem abort_agree (h : left.bare = right.bare) (txn : TxnId) :
    Agree (left.abort txn) (right.abort txn) := by
  unfold abort
  rw [← transaction_alike h txn]
  split
  · exact .done h ()
  · exact (discard_agree h txn).andThen fun _ _ ↦ ⟨rfl, rfl, (discard_agree h txn).state⟩

/-- Dropping a transaction. -/
theorem dropTransaction_agree (h : left.bare = right.bare) (txn : TxnId) :
    Agree (left.dropTransaction txn) (right.dropTransaction txn) := by
  unfold dropTransaction
  dsimp only
  rw [← transaction_alike h txn]
  split
  · exact .done h ()
  · exact .done h ()
  · split
    · exact discard_agree h txn
    · exact (abort_agree h txn).after _
  · exact discard_agree h txn

/-- Resetting a transaction. -/
theorem reset_agree (h : left.bare = right.bare) (txn : TxnId) :
    Agree (left.reset txn) (right.reset txn) := by
  unfold reset
  dsimp only
  rw [← transaction_alike h txn]
  generalize left.transaction txn = transaction
  split
  · exact .fail h _
  split
  · exact .fail h _
  refine ⟨rfl, rfl, ?_⟩
  have hreset : ((left.setEngine transaction.env
      ((left.engine transaction.env).reset transaction.native)).bare) =
      (right.setEngine transaction.env
        ((right.engine transaction.env).reset transaction.native)).bare := by
    rw [bare_setEngine, bare_setEngine, h, ← Engine.reset_bare, engine_alike h, Engine.reset_bare]
  exact congrArg (modifyTransaction · txn fun idle ↦ { idle with state := .reset }) hreset

/-- Renewing a transaction. -/
theorem renew_agree (h : left.bare = right.bare) (hleft : left.Plain (.renew txn))
    (hright : right.Plain (.renew txn)) : Agree (left.renew txn) (right.renew txn) := by
  have hseated {system : System} (hplain : system.Plain (.renew txn))
      (hstate : (system.transaction txn).state = .reset) :
      Engine.Seated ((system.engine (system.transaction txn).env).renew
        (system.transaction txn).native (system.transaction txn).thread).1 := by
    refine seated_of_result hplain.seated fun code hcode ↦ ?_
    have hrenew : (system.renew txn).result = .error (.error (.ofCode code)) := by
      unfold renew
      dsimp only
      rw [hstate]
      rcases system.relay_cases (system.transaction txn).env
        (.renew (system.transaction txn).native)
        (·.renew (system.transaction txn).native (system.transaction txn).thread)
        (Engine.proper_renew ..) with
        ⟨code', _, hrun, hrelay⟩ | ⟨_, _, hrun, -⟩
      · dsimp only
        rw [hrelay]
        rw [hrun] at hcode
        obtain rfl : code' = code := Except.error.inj hcode
        rfl
      · rw [hrun] at hcode
        cases hcode
    exact congrArg (Except.map fun _ ↦ Response.done) hrenew
  unfold renew
  dsimp only
  rw [← transaction_alike h txn]
  cases hstate : (left.transaction txn).state with
  | active => exact .fail h _
  | committed | aborted => exact .fail h _
  | reset =>
      have hright' := hseated hright (transaction_alike h txn ▸ hstate)
      rw [← transaction_alike h txn] at hright'
      have hrenew := (Engine.renew_agree (hseated hleft hstate)).of_bare
        (Engine.renew_agree hright') (by rw [engine_alike h])
      refine (Agree.relay (·.renew _ (left.transaction txn).thread) h hrenew _).andThen fun _ _ ↦ ?_
      have hrelay := Agree.relay (·.renew _ (left.transaction txn).thread) h hrenew
        (.renew (left.transaction txn).native)
      exact ⟨rfl, rfl, congrArg
        (modifyTransaction · txn fun awake ↦ { awake with state := .active }) hrelay.state⟩

/-- The end of a thread. -/
theorem endThread_bare (system : System) (env : EnvId) (thread : Nat) :
    (system.endThread env thread).bare = system.bare := by
  have hengine : system.bare.engine env = ((system.engine env).endThread thread).bare :=
    engine_bare system env
  unfold endThread
  rw [modifyEngine_eq system env (·.endThread thread), bare_setEngine, ← hengine, setEngine_engine]

/-- What is done with an environment that is open. -/
theorem Agree.whileOpen (h : left.bare = right.bare) {use use' : Environment → Outcome α}
    (huse : (left.environment env).closed = false →
      Agree (use (left.environment env)) (use' (right.environment env))) :
    Agree (left.whileOpen env use) (right.whileOpen env use') := by
  have hclosed : (left.environment env).bare.closed = (right.environment env).bare.closed := by
    rw [environment_alike h]
  unfold System.whileOpen
  rw [show (right.environment env).closed = (left.environment env).closed from hclosed.symm]
  split
  · exact .fail h _
  · rename_i hopen
    exact huse (by simpa using hopen)

/-- The figures of the committed main database. -/
theorem environmentStat_agree (h : left.bare = right.bare) (env : EnvId) :
    Agree (left.environmentStat env) (right.environmentStat env) := by
  have hstat : (left.engine env).bare.stat = (right.engine env).bare.stat := by rw [engine_alike h]
  exact .whileOpen h fun _ ↦ .relay _ h ⟨congrArg Except.ok hstat, engine_alike h env⟩ .stat

/-- Flushing an environment to disk. -/
theorem sync_agree (h : left.bare = right.bare) (env : EnvId) :
    Agree (left.sync env) (right.sync env) := by
  have hchecks : left.bare.checks = right.bare.checks := congrArg System.checks h
  have hreadOnly : (left.environment env).bare.isReadOnly =
      (right.environment env).bare.isReadOnly := by rw [environment_alike h]
  refine .whileOpen h fun _ ↦ ?_
  rw [show right.checks = left.checks from hchecks.symm,
    show (right.environment env).isReadOnly = (left.environment env).isReadOnly from hreadOnly.symm]
  split
  · exact (Agree.fail h _).after _
  · have hsync : (left.engine env).bare.sync = (right.engine env).bare.sync := by
      rw [engine_alike h]
    refine (Agree.relay _ h ⟨?_, engine_alike h env⟩ .sync).after _
    exact congrArg (fun code ↦ if code = 0 then Except.ok () else Except.error code) hsync

/-- Closing an environment. -/
theorem close_agree (h : left.bare = right.bare) (env : EnvId) :
    Agree (left.close env) (right.close env) := by
  have hsame := environment_alike h env
  have hclosed : (left.environment env).bare.closed = (right.environment env).bare.closed := by
    rw [hsame]
  have hactive : (left.environment env).bare.active = (right.environment env).bare.active := by
    rw [hsame]
  unfold close
  dsimp only
  rw [show (right.environment env).closed = (left.environment env).closed from hclosed.symm,
    show (right.environment env).active = (left.environment env).active from hactive.symm]
  split
  · exact .done h ()
  split
  · exact .fail h _
  refine ⟨rfl, rfl, ?_⟩
  have hended : (left.modifyEnvironment env
      fun ended ↦ { ended with closed := true, retained := [] }).bare =
      (right.modifyEnvironment env fun ended ↦ { ended with closed := true, retained := [] }).bare :=
    modify_alike h fun _ ↦ rfl
  have hfiles : (left.environment env).bare.engine.close left.bare.files =
      (right.environment env).bare.engine.close right.bare.files := by rw [hsame, h]
  exact congrArg₂ (fun (ended : System) files ↦ { ended with files := files }) hended hfiles

/-- Opening an environment. -/
theorem openWith_agree (h : left.bare = right.bare) (path : Bytes) (flags : EnvFlags)
    (config : Config) (kind : ViewKind) :
    Agree (left.openWith path flags config kind) (right.openWith path flags config kind) := by
  have hfiles : left.bare.files = right.bare.files := congrArg System.files h
  have hlength : left.environments.length = right.environments.length := by
    have hbare : left.bare.environments.length = right.bare.environments.length := by rw [h]
    rwa [bare, List.length_map, bare, List.length_map] at hbare
  unfold openWith
  dsimp only
  rw [← hlength, show right.files = left.files from hfiles.symm]
  have hopened (opened : Environment) (files : Files.Tree) (system : System) :
      ({ system with files := files, environments := system.environments ++ [opened] }).bare =
        { system.bare with
          files := files
          environments := system.bare.environments ++ [opened.bare] } := by
    unfold bare
    rw [List.map_append, List.map_singleton]
  generalize Engine.openAt left.files path flags config = answer
  split
  · exact ⟨rfl, rfl, congrArg (fun system : System ↦ { system with files := answer.2 }) h⟩
  · refine ⟨rfl, rfl, ?_⟩
    dsimp only
    rw [hopened, hopened, h]

/-- The engine has a reader slot for a plain copy, if it comes to the engine. -/
theorem seated_of_copy {destination : Bytes} {flags : CopyFlags} {thread : Nat}
    (hplain : system.Plain (.copy env destination flags thread))
    (hopen : (system.environment env).closed = false)
    (hunlocked : (system.environment env).delaysCopy flags = false)
    (hfault : copyFault system.files destination = none)
    (husable : isUsablePath ((system.environment env).copyTarget destination) = true) :
    Engine.Seated ((system.environment env).engine.copy system.files
      ((system.environment env).copyTarget destination) flags thread).1 := by
  refine seated_of_result hplain.seated fun code hcode ↦ ?_
  have hcopy : (system.copy env destination flags thread).result = .error (.error (.ofCode code)) := by
    unfold copy System.whileOpen
    dsimp only
    rw [hopen, hfault]
    simp only [husable, hunlocked, hcode, codeOf, Bool.false_eq_true, if_false, Bool.not_true,
      Error.check_of_ne_zero (Engine.copy_error (Prod.ext hcode rfl))]
  exact congrArg (Except.map fun _ ↦ Response.done) hcopy

/-- Copying an environment. -/
theorem copy_agree (h : left.bare = right.bare) {destination : Bytes} {flags : CopyFlags}
    {thread : Nat} (hleft : left.Plain (.copy env destination flags thread))
    (hright : right.Plain (.copy env destination flags thread)) :
    Agree (left.copy env destination flags thread) (right.copy env destination flags thread) := by
  have hsame := environment_alike h env
  have hlocked : (left.environment env).bare.delaysCopy flags =
      (right.environment env).bare.delaysCopy flags := by rw [hsame]
  have htarget : (left.environment env).bare.copyTarget destination =
      (right.environment env).bare.copyTarget destination := by rw [hsame]
  have hfiles : left.bare.files = right.bare.files := congrArg System.files h
  refine .whileOpen h fun hopen ↦ ?_
  have hclosed : (left.environment env).bare.closed = (right.environment env).bare.closed := by
    rw [hsame]
  rw [show (right.environment env).delaysCopy flags = (left.environment env).delaysCopy flags from
      hlocked.symm, show right.files = left.files from hfiles.symm]
  cases hfault : copyFault left.files destination with
  | some error => exact .fail h error
  | none =>
      dsimp only
      rw [show (right.environment env).copyTarget destination =
        (left.environment env).copyTarget destination from htarget.symm]
      cases husable : isUsablePath ((left.environment env).copyTarget destination) with
      | false => exact .fail h _
      | true =>
          cases hunlocked : (left.environment env).delaysCopy flags with
          | true => exact ⟨rfl, rfl, h⟩
          | false =>
              have hright' := seated_of_copy hright (hclosed.symm.trans hopen)
                (hlocked.symm.trans hunlocked) ((congrArg (copyFault · _) hfiles.symm).trans hfault)
                ((congrArg isUsablePath htarget.symm).trans husable)
              rw [show right.files = left.files from hfiles.symm,
                show (right.environment env).copyTarget destination =
                  (left.environment env).copyTarget destination from htarget.symm] at hright'
              have hcopied := Engine.copy_agree (engine_alike h env)
                (seated_of_copy hleft hopen hunlocked hfault husable) hright'
              clear hright'
              unfold engine at hcopied
              generalize (left.environment env).engine.copy .. = copied at hcopied ⊢
              generalize (right.environment env).engine.copy .. = copied' at hcopied ⊢
              obtain ⟨result, engine, files⟩ := copied
              obtain ⟨result', engine', files'⟩ := copied'
              obtain ⟨rfl, hengine, rfl⟩ := hcopied
              have hstate : (left.setEngine env engine).bare = (right.setEngine env engine').bare := by
                rw [bare_setEngine, bare_setEngine, h, hengine]
              replace hstate := congrArg (fun system : System ↦ { system with files := files }) hstate
              simp only [Bool.not_true, Bool.false_eq_true, if_false]
              split <;> exact ⟨rfl, rfl, hstate⟩

/-- An action that is plain in both of two processes that are alike has the same answers in both,
and leaves them alike. -/
theorem act_agree (h : left.bare = right.bare) {action : Action} (hleft : left.Plain action)
    (hright : right.Plain action) : Agree (left.act action) (right.act action) := by
  have hreads {system : System} {txn : TxnId} {slot : Nat} (hplain : system.Plain action)
      (hshows : action.shows? = some (txn, slot)) := hplain.reads txn slot hshows
  cases action with
  | changeFiles files =>
      exact ⟨rfl, rfl, congrArg (fun system : System ↦ { system with files := files }) h⟩
  | openEnvironment path flags config kind => exact (openWith_agree h ..).map _
  | close env => exact (close_agree h env).map _
  | copy env destination flags thread => exact (copy_agree h hleft hright).map _
  | statEnvironment env => exact (environmentStat_agree h env).map _
  | info env => exact absurd rfl (hleft.info env)
  | sync env => exact (sync_agree h env).map _
  | readerCheck env =>
      exact Agree.map (.whileOpen h fun _ ↦ .relay _ h ⟨rfl, engine_alike h env⟩ _) _
  | endThread env thread =>
      refine .done ?_ _
      rw [endThread_bare, endThread_bare, h]
  | begin env parent flags thread => exact (begin_agree h hleft hright).map _
  | commit txn => exact (commit_agree h txn).map _
  | abort txn => exact (abort_agree h txn).map _
  | drop txn => exact (dropTransaction_agree h txn).map _
  | reset txn => exact (reset_agree h txn).map _
  | renew txn => exact (renew_agree h hleft hright).map _
  | openDatabase txn name flags => exact (openThrough_agree h txn name flags).map _
  | get txn database key => exact (get_agree h txn database key).map _
  | stat txn database => exact (stat_agree h (hreads hleft rfl) (hreads hright rfl)).map _
  | put txn database key value flags =>
      exact (put_agree h (hreads hleft rfl) (hreads hright rfl) key value flags).map _
  | reserve txn database key data flags =>
      exact (reserveFilled_agree h (hreads hleft rfl) (hreads hright rfl) key data flags).map _
  | del txn database key item => exact (del_agree h txn database key item).map _
  | clear txn database => exact (clear_agree h txn database).map _
  | dropDatabase txn database => exact (dropDatabase_agree h txn database).map _

/-! ## Courses of actions -/

/-- The results of actions taken one after the other, each with its events. -/
def answers (system : System) : List Action → List (Except Refusal Response × List Event)
  | [] => []
  | action :: rest =>
      ((system.act action).result, (system.act action).events) :: (system.after action).answers rest

/-- Actions taken one after the other, each of which is plain where it is taken. -/
def Plainly (system : System) : List Action → Prop
  | [] => True
  | action :: rest => system.Plain action ∧ (system.after action).Plainly rest

/-- Processes that are alike answer alike, as long as the actions are plain. -/
theorem answers_of_bare {actions : List Action} (h : left.bare = right.bare)
    (hleft : left.Plainly actions) (hright : right.Plainly actions) :
    left.answers actions = right.answers actions := by
  induction actions generalizing left right with
  | nil => rfl
  | cons action rest ih =>
      have hact := act_agree h hleft.1 hright.1
      have hrest : (left.after action).answers rest = (right.after action).answers rest :=
        ih hact.state hleft.2 hright.2
      unfold answers
      rw [hact.result, hact.events, hrest]

end System

end MappedStore
