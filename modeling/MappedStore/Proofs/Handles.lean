import MappedStore.Proofs.Tracking

/-!
# How clients use native handles

A client holds the transactions that it has begun until it drops or forgets them, and while it holds
a nested one it leaves alone the one that this is nested in (`Client.Allows`). Whatever such a
client does, in whatever order and with whatever failures, the calls that the engine gets are safe
(`handles_safe`).
-/

namespace MappedStore

/-- The transaction that an operation has given, if it has given one. -/
def Outcome.transaction? (outcome : Outcome Response) : Option TxnId :=
  match outcome.result with
  | .ok (.transaction txn) => some txn
  | _ => none

/-- An operation that gives something else gives no transaction. -/
theorem Outcome.transaction?_map {α : Type} (outcome : Outcome α) {change : α → Response}
    (h : ∀ value txn, change value ≠ .transaction txn) :
    (outcome.map change).transaction? = none := by
  obtain ⟨refusal | value, events, state⟩ := outcome
  · rfl
  · cases hvalue : change value with
    | transaction txn => exact absurd hvalue (h value txn)
    | _ => simp [transaction?, map, Except.map, hvalue]

/-- The transaction that an action names: the one that it goes through, or the parent of the one
that it begins. -/
def Action.names? : Action → Option TxnId
  | .begin _ parent _ _ => parent
  | action => action.through?

/-- An action names the transaction that it goes through. -/
theorem Action.names_of_through {action : Action} {txn : TxnId} (h : action.through? = some txn) :
    action.names? = some txn := by
  cases action with
  | begin => simp [through?] at h
  | _ => exact h

/-- The transaction that an action drops, if it drops one. -/
def Action.dropped? : Action → Option TxnId
  | .drop txn => some txn
  | _ => none

/-- Only a drop drops. -/
theorem Action.eq_of_dropped {action : Action} {txn : TxnId} (h : action.dropped? = some txn) :
    action = .drop txn := by
  cases action with
  | drop => exact congrArg _ (Option.some.inj h)
  | _ => simp [dropped?] at h

/-- A drop names the transaction that it drops. -/
theorem Action.names_of_dropped {action : Action} {txn : TxnId} (h : action.dropped? = some txn) :
    action.names? = some txn := by
  rw [eq_of_dropped h]
  rfl

/-- A process with one who uses it: the transactions that are held and those that were dropped, and
the calls of the engine so far. -/
structure Client where
  system : System
  held : List TxnId := []
  dropped : List TxnId := []
  calls : Calls := []

namespace Client

variable {client : Client} {action : Action} {txn : TxnId}

/-- A transaction that is held, while none is held that is nested directly in it. -/
def Free (client : Client) (txn : TxnId) : Prop :=
  txn ∈ client.held ∧ ∀ inner ∈ client.held, (client.system.transaction inner).parent ≠ some txn

/-- A client uses transactions that are free. -/
def Allows (client : Client) (action : Action) : Prop :=
  ∀ txn, action.names? = some txn → client.Free txn

/-- The client after an action. It holds the transaction that it was given, and no longer the one
that it has dropped. -/
def take (client : Client) (action : Action) : Client where
  system := client.system.after action
  held := (client.system.act action).transaction?.toList
    ++ client.held.filter fun txn ↦ action.dropped? ≠ some txn
  dropped := action.dropped?.toList ++ client.dropped
  calls := client.calls ++ (client.system.act action).calls

/-- The client after it has forgotten a transaction, which then is never dropped. -/
def forget (client : Client) (txn : TxnId) : Client :=
  { client with held := client.held.filter (· ≠ txn) }

/-- The client after it has dropped an environment. -/
def leave (client : Client) (env : EnvId) : Client :=
  { client with
    system := (client.system.dropEnvironment env).state
    calls := client.calls ++ (client.system.dropEnvironment env).calls }

/-- A client that has used a process from its start. -/
inductive Reachable : Client → Prop where
  | start (checks : Bool) (files : Files.Tree) :
      Reachable { system := { checks := checks, files := files } }
  | take {client : Client} {action : Action} (h : Reachable client)
      (hallows : client.Allows action) : Reachable (client.take action)
  | forget {client : Client} {txn : TxnId} (h : Reachable client) (hfree : client.Free txn) :
      Reachable (client.forget txn)
  | leave {client : Client} {env : EnvId} (h : Reachable client) : Reachable (client.leave env)

/-- Dropping an environment is closing it. -/
theorem leave_eq_take (client : Client) (env : EnvId) :
    client.leave env = client.take (.close env) := by
  have hresponse : (client.system.act (.close env)).transaction? = none :=
    Outcome.transaction?_map (client.system.close env) nofun
  have hdrop : (client.system.dropEnvironment env).state = (client.system.close env).state ∧
      (client.system.dropEnvironment env).calls = (client.system.close env).calls := by
    unfold System.dropEnvironment
    dsimp only
    split
    · simp [Outcome.calls, Event.called?]
    · exact ⟨rfl, rfl⟩
    · exact ⟨rfl, rfl⟩
  have htake : (client.system.act (.close env)).calls = (client.system.close env).calls ∧
      client.system.after (.close env) = (client.system.close env).state := ⟨rfl, rfl⟩
  rw [leave, take, hresponse, htake.1, htake.2, hdrop.1, hdrop.2]
  simp [Action.dropped?]

/-! ## What is in order -/

/-- What is in order about a process and its client. -/
structure Orderly (client : Client) : Prop where
  sound : client.system.Sound
  counted : client.system.Counted
  housed : client.system.Housed
  tracks : client.system.Tracks client.calls
  disciplined : client.calls.Disciplined
  held_lt : ∀ txn ∈ client.held, txn < client.system.transactions.length
  lineal : ∀ txn ∈ client.held, ∀ outer, (client.system.transaction txn).parent = some outer →
    outer ∈ client.held ∧ (client.system.transaction outer).state.isFinished = false
  dropped : ∀ txn ∈ client.dropped, txn < client.system.transactions.length ∧
    (client.system.transaction txn).state.isFinished = true

namespace Orderly

/-- The environment of a transaction that has not ended is open. -/
theorem standing (h : client.Orderly)
    (hunfinished : (client.system.transaction txn).state.isFinished = false) :
    client.calls.standing (client.system.transaction txn).env = .opened :=
  (h.tracks.standing _).trans (System.standing_of_open (h.housed.opened txn hunfinished))

/-- A transaction that is held and has not ended is alive. -/
theorem alive (h : client.Orderly) (hheld : txn ∈ client.held)
    (hunfinished : (client.system.transaction txn).state.isFinished = false) :
    client.calls.Alive (client.system.transaction txn).env (client.system.native txn) := by
  induction txn using Nat.strongRecOn with
  | ind txn ih =>
      have hlt := h.held_lt txn hheld
      have hbegun := (h.tracks.begun _ _ _).mpr ⟨txn, hlt, rfl, rfl, rfl⟩
      have hended : ¬ client.calls.Ended (client.system.transaction txn).env
          (client.system.native txn) := by
        rw [h.tracks.ended txn hlt, hunfinished]
        simp
      cases hparent : (client.system.transaction txn).parent with
      | none =>
          rw [hparent] at hbegun
          exact .root hbegun hended
      | some outer =>
          rw [hparent] at hbegun
          obtain ⟨houter, hstate⟩ := h.lineal txn hheld outer hparent
          have halive := ih outer (h.sound.anchored.parent_lt txn outer hparent) houter hstate
          rw [h.sound.anchored.parent_env txn outer hparent] at halive
          exact .nested hbegun hended halive

/-- What is nested in a transaction has ended when all its children have. -/
theorem unblocked (h : client.Orderly) (hlt : txn < client.system.transactions.length)
    (hchildren : ∀ inner, (client.system.transaction inner).parent = some txn →
      (client.system.transaction inner).state.isFinished = true)
    (native : Nat)
    (hbegun : client.calls.Begun (client.system.transaction txn).env native
      (some (client.system.native txn))) :
    client.calls.Ended (client.system.transaction txn).env native := by
  obtain ⟨inner, hinner, henv, rfl, hparent⟩ := (h.tracks.begun _ _ _).mp hbegun
  obtain ⟨outer, houter, hnative⟩ := Option.map_eq_some_iff.mp hparent
  have hanchored := h.sound.anchored
  obtain rfl : outer = txn := hanchored.native_inj outer
    (Nat.lt_trans (hanchored.parent_lt inner outer houter) hinner) txn hlt
    ((hanchored.parent_env inner outer houter).trans henv) hnative
  rw [← henv]
  exact (h.tracks.ended inner hinner).mpr (hchildren inner houter)

/-- A transaction that is held and can be used is ready. -/
theorem ready (h : client.Orderly) (hheld : txn ∈ client.held)
    (hfault : (client.system.transaction txn).lifecycleFault = none) :
    client.calls.Ready (client.system.transaction txn).env (client.system.native txn) := by
  obtain ⟨hactive, hchildren⟩ := System.active_of_lifecycleFault hfault
  have hunfinished : (client.system.transaction txn).state.isFinished = false := by
    rw [hactive]
    rfl
  refine ⟨h.alive hheld hunfinished, ?_, h.unblocked (h.held_lt txn hheld)
    fun inner ↦ h.counted.finished_of_children hchildren⟩
  rw [h.tracks.asleep txn hunfinished, hactive]
  simp

/-- Nothing is alive in an environment without active transactions. -/
theorem not_alive (h : client.Orderly) {env : EnvId}
    (hactive : (client.system.environment env).active = 0) (native : Nat) :
    ¬ client.calls.Alive env native := by
  intro halive
  obtain ⟨parent, hbegun⟩ := halive.begun
  obtain ⟨txn, htxn, rfl, rfl, -⟩ := (h.tracks.begun _ _ _).mp hbegun
  exact halive.not_ended ((h.tracks.ended txn htxn).mpr (h.counted.finished_of_active hactive))

/-! ## One more action -/

/-- A call that is permitted keeps calls disciplined. -/
theorem disciplined_one (h : client.Orderly) {made : Called} (hpermits : client.calls.Permits made) :
    (client.calls ++ [made]).Disciplined :=
  Calls.disciplined_concat.mpr ⟨h.disciplined, hpermits⟩

/-- The handle of a new transaction has not been given out before. -/
theorem fresh (h : client.Orderly) {env : EnvId} {parent : Option Nat} {flags : TxnFlags}
    {thread native : Nat} {engine : Engine}
    (hbegin : (client.system.engine env).begin parent flags thread = (.ok native, engine))
    (outer : Option Nat) : ¬ client.system.Known env native outer := by
  rintro ⟨txn, htxn, rfl, rfl, -⟩
  have hlt := h.sound.anchored.native_lt txn htxn
  have hnative := (System.began_of_begin hbegin).later.2.2.2
  rw [System.engineOf, ← hnative] at hlt
  exact Nat.lt_irrefl _ hlt

/-- A renewal of a transaction that is held and at rest is permitted. -/
theorem permits_renewal (h : client.Orderly) (hheld : txn ∈ client.held)
    (hreset : (client.system.transaction txn).state = .reset) (code : Code) :
    client.calls.Permits
      ⟨(client.system.transaction txn).env, .renew (client.system.native txn), code⟩ := by
  have hunfinished : (client.system.transaction txn).state.isFinished = false := by
    rw [hreset]
    rfl
  refine ⟨h.standing hunfinished, h.alive hheld hunfinished,
    (h.tracks.asleep txn hunfinished).mpr hreset,
    h.unblocked (h.held_lt txn hheld) fun inner hinner ↦ ?_⟩
  by_contra hstate
  exact h.housed.roused inner txn (Bool.eq_false_of_not_eq_true hstate) hinner hreset

/-- A begin is permitted in an open environment, within a transaction that can be used, if the
handle that it returns is new. -/
theorem permits_begin (h : client.Orderly) {env : EnvId} {parent : Option TxnId} {flags : TxnFlags}
    {native : Option Nat} {code : Code} (hheld : ∀ outer, parent = some outer → outer ∈ client.held)
    (hfault : client.system.beginFault env parent flags = none)
    (hfresh : ∀ handle outer, native = some handle → ¬ client.system.Known env handle outer) :
    client.calls.Permits ⟨env, .begin native (parent.map client.system.native) flags, code⟩ := by
  obtain ⟨-, hparent⟩ := System.of_beginFault hfault
  refine ⟨(h.tracks.standing env).trans
    (System.standing_of_open (System.open_of_beginFault hfault)), fun handle outer hhandle hbegun ↦ ?_,
    fun outer houter ↦ ?_⟩
  · exact hfresh handle outer hhandle ((h.tracks.begun _ _ _).mp hbegun)
  · obtain ⟨txn, hfound, rfl⟩ := Option.map_eq_some_iff.mp houter
    obtain ⟨rfl, husable⟩ := hparent txn hfound
    exact h.ready (hheld txn hfound) husable

/-- The calls of an action are disciplined, and tell what it has done. -/
theorem conduct (h : client.Orderly) (hallows : client.Allows action) {calls : Calls}
    {after : System} (hconduct : System.Conduct client.system action calls after) :
    after.Tracks (client.calls ++ calls) ∧ (client.calls ++ calls).Disciplined := by
  have hheld : ∀ txn, action.names? = some txn → txn ∈ client.held :=
    fun txn hnames ↦ (hallows txn hnames).1
  cases hconduct with
  | quiet hmoved =>
      rw [List.append_nil]
      exact ⟨h.tracks.unmoved hmoved, h.disciplined⟩
  | @opened path flags config kind environment files hstage =>
      have habsent : client.calls.standing client.system.environments.length = .absent := by
        rw [h.tracks.standing, System.standing, if_pos (Nat.le_refl _)]
      exact ⟨h.tracks.opened (congrArg (·.1) hstage), h.disciplined_one habsent⟩
  | @openFailed path flags config kind code after hcode hmoved =>
      have habsent : client.calls.standing client.system.environments.length = .absent := by
        rw [h.tracks.standing, System.standing, if_pos (Nat.le_refl _)]
      refine ⟨h.tracks.openFailed hmoved hcode, ?_⟩
      rw [List.append_cons]
      refine Calls.disciplined_concat.mpr ⟨h.disciplined_one habsent, .inl ?_, fun native halive ↦ ?_⟩
      · rw [Calls.standing_concat, if_pos rfl]
        simp [Standing.next, hcode]
      · obtain ⟨parent, hbegun⟩ := halive.begun
        rw [Calls.begun_concat, or_iff_left (by simp)] at hbegun
        obtain ⟨txn, htxn, henv, -⟩ := (h.tracks.begun _ _ _).mp hbegun
        exact absurd (h.sound.anchored.env_lt txn htxn) (Nat.not_lt_of_le (Nat.le_of_eq henv.symm))
  | @closed env after hclosed hactive hmoved =>
      refine ⟨h.tracks.closed hclosed hmoved, h.disciplined_one ?_⟩
      exact ⟨.inr ((h.tracks.standing env).trans (System.standing_of_open hclosed)),
        h.not_alive hactive⟩
  | @whole action env call code after hcall hclosed hmoved =>
      obtain ⟨hidle, hstanding⟩ := Call.idle_of_isWhole hcall env code
      exact ⟨h.tracks.quiet hmoved hidle hstanding, h.disciplined_one
        (Calls.permits_whole hcall ((h.tracks.standing env).trans (System.standing_of_open hclosed)))⟩
  | @began env parent flags thread native engine hfault hbegin =>
      have hset := System.Unmoved.setEngine client.system env engine
      have hnested := h.sound.anchored.parent_lt
      have hparent := (System.of_beginFault hfault).2
      refine ⟨(h.tracks.unmoved hset).enter h.disciplined hnested (h.fresh hbegin)
          (fun outer houter ↦ ?_) rfl,
        h.disciplined_one (h.permits_begin hheld hfault fun handle outer hhandle ↦ ?_)⟩
      · exact System.lt_of_lifecycleFault (hparent outer houter).2
      · exact Option.some.inj hhandle ▸ h.fresh hbegin outer
  | @beginFailed env parent flags thread code after hfault hmoved =>
      refine ⟨h.tracks.quiet hmoved ?_ fun _ ↦ rfl, h.disciplined_one
        (h.permits_begin hheld hfault (by simp))⟩
      exact ⟨by simp, rfl, by simp, by simp⟩
  | @used action txn call code after haction hcall hfault hmoved =>
      obtain ⟨hidle, hstanding⟩ :=
        Call.idle_of_use hcall (client.system.transaction txn).env code
      refine ⟨h.tracks.quiet hmoved hidle hstanding, h.disciplined_one ?_⟩
      exact Calls.permits_use hcall (h.standing (System.unfinished_of_lifecycleFault hfault))
        (h.ready (hheld txn (Action.names_of_through haction)) hfault)
  | @committed txn code state middle hfault hstate hmoved =>
      have hmoved' := hmoved.finish (System.unfinished_of_lifecycleFault hfault) state
      refine ⟨?_, h.disciplined_one ?_⟩
      · exact h.tracks.ends h.sound.anchored hmoved' hstate rfl rfl
      · exact ⟨h.standing (System.unfinished_of_lifecycleFault hfault), h.ready (hheld txn rfl) hfault⟩
  | @aborted action txn middle haction hstate hmoved =>
      have hmoved' := hmoved.finish hstate .aborted
      refine ⟨?_, h.disciplined_one ?_⟩
      · exact h.tracks.ends h.sound.anchored hmoved' rfl rfl rfl
      · refine ⟨h.standing hstate, h.alive (hheld txn ?_) hstate⟩
        rcases haction with rfl | rfl <;> rfl
  | @reset txn middle hfault hmoved =>
      have hmoved' := hmoved.setState (System.unfinished_of_lifecycleFault hfault) .reset
      refine ⟨?_, h.disciplined_one ?_⟩
      · exact h.tracks.sleeps h.sound.anchored hmoved'
      · exact ⟨h.standing (System.unfinished_of_lifecycleFault hfault), h.ready (hheld txn rfl) hfault⟩
  | @renewed txn middle hstate hmoved =>
      have hmoved' := hmoved.setState (by rw [hstate]; rfl) .active
      exact ⟨h.tracks.wakes h.sound.anchored hmoved',
        h.disciplined_one (h.permits_renewal (hheld txn rfl) hstate 0)⟩
  | @renewalFailed txn code after hcode hstate hmoved =>
      refine ⟨h.tracks.quiet hmoved ?_ fun _ ↦ rfl,
        h.disciplined_one (h.permits_renewal (hheld txn rfl) hstate code)⟩
      exact ⟨by simp, rfl, by simp, fun _ hwakes ↦ hcode hwakes.2⟩

end Orderly

end Client

namespace System

variable {system : System} {action : Action} {txn : TxnId}

/-- Only a begin gives a transaction. -/
theorem given_cases (h : (system.act action).transaction? = some txn) :
    txn = system.transactions.length ∧ ∃ env parent flags thread native engine,
      action = .begin env parent flags thread ∧
      Entrance system env parent flags thread native engine (system.after action) := by
  cases action with
  | begin env parent flags thread =>
      have hresult : (system.begin env parent flags thread).result = .ok txn := by
        unfold act Outcome.transaction? Outcome.map at h
        cases hbegin : (system.begin env parent flags thread).result with
        | error refusal => simp [hbegin, Except.map] at h
        | ok begun => simpa [hbegin, Except.map] using h
      obtain ⟨htxn, native, engine, hentrance⟩ := entrance_of_begin hresult
      exact ⟨htxn, env, parent, flags, thread, native, engine, rfl, hentrance⟩
  | changeFiles | endThread => simp [act, done, Outcome.transaction?] at h
  | _ =>
      rw [act, Outcome.transaction?_map] at h
      · exact absurd h (by simp)
      · exact nofun

/-- Dropping a transaction makes the calls that an abort makes. -/
theorem dropTransaction_calls (system : System) (txn : TxnId) :
    (system.dropTransaction txn).calls = (system.abort txn).calls := by
  rw [(system.dropTransaction_outcome txn).calls_eq, (system.abort_outcome txn).calls_eq]

/-- A transaction that was dropped has ended. -/
theorem finished_of_drop (htxn : txn < system.transactions.length) :
    ((system.after (.drop txn)).transaction txn).state.isFinished = true := by
  rw [show system.after (.drop txn) = (system.abort txn).state from dropTransaction_state system txn,
    abort_state]
  split
  · assumption
  · rw [field_finish_self (·.state) (fun _ _ ↦ by rfl) .aborted (by exact htxn)]
    rfl

end System

namespace Client

variable {client : Client} {action : Action} {txn : TxnId}

/-- An action leaves a process and its client in order. -/
theorem Orderly.take (h : client.Orderly) (hallows : client.Allows action) :
    (client.take action).Orderly := by
  obtain ⟨htracks, hdisciplined⟩ := h.conduct hallows (client.system.conduct_act action)
  have hhoused := h.housed.act h.sound h.counted action
  have htransition := h.sound.transition action
  have hsystem : (client.take action).system = client.system.after action := rfl
  have hlength : client.system.transactions.length
      ≤ (client.system.after action).transactions.length := htransition.length_le
  have hmem : ∀ txn ∈ (client.take action).held,
      (client.system.act action).transaction? = some txn ∨
        txn ∈ client.held ∧ action.dropped? ≠ some txn := by
    intro txn htxn
    rcases List.mem_append.mp htxn with htxn | htxn
    · exact .inl (by simpa using htxn)
    · exact .inr (by simpa using htxn)
  refine ⟨h.sound.act action, h.counted.act h.sound action, hhoused, htracks, hdisciplined, ?_, ?_, ?_⟩
  · intro txn htxn
    rcases hmem txn htxn with hgiven | ⟨hheld, -⟩
    · obtain ⟨rfl, env, parent, flags, thread, native, engine, -, hentrance⟩ :=
        System.given_cases hgiven
      rw [hsystem, hentrance.length_eq]
      exact Nat.lt_succ_self _
    · exact Nat.lt_of_lt_of_le (h.held_lt txn hheld) hlength
  · intro txn htxn outer houter
    have hkept : ∀ {txn}, txn ∈ client.held → action.dropped? ≠ some txn →
        txn ∈ (client.take action).held := fun hheld hdropped ↦
      List.mem_append_right _ (List.mem_filter.mpr ⟨hheld, by simpa using hdropped⟩)
    rcases hmem txn htxn with hgiven | ⟨hheld, -⟩
    · obtain ⟨rfl, env, parent, flags, thread, native, engine, rfl, hentrance⟩ :=
        System.given_cases hgiven
      have hparent : parent = some outer := by
        rw [hsystem, hentrance.transaction_eq] at houter
        exact houter
      have husable := ((System.of_beginFault hentrance.fault).2 outer hparent).2
      refine ⟨hkept (hallows outer hparent).1 nofun, ?_⟩
      have hlt : outer < (client.system.setEngine env engine).transactions.length :=
        System.lt_of_lifecycleFault husable
      rw [hsystem, hentrance.after_eq, System.field_enter (·.state) (fun _ _ ↦ by rfl) _ hlt]
      exact congrArg TxnState.isFinished (System.active_of_lifecycleFault husable).1
    · have hlt := h.held_lt txn hheld
      have hidentity := htransition.identity hlt
      have hparent : (client.system.transaction txn).parent = some outer :=
        (System.parent_of_identity hidentity).symm.trans houter
      obtain ⟨hheld', hstate⟩ := h.lineal txn hheld outer hparent
      -- The client leaves the outer transaction alone while it holds the nested one.
      have hunnamed : action.names? ≠ some outer :=
        fun hnames ↦ (hallows outer hnames).2 txn hheld hparent
      refine ⟨hkept hheld' fun hdropped ↦ hunnamed (Action.names_of_dropped hdropped), ?_⟩
      rcases htransition.state_cases (h.held_lt outer hheld') with hsame | ⟨-, hthrough⟩
      · exact (congrArg TxnState.isFinished hsame).trans hstate
      · exact absurd (Action.names_of_through hthrough) hunnamed
  · intro txn htxn
    rcases List.mem_append.mp htxn with htxn | htxn
    · have hdropped : action.dropped? = some txn := by simpa using htxn
      have hlt := h.held_lt txn (hallows txn (Action.names_of_dropped hdropped)).1
      obtain rfl := Action.eq_of_dropped hdropped
      exact ⟨Nat.lt_of_lt_of_le hlt hlength, System.finished_of_drop hlt⟩
    · obtain ⟨hlt, hstate⟩ := h.dropped txn htxn
      refine ⟨Nat.lt_of_lt_of_le hlt hlength, ?_⟩
      by_contra hunfinished
      have hback := h.sound.unfinished_back hlt (Bool.eq_false_of_not_eq_true hunfinished)
      exact absurd (hstate.symm.trans hback) (by simp)

/-- Forgetting a transaction leaves a process and its client in order. -/
theorem Orderly.forget (h : client.Orderly) (hfree : client.Free txn) :
    (client.forget txn).Orderly := by
  refine ⟨h.sound, h.counted, h.housed, h.tracks, h.disciplined, ?_, ?_, h.dropped⟩
  · exact fun other hother ↦ h.held_lt other (List.mem_of_mem_filter hother)
  · intro inner hinner outer hparent
    have hheld := List.mem_of_mem_filter hinner
    obtain ⟨houter, hstate⟩ := h.lineal inner hheld outer hparent
    refine ⟨List.mem_filter.mpr ⟨houter, decide_eq_true ?_⟩, hstate⟩
    rintro rfl
    exact hfree.2 inner hheld hparent

/-- A process is in order with everyone who has used it from its start. -/
theorem Reachable.orderly (h : client.Reachable) : client.Orderly := by
  induction h with
  | start checks files =>
      exact ⟨System.sound_start checks files, System.counted_start checks files,
        System.housed_start checks files, System.Tracks.start checks files, Calls.disciplined_nil,
        nofun, nofun, nofun⟩
  | take _ hallows ih => exact ih.take hallows
  | forget _ hfree ih => exact ih.forget hfree
  | @leave client env _ ih =>
      rw [leave_eq_take]
      exact ih.take fun txn hnames ↦ by simp [Action.names?, Action.through?] at hnames

/-- The native transactions that were begun belong to the transactions of a process, each to one. -/
theorem Orderly.owner (h : client.Orderly) (env : EnvId) (native : Nat) :
    (∃ parent, client.calls.Begun env native parent) ↔
      ∃! txn, txn < client.system.transactions.length ∧
        (client.system.transaction txn).env = env ∧ client.system.native txn = native := by
  constructor
  · rintro ⟨parent, hbegun⟩
    obtain ⟨txn, htxn, rfl, rfl, -⟩ := (h.tracks.begun _ _ _).mp hbegun
    refine ⟨txn, ⟨htxn, rfl, rfl⟩, fun other ⟨hother, henv, hnative⟩ ↦ ?_⟩
    exact h.sound.anchored.native_inj other hother txn htxn henv hnative
  · rintro ⟨txn, ⟨htxn, henv, hnative⟩, -⟩
    exact ⟨_, (h.tracks.begun _ _ _).mpr ⟨txn, htxn, henv, hnative, rfl⟩⟩

/-- A transaction that was dropped was committed or aborted once. -/
theorem Orderly.ends_dropped (h : client.Orderly) (hdropped : txn ∈ client.dropped) :
    client.calls.ends (client.system.transaction txn).env (client.system.native txn) = 1 := by
  obtain ⟨htxn, hstate⟩ := h.dropped txn hdropped
  refine Nat.le_antisymm (h.disciplined.ended_once _ _) (Nat.one_le_iff_ne_zero.mpr fun hzero ↦ ?_)
  exact Calls.ends_eq_zero.mp hzero ((h.tracks.ended txn htxn).mpr hstate)

end Client

/-- Whatever a client does, its calls of the engine are safe: no native transaction is ended twice
or used after its end or the end of one that it is nested in, none is used while it is at rest or
has one nested in it, and no environment is closed twice, under a transaction, or used after it was
closed. Each native transaction belongs to one transaction of the client, and was ended exactly once
when that was dropped: the drop of one that has not ended is an abort. -/
theorem handles_safe {client : Client} (h : client.Reachable) :
    client.calls.Safe ∧
      (∀ env native, (∃ parent, client.calls.Begun env native parent) ↔
        ∃! txn, txn < client.system.transactions.length ∧
          (client.system.transaction txn).env = env ∧ client.system.native txn = native) ∧
      (∀ txn ∈ client.dropped,
        client.calls.ends (client.system.transaction txn).env (client.system.native txn) = 1) ∧
      ∀ txn, client.system.after (.drop txn) = client.system.after (.abort txn) ∧
        (client.system.act (.drop txn)).calls = (client.system.act (.abort txn)).calls :=
  ⟨h.orderly.disciplined.safe, h.orderly.owner, fun _ ↦ h.orderly.ends_dropped, fun txn ↦
    ⟨System.dropTransaction_state client.system txn, System.dropTransaction_calls client.system txn⟩⟩

/-- A nested transaction is forgotten and its parent aborted and dropped. The native transaction of
the forgotten one is never ended, and its environment is not closed. -/
theorem handles_safe_forgotten :
    let opened := ({ system := { files := System.sampleFiles } } : Client).take
      (.openEnvironment System.samplePath .empty { maxDbs := 4, maxReaders := 4 } .default)
    let begun := opened.take (.begin 0 none .empty System.mainThread)
    let nested := begun.take (.begin 0 (some 0) .empty System.mainThread)
    let last := (((nested.forget 1).take (.abort 0)).take (.drop 0)).take (.close 0)
    last.Reachable ∧ last.calls.length = 4 ∧ last.calls.Safe ∧ last.dropped = [0] ∧
      last.calls.ends (last.system.transaction 0).env (last.system.native 0) = 1 := by
  intro opened begun nested last
  have hopened : opened.Reachable := (Client.Reachable.start true System.sampleFiles).take nofun
  have hbegun : begun.Reachable := hopened.take nofun
  have hnested : nested.Reachable := by
    refine hbegun.take fun txn hnames ↦ ?_
    obtain rfl := Option.some.inj hnames
    unfold Client.Free
    decide +kernel
  have hlast : last.Reachable := by
    refine (((hnested.forget ?_).take fun txn hnames ↦ ?_).take fun txn hnames ↦ ?_).take nofun
    · unfold Client.Free
      decide +kernel
    all_goals
      obtain rfl := Option.some.inj hnames
      unfold Client.Free
      decide +kernel
  have hdropped : last.dropped = [0] := by decide +kernel
  obtain ⟨hsafe, -, hends, -⟩ := handles_safe hlast
  exact ⟨hlast, by decide +kernel, hsafe, hdropped, hends 0 (by rw [hdropped]; simp)⟩

end MappedStore
