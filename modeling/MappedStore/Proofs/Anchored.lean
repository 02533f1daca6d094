import MappedStore.Proofs.Fields

/-!
# Transactions and their engines

Every transaction belongs to an environment for good, and is known to its engine by a handle that
no other transaction of the environment has or will have. `System.Anchored` states this together
with the order of nesting, and every transition preserves it (`Anchored.transition`).
-/

namespace MappedStore

namespace Engine

/-- What any action can do to an engine. The actor is the handle of the transaction that the action
goes through, if it goes through one of the engine. -/
inductive Turn (engine : Engine) : Option Nat → Engine → Prop where
  | aside {actor : Option Nat} {after : Engine} (h : Aside engine after) : Turn engine actor after
  | used {handle : Nat} {after : Engine} (h : Used engine handle after) :
      Turn engine (some handle) after
  | reset {handle : Nat} {after : Engine} (h : WasReset engine handle after) :
      Turn engine (some handle) after
  | renewed {handle : Nat} {after : Engine} (h : Renewed engine handle after) :
      Turn engine (some handle) after
  | began {parent : Option Nat} {flags : TxnFlags} {handle : Nat} {after : Engine}
      (h : Began engine parent flags handle after) : Turn engine none after
  | committed {handle : Nat} {after : Engine} (h : Committed engine handle after) :
      Turn engine (some handle) after
  | ended {handle : Nat} {middle : Engine} (h : Refused engine handle middle) :
      Turn engine (some handle) (middle.abort handle)

variable {engine after : Engine} {handle : Nat} {actor : Option Nat}

/-- Nothing has happened to an engine. -/
theorem Turn.refl (engine : Engine) (actor : Option Nat) : Turn engine actor engine :=
  .aside (.refl engine)

/-- Transactions that are left when those up to one in a list have gone. -/
theorem outer_sublist {txns inner outer : List Txn} {txn : Txn} (h : txns = inner ++ txn :: outer) :
    outer.Sublist txns :=
  h ▸ ((List.sublist_cons_self txn outer).trans (List.sublist_append_right _ _))

/-- After an abort, the roster has lost transactions, and nothing is committed. -/
theorem Roster.of_aborted (h : Roster engine) (haborted : Aborted engine handle after)
    (hnext : after.nextHandle = engine.nextHandle) : Roster after := by
  cases haborted with
  | unknown htxn heq => exact heq ▸ h
  | reader htxn hreader hwriters hreading =>
      refine h.of_sublist (hwriters ▸ .refl _) ?_ (Nat.le_of_eq hnext.symm)
      rw [hreading]
      exact List.filter_sublist.map Txn.tag
  | writer htxn hwriter hsplit hinner hwriters hreading =>
      refine h.of_sublist ?_ (hreading ▸ .refl _) (Nat.le_of_eq hnext.symm)
      rw [hwriters]
      exact (outer_sublist hsplit).map Txn.tag

/-- The roster after a commit. -/
theorem Roster.of_committed (h : Roster engine) (hcommitted : Committed engine handle after) :
    Roster after := by
  cases hcommitted with
  | @reader txn htxn hreader =>
      obtain ⟨hwriters, hreading, hnext, -, -⟩ := endReader_cases engine txn true
      refine h.of_sublist (hwriters ▸ .refl _) ?_ (Nat.le_of_eq hnext.symm)
      rw [hreading]
      exact List.filter_sublist.map Txn.tag
  | @nested child parent rest hwriters hhandle =>
      refine h.of_sublist ?_ (.refl _) (Nat.le_refl _)
      have hchild := h.writers child (by simp [hwriters])
      have hparent := h.writers parent (by simp [hwriters])
      have htag : (absorb parent child).tag = parent.tag := by
        simp [Txn.tag, absorb, hchild, hparent]
      simp only [hwriters, List.map_cons, htag]
      exact List.sublist_cons_self _ _
  | root image hwriters hhandle hnamed =>
      exact h.of_sublist (List.nil_sublist _) (.refl _) (Nat.le_refl _)

/-- A commit gives a later table of slots, and no handle is given out by it. -/
theorem Committed.later (h : Committed engine handle after) :
    SlotTable.Later engine.slots after.slots ∧ after.nextHandle = engine.nextHandle := by
  cases h with
  | @reader txn htxn hreader =>
      obtain ⟨-, -, hnext, -, hlater⟩ := endReader_cases engine txn true
      exact ⟨hlater, hnext⟩
  | nested => exact ⟨.refl _, rfl⟩
  | root => exact ⟨SlotTable.later_keep _ _, rfl⟩

/-- A begin leaves the table of slots, and gives out one handle. -/
theorem Began.later {parent : Option Nat} {flags : TxnFlags}
    (h : Began engine parent flags handle after) :
    after.slots = engine.slots ∧ after.nextHandle = engine.nextHandle + 1 ∧
      after.image = engine.image ∧ handle = engine.nextHandle := by
  cases h <;> exact ⟨rfl, rfl, rfl, rfl⟩

/-- Whatever happens to an engine, its roster stays in order, the handles given out are never given
out again, and its table of slots gets later. -/
theorem Roster.of_turn (h : Roster engine) (hturn : Turn engine actor after) :
    Roster after ∧ engine.nextHandle ≤ after.nextHandle ∧
      SlotTable.Later engine.slots after.slots := by
  have hkept : ∀ {after : Engine}, Stays engine after → Roster after ∧
      engine.nextHandle ≤ after.nextHandle ∧ SlotTable.Later engine.slots after.slots :=
    fun hstays ↦ ⟨h.of_stays hstays, Nat.le_of_eq hstays.nextHandle.symm, hstays.slots⟩
  cases hturn with
  | used hused => exact hkept (h.stays_used hused)
  | reset hreset => exact hkept (h.stays_reset hreset)
  | renewed hrenewed => exact hkept (h.stays_renewed hrenewed)
  | aside haside =>
      obtain ⟨readers, next, hnext, rfl⟩ := haside
      exact ⟨h.of_sublist (.refl _) (.refl _) hnext, hnext, .refl _⟩
  | began hbegan =>
      obtain ⟨hslots, hnext, -, -⟩ := hbegan.later
      refine ⟨h.of_began hbegan, by omega, ?_⟩
      rw [hslots]
      exact .refl _
  | committed hcommitted =>
      obtain ⟨hlater, hnext⟩ := hcommitted.later
      exact ⟨h.of_committed hcommitted, Nat.le_of_eq hnext.symm, hlater⟩
  | @ended handle middle hrefused =>
      have hmiddle := h.of_stays hrefused.stays
      obtain ⟨haborted, hnext, -, hlater⟩ := abort_cases hmiddle handle
      exact ⟨hmiddle.of_aborted haborted hnext,
        Nat.le_of_eq (hrefused.stays.nextHandle.symm.trans hnext.symm),
        hrefused.stays.slots.trans hlater⟩

/-- An engine in which nothing has happened yet. -/
structure Newborn (engine : Engine) : Prop where
  writers : engine.writers = []
  reading : engine.reading = []
  slots : engine.slots = []
  known : engine.known = 0
  memory : engine.memory = []

/-- A new engine has an empty roster. -/
theorem Newborn.roster (h : Newborn engine) : Roster engine := by
  refine ⟨?_, ?_, ?_, ?_⟩ <;> simp [h.writers, h.reading]

/-- An engine that has just been started is new. -/
theorem start_newborn {tree : Files.Tree} {location : Files.Location} {file : Files.File}
    {config : Config} {flags : EnvFlags} {capacity : Nat} {files : Files.Tree}
    (h : start tree location file config flags capacity = (.ok engine, files)) :
    Newborn engine := by
  unfold start at h
  dsimp only at h
  split at h
  · simp at h
  · split at h
    · simp at h
    · obtain rfl := Except.ok.inj (Prod.mk.inj h).1
      exact ⟨rfl, rfl, rfl, rfl, rfl⟩
  · split at h
    · simp at h
    · split at h
      · simp at h
      · obtain rfl := Except.ok.inj (Prod.mk.inj h).1
        exact ⟨rfl, rfl, rfl, rfl, rfl⟩

/-- An engine that has just been opened is new. -/
theorem openAt_newborn {tree : Files.Tree} {path : Bytes} {flags : EnvFlags} {config : Config}
    {files : Files.Tree} (h : openAt tree path flags config = (.ok engine, files)) :
    Newborn engine := by
  unfold openAt at h
  split at h
  · simp at h
  split at h
  · unfold openReadOnly at h
    split at h
    · simp at h
    · dsimp only at h
      split at h
      · simp at h
      · simp at h
      · exact start_newborn h
  · unfold openWritable at h
    dsimp only at h
    split at h
    · simp at h
    · split at h
      · simp at h
      · exact start_newborn h

end Engine

/-- What never changes about a transaction. -/
def Transaction.identity (txn : Transaction) : EnvId × Nat × Bool × Option TxnId :=
  (txn.env, txn.native, txn.readOnly, txn.parent)

namespace System

variable {system after : System} {action : Action} {env : EnvId}

/-! ## What a transition does to engines -/

/-- The handle of the transaction that an action goes through, if that is one of an environment. -/
def actor (system : System) (env : EnvId) (action : Action) : Option Nat :=
  (action.through?.filter fun txn ↦ (system.transaction txn).env = env).map system.native

/-- An action goes through the transaction whose use of the engine it is. -/
theorem through_of_use {txn : TxnId} {use : Engine.Use} (h : action.use? = some (txn, use)) :
    action.through? = some txn := by
  cases action <;> simp_all [Action.use?, Action.through?]

/-- The engines after the engine of the transaction that an action goes through was replaced. -/
theorem turn_setEngineOf {txn : TxnId} {engine : Engine} (hthrough : action.through? = some txn)
    (h : Engine.Turn (system.engineOf txn) (some (system.native txn)) engine) (env : EnvId) :
    Engine.Turn (system.engine env) (system.actor env action)
      ((system.setEngineOf txn engine).engine env) := by
  by_cases henv : (system.transaction txn).env = env
  · have hactor : system.actor env action = some (system.native txn) := by
      simp [actor, hthrough, henv]
    rw [hactor, ← henv]
    exact engine_setEngine_induction (fun before after ↦ Engine.Turn before _ after)
      (fun engine ↦ .refl engine _) h _
  · rw [setEngineOf, engine_setEngine_of_ne engine (Ne.symm henv)]
    exact .refl _ _

/-- A successful open is a use of the engine. -/
theorem used_of_open {txn : TxnId} {name : Option Bytes} {flags : DbFlags} {slot : Nat}
    {engine : Engine}
    (hopen : (system.engineOf txn).openDatabase (system.native txn) name flags
      = (.ok slot, engine)) :
    Engine.Used (system.engineOf txn) (system.native txn) engine := by
  have hused := Engine.use_used (system.engineOf txn) (system.native txn) (.openDatabase name flags)
  rwa [Engine.use, hopen] at hused

/-- A successful drop is a use. -/
theorem used_of_drop {txn : TxnId} {slot : Nat} {delete : Bool} {engine : Engine}
    (hdrop : (system.engineOf txn).drop (system.native txn) slot delete = (.ok (), engine)) :
    Engine.Used (system.engineOf txn) (system.native txn) engine := by
  have hused := Engine.use_used (system.engineOf txn) (system.native txn) (.drop slot delete)
  rwa [Engine.use, hdrop] at hused

/-- A successful begin of the engine. -/
theorem began_of_begin {engine after : Engine} {parent : Option Nat} {flags : TxnFlags}
    {thread native : Nat} (hbegin : engine.begin parent flags thread = (.ok native, after)) :
    Engine.Began engine parent flags native after := by
  rcases Engine.begin_cases engine parent flags thread with ⟨code, h⟩ | ⟨_, _, h, hbegan⟩
  · simp [hbegin] at h
  · obtain ⟨rfl, rfl⟩ : native = _ ∧ after = _ := by simpa [hbegin] using h
    exact hbegan

/-- A successful commit of the engine. -/
theorem committed_of_commit {engine after : Engine} (hroster : Engine.Roster engine) {native : Nat}
    (hcommit : engine.commit native = (.ok (), after)) : Engine.Committed engine native after := by
  rcases Engine.commit_cases hroster native with ⟨_, h, hcommitted⟩ | ⟨_, _, h, -⟩
  · obtain rfl : after = _ := congrArg Prod.snd (hcommit.symm.trans h)
    exact hcommitted
  · simpa using congrArg Prod.fst (hcommit.symm.trans h)

/-- A failed commit of the engine. -/
theorem refused_of_commit {engine after : Engine} (hroster : Engine.Roster engine) {native : Nat}
    {code : Code} (hcommit : engine.commit native = (.error code, after)) :
    ∃ middle, Engine.Refused engine native middle ∧ after = middle.abort native := by
  rcases Engine.commit_cases hroster native with ⟨_, h, -⟩ | ⟨_, middle, h, hrefused⟩
  · simpa using congrArg Prod.fst (hcommit.symm.trans h)
  · exact ⟨middle, hrefused, congrArg Prod.snd (hcommit.symm.trans h)⟩

/-- A successful renewal by the engine. -/
theorem renewed_of_renew {engine after : Engine} {native thread : Nat}
    (hrenew : engine.renew native thread = (.ok (), after)) :
    Engine.Renewed engine native after := by
  rcases Engine.renew_cases engine native thread with ⟨_, h⟩ | ⟨_, h, hrenewed⟩
  · simpa using congrArg Prod.fst (hrenew.symm.trans h)
  · obtain rfl : after = _ := congrArg Prod.snd (hrenew.symm.trans h)
    exact hrenewed

/-- A transition does to every engine what an action can do to it. -/
theorem Transition.turn (hroster : ∀ env, Engine.Roster (system.engine env))
    (h : Transition system action after) (henv : env < system.environments.length) :
    Engine.Turn (system.engine env) (system.actor env action) (after.engine env) := by
  cases h with
  | idle => exact .refl _ _
  | files => exact .refl _ _
  | openedEnvironment hopen =>
      rw [engine, engine, environment_append _ _ henv]
      exact .refl _ _
  | @closed env' files hactive =>
      have hsame : ((system.modifyEnvironment env'
          ({ · with closed := true, retained := [] })).environment env).engine
            = (system.environment env).engine :=
        field_modifyEnvironment (·.engine) (fun _ ↦ by rfl) system env' env
      exact (congrArg (Engine.Turn (system.engine env) _) hsame).mpr (.refl _ _)
  | aside files haction haside =>
      exact engine_setEngine_induction (fun before after ↦ Engine.Turn before _ after)
        (fun engine ↦ .refl engine _) (.aside haside) env
  | used use haction hfault =>
      exact turn_setEngineOf (through_of_use haction) (.used (Engine.use_used _ _ use)) env
  | reopened hfault hopen hlive =>
      simpa using turn_setEngineOf rfl (.used (used_of_open hopen)) env
  | opened hfault hopen hlive =>
      simpa using turn_setEngineOf rfl (.used (used_of_open hopen)) env
  | dropped hfault henv' hlive hslot hdrop =>
      simpa using turn_setEngineOf rfl (.used (used_of_drop hdrop)) env
  | began hfault hwriter hbegin =>
      rw [engine_enter]
      exact engine_setEngine_induction (fun before after ↦ Engine.Turn before none after)
        (fun engine ↦ .refl engine none) (.began (began_of_begin hbegin)) env
  | committed hfault hcommit =>
      simpa using turn_setEngineOf rfl (.committed (committed_of_commit (hroster _) hcommit)) env
  | commitFailed hfault hcommit =>
      obtain ⟨middle, hrefused, rfl⟩ := refused_of_commit (hroster _) hcommit
      simpa using turn_setEngineOf rfl (.ended hrefused) env
  | @discarded action txn haction hstate =>
      have hthrough : action.through? = some txn := by rcases haction with rfl | rfl <;> rfl
      simpa using turn_setEngineOf hthrough
        (.ended (.refl (system.engineOf txn) (system.native txn))) env
  | @reset txn hfault hreader =>
      have hreset := Engine.reset_cases (system.engineOf txn) (system.native txn)
      simpa using turn_setEngineOf rfl (.reset hreset) env
  | renewed hstate hrenew =>
      simpa using turn_setEngineOf rfl (.renewed (renewed_of_renew hrenew)) env

/-- How many transactions and environments there are after a transition. -/
theorem Transition.length (h : Transition system action after) :
    (after.transactions.length = system.transactions.length ∨
        (∃ env parent flags thread, action = .begin env parent flags thread) ∧
          after.transactions.length = system.transactions.length + 1) ∧
      system.environments.length ≤ after.environments.length := by
  have hengine : ∀ (s : System) env engine,
      (s.setEngine env engine).environments.length = s.environments.length := fun s env engine ↦
    length_modifyEnvironment s env _
  cases h with
  | idle | files => exact ⟨.inl rfl, Nat.le_refl _⟩
  | openedEnvironment hopen => exact ⟨.inl rfl, by simp⟩
  | closed | aside | used =>
      exact ⟨.inl rfl, Nat.le_of_eq (length_modifyEnvironment system _ _).symm⟩
  | reopened | dropped | reset | renewed =>
      exact ⟨.inl (length_modifyTransaction _ _ _), Nat.le_of_eq (hengine _ _ _).symm⟩
  | @opened txn name flags slot engine =>
      refine ⟨.inl (length_modifyTransaction _ _ _), Nat.le_of_eq ?_⟩
      exact ((length_modifyEnvironment (system.setEngineOf txn engine) _ _).trans
        (hengine _ _ _)).symm
  | began =>
      refine ⟨.inr ⟨⟨_, _, _, _, rfl⟩, length_enter _ _⟩, Nat.le_of_eq ?_⟩
      rw [environments_length_enter, hengine]
  | committed =>
      refine ⟨.inl ?_, Nat.le_of_eq ?_⟩
      · rw [length_finish, length_handOver]
        rfl
      · rw [environments_length_finish, environments_length_handOver, setEngineOf, hengine]
  | commitFailed | discarded =>
      refine ⟨.inl (length_finish _ _ _), Nat.le_of_eq ?_⟩
      rw [environments_length_finish, setEngineOf, hengine]

/-- Only a begin adds a transaction. -/
theorem Transition.length_kept (h : Transition system action after)
    (haction : ∀ env parent flags thread, action ≠ .begin env parent flags thread) :
    after.transactions.length = system.transactions.length := by
  rcases h.length.1 with hlength | ⟨⟨env, parent, flags, thread, hbegin⟩, -⟩
  · exact hlength
  · exact absurd hbegin (haction env parent flags thread)

/-- A commit adds no transaction. -/
theorem Transition.length_commit {txn : TxnId} (h : Transition system (.commit txn) after) :
    after.transactions.length = system.transactions.length :=
  h.length_kept nofun

/-- No transition takes transactions away. -/
theorem Transition.length_le (h : Transition system action after) :
    system.transactions.length ≤ after.transactions.length := by
  rcases h.length.1 with hlength | ⟨-, hlength⟩
  · exact Nat.le_of_eq hlength.symm
  · exact hlength ▸ Nat.le_succ _

/-- A transaction that was there before a transition is there after it. -/
theorem Transition.lt_length (h : Transition system action after) {txn : TxnId}
    (htxn : txn < system.transactions.length) : txn < after.transactions.length := by
  rcases h.length.1 with hlength | ⟨-, hlength⟩
  · exact hlength ▸ htxn
  · exact hlength ▸ Nat.lt_succ_of_lt htxn

/-- An environment that was not there before a transition is new, or still not there. -/
theorem Transition.newborn (h : Transition system action after)
    (henv : system.environments.length ≤ env) :
    Engine.Newborn (after.engine env) ∧ (after.environment env).retained = [] := by
  have habsent : ∀ s : System, s.environments.length ≤ env →
      Engine.Newborn (s.engine env) ∧ (s.environment env).retained = [] := by
    intro s hs
    have hnone : s.environment env = .absent := by
      simp [environment, List.getD_eq_getElem?_getD, hs]
    rw [engine, hnone]
    exact ⟨⟨rfl, rfl, rfl, rfl, rfl⟩, rfl⟩
  have hengine : ∀ (s : System) other engine,
      (s.setEngine other engine).environments.length = s.environments.length :=
    fun s other engine ↦ length_modifyEnvironment s other _
  cases h with
  | idle | files => exact habsent _ henv
  | @openedEnvironment path flags config kind opened files hopen =>
      rcases Nat.lt_or_eq_of_le henv with hlt | heq
      · exact habsent _ (by simpa using Nat.succ_le_of_lt hlt)
      · have hnew : ∀ last : Environment, ({ system with
            files := files
            environments := system.environments ++ [last] } : System).environment env = last := by
          intro last
          simp [environment, List.getD_eq_getElem?_getD, ← heq]
        rw [engine, hnew]
        exact ⟨Engine.openAt_newborn hopen, rfl⟩
  | closed | aside | used =>
      exact habsent _ (Nat.le_trans (Nat.le_of_eq (length_modifyEnvironment system _ _)) henv)
  | reopened | dropped | reset | renewed =>
      exact habsent _ (Nat.le_trans (Nat.le_of_eq (hengine _ _ _)) henv)
  | @opened txn name flags slot engine =>
      refine habsent _ (Nat.le_trans (Nat.le_of_eq ?_) henv)
      exact (length_modifyEnvironment (system.setEngineOf txn engine) _ _).trans (hengine _ _ _)
  | began =>
      refine habsent _ (Nat.le_trans (Nat.le_of_eq ?_) henv)
      rw [environments_length_enter, hengine]
  | committed =>
      refine habsent _ (Nat.le_trans (Nat.le_of_eq ?_) henv)
      rw [environments_length_finish, environments_length_handOver, setEngineOf, hengine]
  | commitFailed | discarded =>
      refine habsent _ (Nat.le_trans (Nat.le_of_eq ?_) henv)
      rw [environments_length_finish, setEngineOf, hengine]

/-- A transition never changes who a transaction is. -/
theorem Transition.identity (h : Transition system action after) {txn : TxnId}
    (htxn : txn < system.transactions.length) :
    (after.transaction txn).identity = (system.transaction txn).identity := by
  have hfinish := fun (s : System) (other : TxnId) (state : TxnState) ↦
    field_finish Transaction.identity (fun _ _ _ _ ↦ by rfl) s other state txn
  cases h with
  | idle | files | openedEnvironment | closed | aside | used => rfl
  | reopened | opened | dropped | reset | renewed =>
      exact field_modifyTransaction Transaction.identity (fun _ ↦ by rfl) _ _ txn
  | began => exact field_enter Transaction.identity (fun _ _ ↦ by rfl) _ htxn
  | committed =>
      rw [hfinish]
      exact field_handOver Transaction.identity (fun _ _ _ ↦ by rfl) _ _ txn
  | commitFailed | discarded =>
      rw [hfinish]
      rfl

/-! ## The invariant -/

/-- Transactions are nested in earlier ones of their environment, and their engines tell them apart
by the native handles. -/
structure Anchored (system : System) : Prop where
  parent_lt : ∀ txn parent, (system.transaction txn).parent = some parent → parent < txn
  parent_env : ∀ txn parent, (system.transaction txn).parent = some parent →
    (system.transaction parent).env = (system.transaction txn).env
  env_lt : ∀ txn < system.transactions.length,
    (system.transaction txn).env < system.environments.length
  roster : ∀ env, Engine.Roster (system.engine env)
  native_lt : ∀ txn < system.transactions.length,
    system.native txn < (system.engineOf txn).nextHandle
  native_inj : ∀ txn < system.transactions.length, ∀ other < system.transactions.length,
    (system.transaction txn).env = (system.transaction other).env →
    system.native txn = system.native other → txn = other

/-- The number of a transaction with a parent was given out. -/
theorem lt_of_parent {txn parent : TxnId} (h : (system.transaction txn).parent = some parent) :
    txn < system.transactions.length := by
  by_contra hge
  rw [transaction_of_length_le (Nat.le_of_not_lt hge)] at h
  simp [Transaction.ended] at h

/-- An environment that is open has a number that was given out. -/
theorem env_lt_of_open (h : (system.environment env).closed = false) :
    env < system.environments.length := by
  by_contra hge
  have habsent : system.environment env = .absent := by
    simp [environment, List.getD_eq_getElem?_getD, Nat.le_of_not_lt hge]
  rw [habsent] at h
  simp [Environment.absent] at h

/-- A begin has checked that the environment is open. -/
theorem open_of_beginFault {parent : Option TxnId} {flags : TxnFlags}
    (h : system.beginFault env parent flags = none) :
    (system.environment env).closed = false := by
  unfold beginFault at h
  dsimp only at h
  split at h
  · simp at h
  · rename_i hopen
    simpa using hopen

/-- What a begin has checked: the environment is open, and the parent is an active transaction of
it without children. -/
theorem of_beginFault {parent : Option TxnId} {flags : TxnFlags}
    (h : system.beginFault env parent flags = none) :
    env < system.environments.length ∧
      ∀ outer, parent = some outer → (system.transaction outer).env = env ∧
        (system.transaction outer).lifecycleFault = none := by
  refine ⟨env_lt_of_open (open_of_beginFault h), ?_⟩
  rintro outer rfl
  unfold beginFault at h
  dsimp only at h
  split at h
  · simp at h
  split at h
  · simp at h
  rw [Option.bind_some, nestingFault] at h
  split at h
  · simp at h
  · rename_i henv
    exact ⟨by simpa using henv, h⟩

/-- A transaction that can be used is active. -/
theorem active_of_lifecycleFault {txn : TxnId}
    (h : (system.transaction txn).lifecycleFault = none) :
    (system.transaction txn).state = .active ∧ (system.transaction txn).children = 0 := by
  unfold Transaction.lifecycleFault at h
  split at h <;> simp_all

/-- A transaction that can be used has not ended. -/
theorem unfinished_of_lifecycleFault {txn : TxnId}
    (h : (system.transaction txn).lifecycleFault = none) :
    (system.transaction txn).state.isFinished = false := by
  rw [(active_of_lifecycleFault h).1]
  rfl

/-- A transaction that can be used has a number that was given out. -/
theorem lt_of_lifecycleFault {txn : TxnId} (h : (system.transaction txn).lifecycleFault = none) :
    txn < system.transactions.length :=
  lt_of_state (active_of_lifecycleFault h).1 rfl

/-! ### Begins -/

/-- A begin that is carried out: what it finds, and what it leaves. -/
structure Entrance (system : System) (env : EnvId) (parent : Option TxnId) (flags : TxnFlags)
    (thread native : Nat) (engine : Engine) (after : System) : Prop where
  fault : system.beginFault env parent flags = none
  unlocked : flags.contains TxnFlags.readOnly = false → parent = none →
    (system.environment env).writerLocked = false
  answer : (system.engine env).begin (parent.map system.native) flags thread = (.ok native, engine)
  after_eq : after = (system.setEngine env engine).enter (entrant env parent flags native thread)

namespace Entrance

variable {parent : Option TxnId} {flags : TxnFlags} {thread native : Nat} {engine : Engine}

/-- What it does to its engine. -/
theorem began (h : Entrance system env parent flags thread native engine after) :
    Engine.Began (system.engine env) (parent.map system.native) flags native engine :=
  began_of_begin h.answer

/-- Its environment is there. -/
theorem env_lt (h : Entrance system env parent flags thread native engine after) :
    env < system.environments.length := (of_beginFault h.fault).1

/-- It is a transition. -/
theorem transition (h : Entrance system env parent flags thread native engine after) :
    Transition system (.begin env parent flags thread) after :=
  h.after_eq ▸ .began h.fault h.unlocked h.answer

/-- It adds one transaction. -/
theorem length_eq (h : Entrance system env parent flags thread native engine after) :
    after.transactions.length = system.transactions.length + 1 := by
  rw [h.after_eq]
  exact length_enter _ _

/-- The transaction that it begins. -/
theorem transaction_eq (h : Entrance system env parent flags thread native engine after) :
    after.transaction system.transactions.length = entrant env parent flags native thread := by
  rw [h.after_eq]
  exact transaction_enter (system.setEngine env engine) _

/-- The handle of the transaction. -/
theorem native_eq (h : Entrance system env parent flags thread native engine after) :
    after.native system.transactions.length = native :=
  congrArg (·.native) h.transaction_eq

/-- What every number names after it. -/
theorem outcome (h : Entrance system env parent flags thread native engine after) (txn : TxnId) :
    EnterOutcome system (entrant env parent flags native thread) txn (after.transaction txn) := by
  rw [h.after_eq]
  have houtcome := (system.setEngine env engine).enter_outcome (entrant env parent flags native thread) txn
  generalize System.transaction _ txn = found at houtcome ⊢
  cases houtcome with
  | kept children hlt => exact .kept children hlt
  | entered => exact .entered
  | beyond hgt => exact .beyond hgt

/-- What holds of the earlier transactions, however many children they have, and of the one that it
begins, holds of all transactions after it. -/
theorem induction (h : Entrance system env parent flags thread native engine after)
    {motive : TxnId → Transaction → Prop}
    (hkept : ∀ txn children, txn < system.transactions.length →
      motive txn { system.transaction txn with children := children })
    (hentered : motive system.transactions.length (entrant env parent flags native thread))
    {txn : TxnId} (htxn : txn < after.transactions.length) : motive txn (after.transaction txn) := by
  have houtcome := h.outcome txn
  rw [h.length_eq] at htxn
  generalize after.transaction txn = found at houtcome ⊢
  cases houtcome with
  | kept children hlt => exact hkept txn children hlt
  | entered => exact hentered
  | beyond hgt => exact absurd htxn (Nat.not_lt_of_le hgt)

/-- The engine of its environment. -/
theorem engine_eq (h : Entrance system env parent flags thread native engine after) :
    after.engine env = engine := by
  rw [h.after_eq, engine_enter]
  exact engine_setEngine engine h.env_lt

/-- The engine of the transaction. -/
theorem engineOf_eq (h : Entrance system env parent flags thread native engine after) :
    after.engineOf system.transactions.length = engine := by
  rw [engineOf, h.transaction_eq]
  exact h.engine_eq

/-- The engines of the other environments. -/
theorem engine_of_ne (h : Entrance system env parent flags thread native engine after)
    {other : EnvId} (hother : other ≠ env) : after.engine other = system.engine other := by
  rw [h.after_eq, engine_enter]
  exact engine_setEngine_of_ne engine hother

end Entrance

/-- A begin that gives a transaction is carried out, and gives the next one. -/
theorem entrance_of_begin {parent : Option TxnId} {flags : TxnFlags} {thread : Nat} {txn : TxnId}
    (h : (system.begin env parent flags thread).result = .ok txn) :
    txn = system.transactions.length ∧ ∃ native engine, Entrance system env parent flags thread native
      engine (system.after (.begin env parent flags thread)) := by
  rcases system.begin_cases env parent flags thread with
    ⟨refusal, hrefused, -⟩ | ⟨native, engine, hfault, hunlocked, hanswer, hresult, hstate⟩
  · simp [h] at hrefused
  · exact ⟨Except.ok.inj (h.symm.trans hresult), native, engine, hfault, hunlocked, hanswer, hstate⟩

/-- A transition begins no transaction, or is a begin that is carried out. -/
theorem Transition.length_cases (h : Transition system action after) :
    after.transactions.length = system.transactions.length ∨
      ∃ env parent flags thread native engine, action = .begin env parent flags thread ∧
        Entrance system env parent flags thread native engine after := by
  rcases h.length.1 with hlength | ⟨⟨env, parent, flags, thread, rfl⟩, hlength⟩
  · exact .inl hlength
  cases h with
  | idle | files | aside => exact .inl rfl
  | used use haction => cases haction
  | discarded haction => simp at haction
  | began hfault hunlocked hanswer =>
      exact .inr ⟨_, _, _, _, _, _, rfl, hfault, hunlocked, hanswer, rfl⟩

/-- A transaction that is there only after a transition was begun by it. -/
theorem Transition.of_new (h : Transition system action after) {txn : TxnId}
    (hnew : system.transactions.length ≤ txn) (htxn : txn < after.transactions.length) :
    txn = system.transactions.length ∧
      ∃ env parent flags thread native engine, action = .begin env parent flags thread ∧
        Entrance system env parent flags thread native engine after := by
  rcases h.length_cases with hlength |
    ⟨env, parent, flags, thread, native, engine, rfl, hentrance⟩
  · exact absurd (hlength ▸ htxn) (Nat.not_lt_of_le hnew)
  rw [hentrance.length_eq] at htxn
  exact ⟨Nat.le_antisymm (Nat.le_of_lt_succ htxn) hnew, env, parent, flags, thread, native, engine,
    rfl, hentrance⟩

/-! ### Transactions told apart -/

/-- Before any environment was opened there is nothing to tell apart. -/
theorem anchored_start (checks : Bool) (files : Files.Tree) :
    Anchored { checks := checks, files := files } := by
  have hended : ∀ txn parent, (System.transaction { checks := checks, files := files } txn).parent
      ≠ some parent := fun _ _ ↦ nofun
  have hempty : ∀ txn, ¬ txn < (System.transactions { checks := checks, files := files }).length :=
    fun _ h ↦ Nat.not_lt_zero _ h
  have hnewborn : ∀ env, Engine.Newborn (System.engine { checks := checks, files := files } env) :=
    fun _ ↦ ⟨rfl, rfl, rfl, rfl, rfl⟩
  refine ⟨?_, ?_, ?_, ?_, ?_, ?_⟩
  · exact fun txn parent h ↦ absurd h (hended txn parent)
  · exact fun txn parent h ↦ absurd h (hended txn parent)
  · exact fun txn h ↦ absurd h (hempty txn)
  · exact fun env ↦ (hnewborn env).roster
  · exact fun txn h ↦ absurd h (hempty txn)
  · exact fun txn h ↦ absurd h (hempty txn)

/-- The rosters after a transition. -/
theorem Transition.roster (h : Transition system action after)
    (hroster : ∀ env, Engine.Roster (system.engine env)) (env : EnvId) :
    Engine.Roster (after.engine env) := by
  rcases Nat.lt_or_ge env system.environments.length with hlt | hge
  · exact ((hroster env).of_turn (h.turn hroster hlt)).1
  · exact (h.newborn hge).1.roster

/-- A transition that begins no transaction keeps transactions apart. -/
theorem Anchored.of_length_eq (h : Anchored system) (htransition : Transition system action after)
    (hlength : after.transactions.length = system.transactions.length) : Anchored after := by
  have hidentity : ∀ txn, (after.transaction txn).identity = (system.transaction txn).identity := by
    intro txn
    rcases Nat.lt_or_ge txn system.transactions.length with hlt | hge
    · exact htransition.identity hlt
    · rw [transaction_of_length_le hge, transaction_of_length_le (hlength ▸ hge)]
  have henv : ∀ txn, (after.transaction txn).env = (system.transaction txn).env :=
    fun txn ↦ congrArg (·.1) (hidentity txn)
  have hnative : ∀ txn, after.native txn = system.native txn :=
    fun txn ↦ congrArg (·.2.1) (hidentity txn)
  have hparent : ∀ txn, (after.transaction txn).parent = (system.transaction txn).parent :=
    fun txn ↦ congrArg (·.2.2.2) (hidentity txn)
  refine ⟨?_, ?_, ?_, htransition.roster h.roster, ?_, ?_⟩
  · intro txn parent hp
    exact h.parent_lt txn parent (hparent txn ▸ hp)
  · intro txn parent hp
    rw [henv, henv]
    exact h.parent_env txn parent (hparent txn ▸ hp)
  · intro txn htxn
    rw [henv]
    exact Nat.lt_of_lt_of_le (h.env_lt txn (hlength ▸ htxn)) htransition.length.2
  · intro txn htxn
    have hlt := hlength ▸ htxn
    have hturn := htransition.turn h.roster (h.env_lt txn hlt)
    rw [hnative, engineOf, henv]
    exact Nat.lt_of_lt_of_le (h.native_lt txn hlt) ((h.roster _).of_turn hturn).2.1
  · intro txn htxn other hother hsame heq
    rw [henv, henv] at hsame
    rw [hnative, hnative] at heq
    exact h.native_inj txn (hlength ▸ htxn) other (hlength ▸ hother) hsame heq

/-- The handle that an engine gives out next is none of those in use. -/
theorem Anchored.native_ne (h : Anchored system) {txn : TxnId}
    (htxn : txn < system.transactions.length) (henv : (system.transaction txn).env = env) :
    (system.transaction txn).native ≠ (system.engine env).nextHandle := by
  subst henv
  exact Nat.ne_of_lt (h.native_lt txn htxn)

/-- A begin keeps transactions apart: the new one has a handle that no other has. -/
theorem Anchored.began (h : Anchored system) {parent : Option TxnId} {flags : TxnFlags}
    {thread native : Nat} {engine : Engine}
    (hentrance : Entrance system env parent flags thread native engine after) : Anchored after := by
  have htransition := hentrance.transition
  have hidentity {txn : TxnId} (htxn : txn < system.transactions.length) :=
    htransition.identity htxn
  have houter := (of_beginFault hentrance.fault).2
  obtain ⟨-, hnext, -, hnative⟩ := hentrance.began.later
  refine ⟨fun txn outer hparent ↦ ?_, fun txn outer hparent ↦ ?_, fun txn htxn ↦ ?_,
    htransition.roster h.roster, fun txn htxn ↦ ?_, fun txn htxn other hother ↦ ?_⟩
  · have hfound := hentrance.outcome txn
    generalize after.transaction txn = found at hfound hparent
    cases hfound with
    | kept => exact h.parent_lt txn outer hparent
    | entered => exact lt_of_lifecycleFault (houter outer hparent).2
    | beyond => cases hparent
  · have hfound := hentrance.outcome txn
    generalize after.transaction txn = found at hfound hparent ⊢
    cases hfound with
    | kept _ hlt =>
        have houterLt := Nat.lt_trans (h.parent_lt txn outer hparent) hlt
        exact (congrArg (·.1) (hidentity houterLt)).trans (h.parent_env txn outer hparent)
    | entered =>
        obtain ⟨houterEnv, houterFault⟩ := houter outer hparent
        exact (congrArg (·.1) (hidentity (lt_of_lifecycleFault houterFault))).trans houterEnv
    | beyond => cases hparent
  · refine Nat.lt_of_lt_of_le ?_ htransition.length.2
    exact hentrance.induction (motive := fun _ found ↦ found.env < system.environments.length)
      (fun txn _ hlt ↦ h.env_lt txn hlt) hentrance.env_lt htxn
  · refine hentrance.induction (motive := fun _ found ↦
      found.native < (after.engine found.env).nextHandle) (fun txn _ hlt ↦ ?_) ?_ htxn
    · have hturn := htransition.turn h.roster (h.env_lt txn hlt)
      exact Nat.lt_of_lt_of_le (h.native_lt txn hlt) ((h.roster _).of_turn hturn).2.1
    · show native < (after.engine env).nextHandle
      rw [hentrance.engine_eq]
      omega
  · -- Two handles can only coincide if neither is new: the new one was free before.
    have hfresh : ∀ {txn : TxnId}, txn < system.transactions.length →
        (system.transaction txn).env = env → (system.transaction txn).native ≠ native :=
      fun htxn henv ↦ hnative ▸ h.native_ne htxn henv
    refine hentrance.induction (motive := fun txn found ↦ found.env = (after.transaction other).env →
      found.native = after.native other → txn = other) ?_ ?_ htxn
    · intro txn _ hlt
      refine hentrance.induction (motive := fun other found ↦ (system.transaction txn).env = found.env →
        system.native txn = found.native → txn = other) ?_ ?_ hother
      · exact fun other _ hlt' ↦ h.native_inj txn hlt other hlt'
      · exact fun hsame heq ↦ absurd heq (hfresh hlt hsame)
    · refine hentrance.induction (motive := fun other found ↦ env = found.env →
        native = found.native → system.transactions.length = other) ?_ ?_ hother
      · exact fun other _ hlt hsame heq ↦ absurd heq.symm (hfresh hlt hsame.symm)
      · exact fun _ _ ↦ rfl

/-- A transition keeps transactions apart. -/
theorem Anchored.transition (h : Anchored system) (htransition : Transition system action after) :
    Anchored after := by
  rcases htransition.length_cases with hlength | ⟨_, _, _, _, _, _, rfl, hentrance⟩
  · exact h.of_length_eq htransition hlength
  · exact h.began hentrance

end System

end MappedStore
