import MappedStore.Proofs.Sound

/-!
# How the scopes of handles change

Few actions change what transactions have recorded or what environments retain: opens, drops,
commits and the closing of an environment. `System.Rescoped` lists what they do, so that a proof
about live generations has no other cases to look at (`System.Transition.rescoped`).
-/

namespace MappedStore.System

variable {system after : System} {action : Action} {env : EnvId} {txn : TxnId}
  {slot generation : Nat}

/-- The opens and drops that a transaction has recorded. -/
def scope (system : System) (txn : TxnId) : Opens × List Nat :=
  ((system.transaction txn).opened, (system.transaction txn).dropped)

/-- What an environment retains. -/
def retained (system : System) (env : EnvId) : Opens := (system.environment env).retained

/-- The generation that an environment gives out next. -/
def nextGeneration (system : System) (env : EnvId) : Nat :=
  (system.environment env).nextGeneration

/-- What an action can do to the scopes of a process. -/
inductive Rescoped (system : System) : Action → System → Prop where
  | same {action : Action} {after : System}
      (scope : ∀ txn, after.scope txn = system.scope txn)
      (retained : ∀ env < system.environments.length, after.retained env = system.retained env) :
      Rescoped system action after
  | closed {env : EnvId} {after : System} (hactive : (system.environment env).active = 0)
      (scope : ∀ txn, after.scope txn = system.scope txn)
      (retained : ∀ other, after.retained other = system.retained other ∨
        other = env ∧ after.retained other = []) :
      Rescoped system (.close env) after
  | opened {txn : TxnId} {name : Option String} {flags : DbFlags} {slot generation : Nat}
      {after : System} {engine : Engine} (hfault : (system.transaction txn).lifecycleFault = none)
      (hopen : (system.engineOf txn).openDatabase (system.native txn) (name.map Bytes.ofText) flags
        = (.ok slot, engine))
      (hgeneration : system.liveGeneration txn slot = some generation ∨
        system.liveGeneration txn slot = none ∧
          generation = system.nextGeneration (system.transaction txn).env)
      (scope : after.scope txn = ((slot, generation) :: (system.transaction txn).opened,
        (system.transaction txn).dropped))
      (others : ∀ other ≠ txn, after.scope other = system.scope other)
      (retained : ∀ env, after.retained env = system.retained env) :
      Rescoped system (.openDatabase txn name flags) after
  | dropped {txn : TxnId} {database : Database} {after : System} {engine : Engine}
      (hfault : (system.transaction txn).lifecycleFault = none)
      (hdrop : (system.engineOf txn).drop (system.native txn) database.slot true
        = (.ok (), engine))
      (scope : after.scope txn = ((system.transaction txn).opened.filter (·.1 ≠ database.slot),
        database.slot :: (system.transaction txn).dropped))
      (others : ∀ other ≠ txn, after.scope other = system.scope other)
      (retained : ∀ env, after.retained env = system.retained env) :
      Rescoped system (.dropDatabase txn database) after
  | nested {txn parent : TxnId} {after : System}
      (hfault : (system.transaction txn).lifecycleFault = none)
      (hcommit : (system.commit txn).result = .ok ())
      (hparent : (system.transaction txn).parent = some parent)
      (scope : after.scope txn = ([], []))
      (outer : after.scope parent =
        (Opens.merge (system.transaction parent).opened (system.transaction txn).opened
            (system.transaction txn).dropped,
          (system.transaction txn).dropped ++ (system.transaction parent).dropped))
      (others : ∀ other ≠ txn, other ≠ parent → after.scope other = system.scope other)
      (retained : ∀ env, after.retained env = system.retained env) :
      Rescoped system (.commit txn) after
  | root {txn : TxnId} {after : System}
      (hfault : (system.transaction txn).lifecycleFault = none)
      (hcommit : (system.commit txn).result = .ok ())
      (hparent : (system.transaction txn).parent = none)
      (scope : after.scope txn = ([], []))
      (others : ∀ other ≠ txn, after.scope other = system.scope other)
      (retained : after.retained (system.transaction txn).env =
        Opens.merge (system.retained (system.transaction txn).env) (system.transaction txn).opened
          (system.transaction txn).dropped)
      (apart : ∀ env ≠ (system.transaction txn).env, after.retained env = system.retained env) :
      Rescoped system (.commit txn) after

/-! ## Looking up generations -/

/-- A look-up among the entries whose slots satisfy a condition. -/
theorem lookup_filter (opens : Opens) (keep : Nat → Bool) (slot : Nat) :
    (opens.filter fun entry ↦ keep entry.1).lookup slot
      = if keep slot then opens.lookup slot else none := by
  induction opens with
  | nil => simp
  | cons entry rest ih =>
      obtain ⟨head, generation⟩ := entry
      by_cases hslot : slot = head
      · subst hslot
        cases hkeep : keep slot <;> simp [hkeep, ih]
      · have hne : (slot == head) = false := by simpa using hslot
        cases hkeep : keep head <;> simp [hkeep, List.lookup_cons, hne, ih]

/-- A look-up in merged scopes finds what the inner one has opened, or, if that has not dropped the
slot, what the outer one has. -/
theorem lookup_merge (outer opened : Opens) (dropped : List Nat) (slot : Nat) :
    (Opens.merge outer opened dropped).lookup slot =
      (opened.lookup slot).or (if slot ∈ dropped then none else outer.lookup slot) := by
  rw [Opens.merge, List.lookup_append, lookup_filter outer fun head ↦ !dropped.contains head]
  by_cases h : slot ∈ dropped <;> simp [h]

/-! ## Each kind of transition -/

/-- A change of one transaction that is not of its scope. -/
theorem scope_modifyTransaction {change : Transaction → Transaction}
    (h : ∀ before, ((change before).opened, (change before).dropped)
      = (before.opened, before.dropped)) (txn other : TxnId) :
    (system.modifyTransaction txn change).scope other = system.scope other :=
  field_modifyTransaction (fun before ↦ (before.opened, before.dropped)) h system txn other

/-- Another engine leaves what is retained. -/
theorem retained_setEngine (engine : Engine) (other : EnvId) :
    (system.setEngine env engine).retained other = system.retained other :=
  (environment_setEngine system env other engine).1

/-- The end of a transaction leaves all scopes. -/
theorem scope_finish (txn : TxnId) (state : TxnState) (other : TxnId) :
    (system.finish txn state).scope other = system.scope other :=
  field_finish (fun before ↦ (before.opened, before.dropped)) (fun _ _ _ _ ↦ by rfl) system txn
    state other

/-- The end of a transaction leaves what is retained. -/
theorem retained_finish (txn : TxnId) (state : TxnState) (env : EnvId) :
    (system.finish txn state).retained env = system.retained env :=
  field_environment_finish (·.retained) (fun _ _ _ ↦ by rfl) system txn state env

/-- A transaction that was not there has recorded nothing. -/
theorem scope_of_length_le (h : system.transactions.length ≤ txn) :
    system.scope txn = ([], []) := by
  rw [scope, transaction_of_length_le h]
  rfl

/-- An entry leaves all scopes: a new transaction has recorded nothing, like one that is not
there. -/
theorem scope_enter {entering : Transaction} (hopened : entering.opened = [])
    (hdropped : entering.dropped = []) (txn : TxnId) :
    (system.enter entering).scope txn = system.scope txn := by
  have houtcome := system.enter_outcome entering txn
  rw [scope]
  generalize (system.enter entering).transaction txn = after at houtcome ⊢
  cases houtcome with
  | kept => rfl
  | entered => rw [scope_of_length_le (Nat.le_refl _), hopened, hdropped]
  | beyond hgt => exact (scope_of_length_le (Nat.le_of_lt hgt)).symm

/-- A transaction that has handed over what it had recorded. -/
theorem scope_emptied (htxn : txn < system.transactions.length) :
    (system.modifyTransaction txn fun emptied ↦
        { emptied with opened := [], dropped := [] }).scope txn = ([], []) ∧
      ∀ other ≠ txn, (system.modifyTransaction txn fun emptied ↦
        { emptied with opened := [], dropped := [] }).scope other = system.scope other := by
  constructor
  · rw [scope, transaction_modifyTransaction_self _ _ htxn]
  · intro other hother
    rw [scope, transaction_modifyTransaction_of_ne _ _ hother]
    rfl

/-- A commit into a parent moves the scope of the transaction there. -/
theorem handOver_nested {parent : TxnId} (hparent : (system.transaction txn).parent = some parent)
    (hne : parent ≠ txn) (htxn : txn < system.transactions.length)
    (houter : parent < system.transactions.length) :
    (system.handOver txn).scope txn = ([], []) ∧
      (system.handOver txn).scope parent =
        (Opens.merge (system.transaction parent).opened (system.transaction txn).opened
            (system.transaction txn).dropped,
          (system.transaction txn).dropped ++ (system.transaction parent).dropped) ∧
      (∀ other ≠ txn, other ≠ parent → (system.handOver txn).scope other = system.scope other) ∧
      ∀ env, (system.handOver txn).retained env = system.retained env := by
  obtain ⟨hself, hothers⟩ := scope_emptied htxn
  have hsame := transaction_modifyTransaction_of_ne system (fun emptied ↦
    { emptied with opened := [], dropped := [] }) hne
  unfold handOver
  dsimp only
  rw [hparent]
  generalize hemptied : (system.modifyTransaction txn fun emptied ↦
    { emptied with opened := [], dropped := [] }) = emptied at *
  have hlength : parent < emptied.transactions.length := by
    rw [← hemptied, length_modifyTransaction]
    exact houter
  refine ⟨?_, ?_, ?_, fun env ↦ by rw [← hemptied]; rfl⟩
  · rw [scope, transaction_modifyTransaction_of_ne _ _ (Ne.symm hne)]
    exact hself
  · rw [scope, transaction_modifyTransaction_self _ _ hlength, hsame]
  · intro other hother hother'
    rw [scope, transaction_modifyTransaction_of_ne _ _ hother']
    exact hothers other hother

/-- A commit of a root moves the scope of the transaction to its environment. -/
theorem handOver_root (hparent : (system.transaction txn).parent = none)
    (htxn : txn < system.transactions.length)
    (henv : (system.transaction txn).env < system.environments.length) :
    (system.handOver txn).scope txn = ([], []) ∧
      (∀ other ≠ txn, (system.handOver txn).scope other = system.scope other) ∧
      (system.handOver txn).retained (system.transaction txn).env =
        Opens.merge (system.retained (system.transaction txn).env) (system.transaction txn).opened
          (system.transaction txn).dropped ∧
      ∀ env ≠ (system.transaction txn).env,
        (system.handOver txn).retained env = system.retained env := by
  obtain ⟨hself, hothers⟩ := scope_emptied htxn
  unfold handOver
  dsimp only
  rw [hparent]
  dsimp only
  generalize hemptied : (system.modifyTransaction txn fun emptied ↦
    { emptied with opened := [], dropped := [] }) = emptied at *
  have hsame : ∀ env, emptied.environment env = system.environment env := fun env ↦ by
    rw [← hemptied]
    rfl
  have hlength : (system.transaction txn).env < emptied.environments.length := by
    rw [← hemptied]
    exact henv
  refine ⟨hself, hothers, ?_, fun env hne ↦ ?_⟩
  · rw [retained, environment_modifyEnvironment_self _ _ hlength, hsame]
    rfl
  · rw [retained, environment_modifyEnvironment_of_ne _ _ hne, hsame]
    rfl

/-! ## All transitions -/

/-- A commit succeeds if the transaction can be used and its engine commits it. -/
theorem commit_result {engine : Engine} (hfault : (system.transaction txn).lifecycleFault = none)
    (hcommit : (system.engineOf txn).commit (system.native txn) = (.ok (), engine)) :
    (system.commit txn).result = .ok () := by
  have houtcome := system.commit_outcome txn
  generalize system.commit txn = outcome at houtcome ⊢
  cases houtcome with
  | unready hunready =>
      rw [hfault] at hunready
      cases hunready
  | failed _ hfailed =>
      rw [hcommit] at hfailed
      cases hfailed
  | committed => rfl

/-- Only a transaction that can be used is committed. -/
theorem lifecycleFault_of_commit (hcommit : (system.commit txn).result = .ok ()) :
    (system.transaction txn).lifecycleFault = none := by
  obtain ⟨engine, hfault, -⟩ := commit_ok hcommit
  exact hfault

/-- The scopes after a commit into a parent. -/
theorem scopes_commit_nested {parent : TxnId} (hanchored : Anchored system)
    (hcommit : (system.commit txn).result = .ok ())
    (hparent : (system.transaction txn).parent = some parent) :
    (system.commit txn).state.scope txn = ([], []) ∧
      (system.commit txn).state.scope parent =
        (Opens.merge (system.transaction parent).opened (system.transaction txn).opened
            (system.transaction txn).dropped,
          (system.transaction txn).dropped ++ (system.transaction parent).dropped) ∧
      (∀ other ≠ txn, other ≠ parent →
        (system.commit txn).state.scope other = system.scope other) ∧
      ∀ env, (system.commit txn).state.retained env = system.retained env := by
  obtain ⟨engine, hfault, -, hstate⟩ := commit_ok hcommit
  have hset : txn < (system.setEngineOf txn engine).transactions.length :=
    lt_of_lifecycleFault hfault
  have hlt := hanchored.parent_lt txn parent hparent
  have hparent' : ((system.setEngineOf txn engine).transaction txn).parent = some parent := hparent
  obtain ⟨hself, houter, hothers, hretained⟩ :=
    handOver_nested hparent' (Nat.ne_of_lt hlt) hset (Nat.lt_trans hlt hset)
  rw [hstate]
  exact ⟨(scope_finish _ _ _).trans hself, (scope_finish _ _ _).trans houter,
    fun other hne hne' ↦ (scope_finish _ _ _).trans (hothers other hne hne'),
    fun env ↦ ((retained_finish _ _ _).trans (hretained env)).trans (retained_setEngine _ env)⟩

/-- The scopes after the commit of a root. -/
theorem scopes_commit_root (hanchored : Anchored system)
    (hcommit : (system.commit txn).result = .ok ())
    (hparent : (system.transaction txn).parent = none) :
    (system.commit txn).state.scope txn = ([], []) ∧
      (∀ other ≠ txn, (system.commit txn).state.scope other = system.scope other) ∧
      (system.commit txn).state.retained (system.transaction txn).env =
        Opens.merge (system.retained (system.transaction txn).env) (system.transaction txn).opened
          (system.transaction txn).dropped ∧
      ∀ env ≠ (system.transaction txn).env,
        (system.commit txn).state.retained env = system.retained env := by
  obtain ⟨engine, hfault, -, hstate⟩ := commit_ok hcommit
  have htxn := lt_of_lifecycleFault hfault
  have hset : txn < (system.setEngineOf txn engine).transactions.length := htxn
  have hparent' : ((system.setEngineOf txn engine).transaction txn).parent = none := hparent
  have henv : ((system.setEngineOf txn engine).transaction txn).env
      < (system.setEngineOf txn engine).environments.length := by
    rw [setEngineOf, setEngine, length_modifyEnvironment]
    exact hanchored.env_lt txn htxn
  obtain ⟨hself, hothers, hretained, hapart⟩ := handOver_root hparent' hset henv
  have hbefore : (system.setEngineOf txn engine).retained (system.transaction txn).env
      = system.retained (system.transaction txn).env := retained_setEngine _ _
  rw [hstate]
  refine ⟨(scope_finish _ _ _).trans hself,
    fun other hne ↦ (scope_finish _ _ _).trans (hothers other hne),
    ((retained_finish _ _ _).trans hretained).trans (congrArg (Opens.merge · _ _) hbefore),
    fun env hne ↦ ?_⟩
  exact ((retained_finish _ _ _).trans (hapart env hne)).trans (retained_setEngine _ env)

/-- A scope that has recorded an open. -/
theorem scope_recordOpen (htxn : txn < system.transactions.length) :
    (system.recordOpen txn slot generation).scope txn =
        ((slot, generation) :: (system.transaction txn).opened,
          (system.transaction txn).dropped) ∧
      ∀ other ≠ txn, (system.recordOpen txn slot generation).scope other = system.scope other := by
  constructor
  · rw [scope, recordOpen, transaction_modifyTransaction_self _ _ htxn]
  · intro other hother
    rw [scope, recordOpen, transaction_modifyTransaction_of_ne _ _ hother]
    rfl

/-- An open of a database that is carried out. The engine gives the slot, the handle gets the
generation that is live in it or a new one, and the transaction records both. -/
structure OpenedThrough (system : System) (txn : TxnId) (name : Option String) (flags : DbFlags)
    (database : Database) (engine : Engine) (after : System) : Prop where
  fault : (system.transaction txn).lifecycleFault = none
  answer : (system.engineOf txn).openDatabase (system.native txn) (name.map Bytes.ofText) flags
    = (.ok database.slot, engine)
  env_eq : database.env = (system.transaction txn).env
  name_eq : database.name = name
  generation : system.liveGeneration txn database.slot = some database.generation ∨
    system.liveGeneration txn database.slot = none ∧
      database.generation = system.nextGeneration (system.transaction txn).env
  engine_eq : ∀ env, after.engine env = (system.setEngineOf txn engine).engine env
  scope_eq : after.scope txn =
    ((database.slot, database.generation) :: (system.transaction txn).opened,
      (system.transaction txn).dropped)
  scope_of_ne : ∀ other ≠ txn, after.scope other = system.scope other
  retained_eq : ∀ env, after.retained env = system.retained env

/-- The record of the open comes before those that the transaction has made. -/
theorem OpenedThrough.opened_eq {name : Option String} {flags : DbFlags} {database : Database}
    {engine : Engine} (h : OpenedThrough system txn name flags database engine after) :
    (after.transaction txn).opened
      = (database.slot, database.generation) :: (system.transaction txn).opened :=
  congrArg Prod.fst h.scope_eq

/-- An open that gives a handle is carried out. -/
theorem openedThrough_of_ok {name : Option String} {flags : DbFlags} {database : Database}
    (hopen : (system.openThrough txn name flags).result = .ok database) :
    ∃ engine, OpenedThrough system txn name flags database engine
      (system.after (.openDatabase txn name flags)) := by
  change ∃ engine, OpenedThrough system txn name flags database engine
    (system.openThrough txn name flags).state
  have houtcome := system.openThrough_outcome txn name flags
  generalize system.openThrough txn name flags = outcome at hopen houtcome ⊢
  cases houtcome with
  | unready | misnamed | failed => cases hopen
  | @reopened slot generation engine hfault hanswer hlive =>
      cases hopen
      have htxn : txn < (system.setEngineOf txn engine).transactions.length :=
        lt_of_lifecycleFault hfault
      exact ⟨engine, hfault, hanswer, rfl, rfl, .inl hlive, engine_recordOpen _ _ _ _,
        (scope_recordOpen htxn).1, (scope_recordOpen htxn).2, fun env ↦ retained_setEngine _ env⟩
  | @opened slot engine hfault hanswer hlive =>
      cases hopen
      have htxn : txn < ((system.setEngineOf txn engine).advance
          (system.transaction txn).env).transactions.length := lt_of_lifecycleFault hfault
      have hretained : ∀ env, ((system.setEngineOf txn engine).advance
          (system.transaction txn).env).retained env = (system.setEngineOf txn engine).retained env :=
        field_modifyEnvironment (·.retained) (fun _ ↦ by rfl) _ _
      exact ⟨engine, hfault, hanswer, rfl, rfl, .inr ⟨hlive, rfl⟩,
        fun env ↦ (engine_recordOpen _ _ _ _ _).trans (engine_advance _ _ _),
        (scope_recordOpen htxn).1, (scope_recordOpen htxn).2,
        fun env ↦ (hretained env).trans (retained_setEngine _ env)⟩

/-- A scope that has recorded a drop. -/
theorem scope_recordDrop (htxn : txn < system.transactions.length) :
    (system.recordDrop txn slot).scope txn =
        ((system.transaction txn).opened.filter (·.1 ≠ slot),
          slot :: (system.transaction txn).dropped) ∧
      ∀ other ≠ txn, (system.recordDrop txn slot).scope other = system.scope other := by
  constructor
  · rw [scope, recordDrop, transaction_modifyTransaction_self _ _ htxn]
  · intro other hother
    rw [scope, recordDrop, transaction_modifyTransaction_of_ne _ _ hother]
    rfl

/-- In a root that has just begun, what its environment retains is live. -/
theorem liveGeneration_begin (hsound : Sound system) {flags : TxnFlags} {thread : Nat}
    (hbegin : (system.begin env none flags thread).result = .ok txn) (slot : Nat) :
    (system.begin env none flags thread).state.liveGeneration txn slot
      = (system.retained env).lookup slot := by
  have hbegun : Sound (system.begin env none flags thread).state :=
    hsound.act (.begin env none flags thread)
  obtain ⟨rfl, native, engine, hentrance⟩ := entrance_of_begin hbegin
  change Entrance system env none flags thread native engine (system.begin env none flags thread).state
    at hentrance
  have hretained : (system.begin env none flags thread).state.retained env = system.retained env := by
    rw [hentrance.after_eq]
    exact (field_environment_enter (·.retained) (fun _ _ _ ↦ by rfl) _ _ env).trans
      (retained_setEngine engine env)
  rw [liveGeneration_eq hbegun.anchored, hentrance.transaction_eq]
  simp only [Transaction.record?, entrant, List.lookup_nil, List.contains_nil]
  exact congrArg (List.lookup slot) hretained

/-- What a transition does to the scopes of a process is among what `Rescoped` lists. -/
theorem Transition.rescoped (h : Transition system action after) (hanchored : Anchored system) :
    Rescoped system action after := by
  cases h with
  | idle | files => exact .same (fun _ ↦ rfl) fun _ _ ↦ rfl
  | openedEnvironment hopen =>
      exact .same (fun _ ↦ rfl) fun env henv ↦
        congrArg (·.retained) (environment_append _ _ henv)
  | @closed env files hactive =>
      refine .closed hactive (fun _ ↦ rfl) fun other ↦ ?_
      by_cases hother : other = env
      · subst hother
        have hcases : ∀ env, ((system.modifyEnvironment other
            ({ · with closed := true, retained := [] })).retained env
              = system.retained env ∨ (system.modifyEnvironment other
            ({ · with closed := true, retained := [] })).retained env = []) :=
          modifyEnvironment_induction (fun before after ↦
            after.retained = before.retained ∨ after.retained = []) (fun _ ↦ .inl rfl) (.inr rfl)
        exact (hcases other).imp_right fun h ↦ ⟨rfl, h⟩
      · refine .inl ?_
        have hsame := environment_modifyEnvironment_of_ne system
          ({ · with closed := true, retained := [] }) hother
        exact congrArg (·.retained) hsame
  | aside | used => exact .same (fun _ ↦ rfl) fun env _ ↦ retained_setEngine _ env
  | @reopened txn name flags slot generation engine hfault hopen hlive =>
      have hrecord : txn < (system.setEngineOf txn engine).transactions.length :=
        lt_of_lifecycleFault hfault
      obtain ⟨hself, hothers⟩ := scope_recordOpen hrecord
      exact .opened hfault hopen (.inl hlive) hself hothers fun env ↦ retained_setEngine _ env
  | @opened txn name flags slot engine hfault hopen hlive =>
      have hrecord : txn < ((system.setEngineOf txn engine).advance
          (system.transaction txn).env).transactions.length := lt_of_lifecycleFault hfault
      obtain ⟨hself, hothers⟩ := scope_recordOpen hrecord
      refine .opened hfault hopen (.inr ⟨hlive, rfl⟩) hself hothers fun env ↦ ?_
      have hadvance : ((system.setEngineOf txn engine).advance
          (system.transaction txn).env).retained env
            = (system.setEngineOf txn engine).retained env :=
        field_modifyEnvironment (·.retained) (fun _ ↦ by rfl) _ _ env
      exact hadvance.trans (retained_setEngine _ env)
  | @dropped txn database engine hfault henv hlive hslot hdrop =>
      have hrecord : txn < (system.setEngineOf txn engine).transactions.length :=
        lt_of_lifecycleFault hfault
      obtain ⟨hself, hothers⟩ := scope_recordDrop hrecord
      exact .dropped hfault hdrop hself hothers fun env ↦ retained_setEngine _ env
  | @began env parent flags thread native engine hfault hwriter hbegin =>
      refine .same (fun txn ↦ scope_enter rfl rfl txn) fun other _ ↦ ?_
      have henter : ((system.setEngine env engine).enter
          (entrant env parent flags native thread)).retained other
            = (system.setEngine env engine).retained other :=
        field_environment_enter (·.retained) (fun _ _ _ ↦ by rfl) _ _ other
      exact henter.trans (retained_setEngine _ other)
  | @committed txn engine hfault hcommit =>
      have hresult := commit_result hfault hcommit
      have hstate : (system.commit txn).state =
          ((system.setEngineOf txn engine).handOver txn).finish txn .committed := by
        obtain ⟨_, -, hengine, hstate⟩ := commit_ok hresult
        obtain rfl : engine = _ := congrArg Prod.snd (hcommit.symm.trans hengine)
        exact hstate
      rw [← hstate]
      cases hparent : (system.transaction txn).parent with
      | some parent =>
          obtain ⟨hself, houter, hothers, hretained⟩ :=
            scopes_commit_nested hanchored hresult hparent
          exact .nested hfault hresult hparent hself houter hothers hretained
      | none =>
          obtain ⟨hself, hothers, hretained, hapart⟩ :=
            scopes_commit_root hanchored hresult hparent
          exact .root hfault hresult hparent hself hothers hretained hapart
  | commitFailed | discarded =>
      refine .same (fun _ ↦ scope_finish _ _ _) fun env _ ↦ ?_
      exact (retained_finish _ _ _).trans (retained_setEngine _ env)
  | reset | renewed =>
      exact .same (fun _ ↦ scope_modifyTransaction (fun _ ↦ by rfl) _ _) fun env _ ↦
        retained_setEngine _ env

/-- No environment takes back a generation that it gave out. -/
theorem Transition.nextGeneration_le (h : Transition system action after)
    (henv : env < system.environments.length) :
    system.nextGeneration env ≤ after.nextGeneration env := by
  have hset : ∀ (place : EnvId) (engine : Engine),
      (system.setEngine place engine).nextGeneration env = system.nextGeneration env :=
    fun place engine ↦ (environment_setEngine system place env engine).2
  have hfinish : ∀ (s : System) other state,
      (s.finish other state).nextGeneration env = s.nextGeneration env := fun s other state ↦
    field_environment_finish (·.nextGeneration) (fun _ _ _ ↦ by rfl) s other state env
  cases h with
  | idle | files => exact Nat.le_refl _
  | openedEnvironment hopen =>
      exact Nat.le_of_eq (congrArg (·.nextGeneration) (environment_append _ _ henv)).symm
  | @closed place files hactive =>
      have hsame : (system.modifyEnvironment place
          ({ · with closed := true, retained := [] })).nextGeneration env
            = system.nextGeneration env :=
        field_modifyEnvironment (·.nextGeneration) (fun _ ↦ by rfl) system place env
      exact Nat.le_of_eq hsame.symm
  | aside | used | reopened | dropped | reset | renewed => exact Nat.le_of_eq (hset _ _).symm
  | @opened txn name flags slot engine hfault hopen hlive =>
      refine Nat.le_trans (Nat.le_of_eq (hset (system.transaction txn).env engine).symm) ?_
      have hadvance : ∀ other, (system.setEngineOf txn engine).nextGeneration other
          ≤ ((system.setEngineOf txn engine).advance (system.transaction txn).env).nextGeneration
            other :=
        modifyEnvironment_induction (fun before after ↦
          before.nextGeneration ≤ after.nextGeneration) (fun _ ↦ Nat.le_refl _) (Nat.le_succ _)
      exact hadvance env
  | @began place parent flags thread native engine hfault hwriter hbegin =>
      have henter : ((system.setEngine place engine).enter
          (entrant place parent flags native thread)).nextGeneration env
            = (system.setEngine place engine).nextGeneration env :=
        field_environment_enter (·.nextGeneration) (fun _ _ _ ↦ by rfl) _ _ env
      exact Nat.le_of_eq (henter.trans (hset _ _)).symm
  | @committed txn engine hfault hcommit =>
      have hhandOver : ((system.setEngineOf txn engine).handOver txn).nextGeneration env
          = (system.setEngineOf txn engine).nextGeneration env :=
        field_environment_handOver (·.nextGeneration) (fun _ _ ↦ by rfl) _ txn env
      exact Nat.le_of_eq (((hfinish _ _ _).trans hhandOver).trans (hset _ _)).symm
  | commitFailed | discarded => exact Nat.le_of_eq ((hfinish _ _ _).trans (hset _ _)).symm

end MappedStore.System
