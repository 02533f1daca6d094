import MappedStore.Proofs.Ahead
import MappedStore.Proofs.Counts
import MappedStore.Proofs.Isolation

/-!
# What a transaction leaves behind

Once a transaction has ended without a commit, the older transactions and the other environments are
as they were before it began. In its own environment only numbers have gone on (`System.passedTo`):
those of transactions, handles and generations, and the counters of slots that nothing occupies.
What is left beside is of no concern to plain actions. This holds as long as the occupants of the
slots are as they were. The engine frees a slot as soon as a transaction drops its database, and an
abort does not bring the occupant back.
-/

namespace MappedStore

namespace System

variable {first last : System} {env : EnvId} {nested : Prop}

/-! ## The process once a transaction has ended -/

/-- The older transactions are as they were, but for the count of those nested in them. -/
theorem Ahead.transaction_outline (h : Ahead first env nested last) {other : TxnId}
    (hother : other < first.transactions.length) :
    (last.transaction other).outline = (first.transaction other).outline := by
  have hlist := congrArg System.transactions h.outline
  have hentry := congrArg (·[other]?) hlist
  have hlast : other < last.transactions.length := hother.trans h.begun
  simp only [System.outline, List.getElem?_map, List.getElem?_take, if_pos hother,
    List.getElem?_eq_getElem hother, List.getElem?_eq_getElem hlast, Option.map_some,
    Option.some.injEq] at hentry
  unfold transaction
  rw [List.getD_eq_getElem?_getD, List.getD_eq_getElem?_getD, List.getElem?_eq_getElem hother,
    List.getElem?_eq_getElem hlast]
  exact hentry

/-- Whatever does not depend on that count is the same for an older transaction. -/
theorem Ahead.field {α : Type} (h : Ahead first env nested last) (field : Transaction → α)
    (hfield : ∀ before : Transaction, field before.outline = field before) {other : TxnId}
    (hother : other < first.transactions.length) :
    field (last.transaction other) = field (first.transaction other) := by
  rw [← hfield, h.transaction_outline hother, hfield]

/-- The environments are as they were, but for the one in which the transactions were used. -/
theorem Ahead.environment_outline (h : Ahead first env nested last) :
    last.environments.length = first.environments.length ∧
      (last.environment env).outline = (first.environment env).outline ∧
      ∀ other ≠ env, last.environments[other]? = first.environments[other]? := by
  have hlist : last.environments.modify env Environment.outline =
    first.environments.modify env Environment.outline := congrArg System.environments h.outline
  have hentry (other : EnvId) := congrArg (·[other]?) hlist
  have hlength := congrArg List.length hlist
  rw [List.length_modify, List.length_modify] at hlength
  refine ⟨hlength, ?_, fun other hother ↦ ?_⟩
  · unfold environment
    have hsame := hentry env
    simp only [List.getElem?_modify_eq] at hsame
    rw [List.getD_eq_getElem?_getD, List.getD_eq_getElem?_getD]
    have hdefault (found : Option Environment) :
        (found.getD .absent).outline = (Environment.outline <$> found).getD
          Environment.absent.outline := by cases found <;> rfl
    rw [hdefault, hdefault, hsame]
  · have hsame := hentry other
    simp only [List.getElem?_modify_ne _ _ (Ne.symm hother)] at hsame
    exact hsame

/-- The number of the environment was given out before. -/
theorem Ahead.env_lt (h : Ahead first env nested last) (hsound : Sound last) :
    env < first.environments.length := by
  rw [← h.environment_outline.1, ← h.env_eq]
  exact hsound.anchored.env_lt _ h.begun

/-- Once the transaction has ended, the engine knows none of those nested in it any more. -/
theorem Ahead.engine_ended (h : Ahead first env nested last) (hsound : Sound last)
    (hended : (last.transaction first.transactions.length).state.isFinished = true) :
    (first.engine env).Ahead nested [] [] (last.engine env) := by
  obtain ⟨inner, newer, hengine⟩ := h.engine
  -- No transaction that has not ended has the handle of the outermost.
  have hnone {txn : TxnId} (henv : (last.transaction txn).env = env)
      (hunfinished : (last.transaction txn).state.isFinished = false)
      (hhandle : last.native txn = (first.engine env).nextHandle) : False := by
    have hlt := lt_of_state rfl hunfinished
    obtain rfl := hsound.anchored.native_inj txn hlt _ h.begun (henv.trans h.env_eq.symm)
      (hhandle.trans h.native.symm)
    rw [hended] at hunfinished
    cases hunfinished
  have hinner : inner = [] := by
    -- The writers are nested in each other, so if there are any the outermost is among them.
    by_contra hsome
    have hlast := List.getLast_mem hsome
    have houtermost := hengine.outermost _ (List.getLast?_eq_getLast_of_ne_nil hsome)
    obtain ⟨ids, hchain⟩ := hsound.chained env
    have hmem : (inner.getLast hsome).handle ∈ (last.engine env).writers.map (·.handle) :=
      List.mem_map_of_mem (hengine.writers ▸ List.mem_append_left _ hlast)
    rw [hchain.handles] at hmem
    obtain ⟨txn, htxn, hhandle⟩ := List.mem_map.mp hmem
    refine hnone (hchain.env_eq txn htxn) ?_ (hhandle.trans houtermost)
    rw [hchain.active txn htxn]
    rfl
  have hnewer : newer = [] := by
    refine List.eq_nil_iff_forall_not_mem.mpr fun reader hreader ↦ ?_
    obtain ⟨txn, henv, hhandle, -, hstate⟩ := (hsound.attended.readers env).known reader
      (hengine.reading ▸ List.mem_append_left _ hreader)
    refine hnone henv ?_ (hhandle.trans (hengine.reader reader hreader))
    rw [hstate]
    exact readingState_isFinished _
  rw [hinner, hnewer] at hengine
  exact hengine

/-- Of the older transactions the same live as before. -/
theorem Ahead.unfinished_iff (h : Ahead first env nested last) {other : TxnId}
    (hother : other < first.transactions.length) :
    (last.transaction other).state.isFinished = false ↔
      (first.transaction other).state.isFinished = false := by
  rw [h.field (·.state) (fun _ ↦ rfl) hother]

/-- Once the transaction has ended, those that began with it or later and live are nested in others
of that kind. -/
theorem Ahead.living_later (h : Ahead first env nested last)
    (hended : (last.transaction first.transactions.length).state.isFinished = true) {other : TxnId}
    (hother : first.transactions.length ≤ other)
    (hunfinished : (last.transaction other).state.isFinished = false) :
    first.transactions.length < other ∧
      ∃ outer, (last.transaction other).parent = some outer ∧ first.transactions.length ≤ outer := by
  have hne : first.transactions.length ≠ other := by
    rintro rfl
    rw [hended] at hunfinished
    cases hunfinished
  have hlt := Nat.lt_of_le_of_ne hother hne
  exact ⟨hlt, (h.later other hlt (lt_of_state rfl hunfinished)).2⟩

/-- The older transactions are as they were. -/
theorem Ahead.transaction_eq (h : Ahead first env nested last) (hfirst : Counted first)
    (hlast : Counted last)
    (hended : (last.transaction first.transactions.length).state.isFinished = true) {other : TxnId}
    (hother : other < first.transactions.length) :
    last.transaction other = first.transaction other := by
  have hchildren : (last.transaction other).children = (first.transaction other).children := by
    rw [hlast.children, hfirst.children]
    refine congrArg Finset.card (Finset.ext fun txn ↦ ?_)
    rw [Finset.mem_filter, Finset.mem_filter, mem_living, mem_living]
    rcases Nat.lt_or_ge txn first.transactions.length with hlt | hge
    · rw [h.unfinished_iff hlt, h.field (·.parent) (fun _ ↦ rfl) hlt]
    · refine ⟨fun ⟨hunfinished, hparent⟩ ↦ ?_, fun ⟨hunfinished, _⟩ ↦ ?_⟩
      · obtain ⟨-, outer, houter, hle⟩ := h.living_later hended hge hunfinished
        obtain rfl := Option.some.inj (houter.symm.trans hparent)
        exact absurd hother (Nat.not_lt.mpr hle)
      · exact absurd (lt_of_state rfl hunfinished) (Nat.not_lt.mpr hge)
  have hsplit (txn : Transaction) : txn = { txn.outline with children := txn.children } := rfl
  rw [hsplit (last.transaction other), hsplit (first.transaction other),
    h.transaction_outline hother, hchildren]

/-- Those that began with the transaction or later are of its environment. -/
theorem Ahead.env_later (h : Ahead first env nested last) (hsound : Sound last) (other : TxnId)
    (hle : first.transactions.length ≤ other) (hlt : other < last.transactions.length) :
    (last.transaction other).env = env := by
  induction other using Nat.strong_induction_on with
  | _ other ih =>
      rcases Nat.eq_or_lt_of_le hle with rfl | hgreater
      · exact h.env_eq
      · -- The outer transaction began earlier, so the claim is known of it.
        obtain ⟨-, outer, houter, hinside⟩ := h.later other hgreater hlt
        have hless := hsound.anchored.parent_lt other outer houter
        rw [← hsound.anchored.parent_env other outer houter]
        exact ih outer hless hinside (hless.trans hlt)

/-- The environment still counts those nested in the transaction that have not ended. -/
theorem Ahead.active_eq (h : Ahead first env nested last) (hfirst : Reachable first)
    (hlast : Reachable last) :
    (last.environment env).active = (first.environment env).active +
      (last.living.filter (first.transactions.length ≤ ·)).card := by
  rw [hlast.counted.active, hfirst.counted.active, ← Finset.card_union_of_disjoint]
  · refine congrArg Finset.card (Finset.ext fun txn ↦ ?_)
    simp only [Finset.mem_union, Finset.mem_filter, mem_living]
    rcases Nat.lt_or_ge txn first.transactions.length with hlt | hge
    · rw [h.unfinished_iff hlt, h.field (·.env) (fun _ ↦ rfl) hlt]
      have hnot := Nat.not_le.mpr hlt
      tauto
    · have hfinished : ¬(first.transaction txn).state.isFinished = false :=
        fun hunfinished ↦ absurd (lt_of_state rfl hunfinished) (Nat.not_lt.mpr hge)
      have henv := fun hunfinished ↦ h.env_later hlast.sound txn hge (lt_of_state rfl hunfinished)
      tauto
  · refine Finset.disjoint_left.mpr fun txn hearlier hlater ↦ ?_
    have hlt := lt_of_state rfl (mem_living.mp (Finset.mem_filter.mp hearlier).1)
    exact absurd (Finset.mem_filter.mp hlater).2 (Nat.not_le.mpr hlt)

/-- Once the transaction has ended, the same root writer is alive as before it began. -/
theorem Ahead.rootWriter_iff (h : Ahead first env nested last) (hfirst : Counted first)
    (hlast : Counted last)
    (hended : (last.transaction first.transactions.length).state.isFinished = true) (txn : TxnId) :
    RootWriter last env txn ↔ RootWriter first env txn := by
  rcases Nat.lt_or_ge txn first.transactions.length with hlt | hge
  · have hsame := h.transaction_eq hfirst hlast hended hlt
    constructor
    · intro hroot
      exact ⟨hsame ▸ hroot.env_eq, hsame ▸ hroot.writer, hsame ▸ hroot.root,
        hsame ▸ hroot.unfinished⟩
    · intro hroot
      have hback := hsame.symm
      exact ⟨hback ▸ hroot.env_eq, hback ▸ hroot.writer, hback ▸ hroot.root,
        hback ▸ hroot.unfinished⟩
  · constructor
    · intro hroot
      obtain ⟨-, outer, houter, -⟩ := h.living_later hended hge hroot.unfinished
      rw [hroot.root] at houter
      cases houter
    · intro hroot
      exact absurd (lt_of_state rfl hroot.unfinished) (Nat.not_lt.mpr hge)

/-- The environment is as it was, but for its engine, the generations that it has given out, and
those nested in the transaction that it counts. -/
theorem Ahead.environment_eq (h : Ahead first env nested last) (hfirst : Reachable first)
    (hlast : Reachable last)
    (hended : (last.transaction first.transactions.length).state.isFinished = true) :
    last.environment env =
      { first.environment env with
        active := (last.environment env).active
        nextGeneration := (last.environment env).nextGeneration
        engine := last.engine env } := by
  have hlocked : (last.environment env).writerLocked = (first.environment env).writerLocked := by
    rw [Bool.eq_iff_iff, hlast.guarded.locked_iff hlast.sound,
      hfirst.guarded.locked_iff hfirst.sound]
    exact exists_congr (h.rootWriter_iff hfirst.counted hlast.counted hended)
  obtain ⟨-, houtline, -⟩ := h.environment_outline
  have hsplit (environment : Environment) : environment =
      { environment.outline with
        active := environment.active
        writerLocked := environment.writerLocked
        nextGeneration := environment.nextGeneration
        engine := environment.engine } := rfl
  have hleft := hsplit (last.environment env)
  rw [houtline, hlocked] at hleft
  exact hleft

/-- The process of before that has passed over the numbers that were used since. -/
def passedTo (first last : System) (env : EnvId) : System :=
  { first with
    environments := first.environments.modify env fun environment ↦
      { environment with
        active := (last.environment env).active
        nextGeneration := (last.environment env).nextGeneration
        engine := environment.engine.passedTo (last.engine env) }
    transactions := first.transactions ++ last.transactions.drop first.transactions.length }

/-- The place of an environment in the list of all. -/
theorem environments_getElem? {system : System} (henv : env < system.environments.length) :
    system.environments[env]? = some (system.environment env) := by
  unfold environment
  rw [List.getD_eq_getElem?_getD, List.getElem?_eq_getElem henv]
  rfl

/-- The place of a transaction in the list of all. -/
theorem transactions_getElem? {system : System} {txn : TxnId}
    (htxn : txn < system.transactions.length) :
    system.transactions[txn]? = some (system.transaction txn) := by
  unfold transaction
  rw [List.getD_eq_getElem?_getD, List.getElem?_eq_getElem htxn]
  rfl

/-- The environments, but for the engine. -/
theorem Ahead.environments_eq (h : Ahead first env nested last) (hfirst : Reachable first)
    (hlast : Reachable last)
    (hended : (last.transaction first.transactions.length).state.isFinished = true) :
    last.environments =
      ((first.passedTo last env).setEngine env (last.engine env)).environments := by
  obtain ⟨hlength, -, hothers⟩ := h.environment_outline
  have hlt := h.env_lt hlast.sound
  refine List.ext_getElem? fun other ↦ ?_
  unfold setEngine modifyEnvironment passedTo
  dsimp only
  rw [List.modify_modify_eq]
  by_cases hother : other = env
  · subst hother
    rw [List.getElem?_modify_eq, environments_getElem? (hlength ▸ hlt), environments_getElem? hlt]
    exact congrArg some (h.environment_eq hfirst hlast hended)
  · rw [List.getElem?_modify_ne _ _ (Ne.symm hother)]
    exact hothers other hother

/-- The older transactions come first, and those that began later follow. -/
theorem Ahead.transactions_eq (h : Ahead first env nested last) (hfirst : Counted first)
    (hlast : Counted last)
    (hended : (last.transaction first.transactions.length).state.isFinished = true) :
    last.transactions =
      first.transactions ++ last.transactions.drop first.transactions.length := by
  have htake : last.transactions.take first.transactions.length = first.transactions := by
    refine List.ext_getElem? fun other ↦ ?_
    rw [List.getElem?_take]
    split
    · rename_i hother
      rw [transactions_getElem? (Nat.lt_trans hother h.begun), transactions_getElem? hother,
        h.transaction_eq hfirst hlast hended hother]
    · rename_i hother
      rw [List.getElem?_eq_none (Nat.le_of_not_lt hother)]
  calc last.transactions
      = last.transactions.take first.transactions.length ++
          last.transactions.drop first.transactions.length := (List.take_append_drop _ _).symm
    _ = first.transactions ++ last.transactions.drop first.transactions.length := by rw [htake]

/-- Once the transaction has ended, the process is the one of before that has passed over the
numbers, but for the engine. -/
theorem Ahead.eq_setEngine (h : Ahead first env nested last) (hfirst : Reachable first)
    (hlast : Reachable last)
    (hended : (last.transaction first.transactions.length).state.isFinished = true) :
    last = (first.passedTo last env).setEngine env (last.engine env) := by
  have houtline := h.outline
  have hchecks : (last.outline env _).checks = (first.outline env _).checks :=
    congrArg System.checks houtline
  have hfiles : (last.outline env _).files = (first.outline env _).files :=
    congrArg System.files houtline
  replace hchecks : last.checks = first.checks := hchecks
  replace hfiles : last.files = first.files := hfiles
  have hsplit : last = ⟨last.checks, last.files, last.environments, last.transactions⟩ := rfl
  rw [hchecks, hfiles, h.environments_eq hfirst hlast hended,
    h.transactions_eq hfirst.counted hlast.counted hended] at hsplit
  exact hsplit

/-- Once the transaction has ended, nothing is left but the numbers that were used, and what is of
no concern to plain actions, if the occupants of the slots are as they were. -/
theorem Ahead.restored (h : Ahead first env nested last) (hfirst : Reachable first)
    (hlast : Reachable last)
    (hended : (last.transaction first.transactions.length).state.isFinished = true)
    (hfaces : ∀ slot, (last.occupant env slot).face = (first.occupant env slot).face) :
    last.bare = (first.passedTo last env).bare ∧ (nested → last = first.passedTo last env) := by
  have heq := h.eq_setEngine hfirst hlast hended
  have hengine := h.engine_ended hlast.sound hended
  have hpassed : (first.passedTo last env).engine env =
      (first.engine env).passedTo (last.engine env) := by
    have henv : (first.passedTo last env).environment env = _ :=
      environment_modifyEnvironment_self first _ (h.env_lt hlast.sound)
    exact congrArg Environment.engine henv
  constructor
  · have hrestored : (last.engine env).bare = ((first.passedTo last env).engine env).bare := by
      rw [hpassed]
      have hbare := congrArg Engine.bare (hengine.restored hfaces)
      exact hbare
    calc last.bare
        = ((first.passedTo last env).setEngine env (last.engine env)).bare :=
          congrArg System.bare heq
      _ = (first.passedTo last env).bare := by
          rw [bare_setEngine, hrestored, ← engine_bare, setEngine_engine]
  · intro hnested
    have hrestored := hengine.restored_nested hnested hfaces
    rw [← hpassed] at hrestored
    rw [hrestored, setEngine_engine] at heq
    exact heq

/-! ## The main result -/

/-- What has become of the numbers of an environment since a transaction began that has ended. -/
structure PassedOver (first last : System) (env : EnvId) (txn : TxnId) : Prop where
  generation : first.nextGeneration env ≤ last.nextGeneration env
  counters : ∀ slot, last.occupant env slot = first.occupant env slot ∨
    (last.occupant env slot).Blank
  outdated : ∀ user ∈ (last.engine env).writers ++ (last.engine env).reading, ∀ slot content,
    user.usable? slot = some content →
      user.isOutdated (last.engine env).slots slot content =
        user.isOutdated (first.engine env).slots slot content
  active : (last.environment env).active = (first.environment env).active +
    (last.living.filter (txn ≤ ·)).card

/-- A transaction that ends without a commit leaves no trace, whatever it and those nested in it
did, if the occupants of the slots are in the end as they were: plain actions have the same answers
as if only numbers had been passed over since before it began, and if it was nested nothing else is
different at all. -/
theorem abort_traceless (hfirst : Reachable first) {parent : Option TxnId} {flags : TxnFlags}
    {thread : Nat} {txn : TxnId} (hbegin : (first.begin env parent flags thread).result = .ok txn)
    (hrun : Run (Within txn) (first.after (.begin env parent flags thread)) last)
    (hended : (last.transaction txn).state.isFinished = true)
    (hfaces : ∀ slot, (last.occupant env slot).face = (first.occupant env slot).face) :
    (∀ actions, last.Plainly actions → (first.passedTo last env).Plainly actions →
      last.answers actions = (first.passedTo last env).answers actions) ∧
    (parent ≠ none → last = first.passedTo last env) ∧
    PassedOver first last env txn := by
  have hbegun : Run anything first (first.after (.begin env parent flags thread)) :=
    .single (.begin env parent flags thread) trivial
  have hlast := (hfirst.run hbegun).run hrun
  obtain ⟨rfl, hahead⟩ := ahead_of_begin hfirst.sound hbegin
  -- The begin puts the process ahead, and the run keeps it there until the transaction has ended.
  obtain ⟨h, -⟩ := hahead.run hfirst.sound (hfirst.run hbegun).sound hrun
  obtain ⟨hbare, hnested⟩ := h.restored hfirst hlast hended hfaces
  have hengine := h.engine_ended hlast.sound hended
  refine ⟨fun actions hleft hright ↦ answers_of_bare hbare hleft hright, hnested, ?_, ?_, ?_, ?_⟩
  · exact (hfirst.sound.later (h.env_lt hlast.sound) (hbegun.trans hrun.anything)).2.1
  · intro slot
    match slot with
    | 0 | 1 => exact .inl rfl
    | index + 2 => exact hengine.counters index
  · intro user huser slot content husable
    exact hengine.outdated (hfirst.each Engine.Txn.lasting_alert env)
      (hlast.each Engine.Txn.lasting_alert env) hfaces huser husable
  · exact h.active_eq hfirst hlast

/-- An action that has a result and does not look at the table of a slot is plain. -/
theorem plain_of_ok {system : System} {action : Action} {response : Response}
    (hinfo : ∀ env, action ≠ .info env) (hshows : action.shows? = none)
    (hok : (system.act action).result = .ok response) : system.Plain action where
  info := hinfo
  seated condition _ herror := by
    rw [hok] at herror
    cases herror
  reads txn slot hreads := by
    rw [hshows] at hreads
    cases hreads

/-- The occupants of all slots are the same if those are that two tables describe. -/
theorem faces_of_lt {slots slots' : Engine.SlotTable} {count : Nat}
    (hcount : slots.length ≤ count ∧ slots'.length ≤ count)
    (h : ∀ index < count, (slots'.getD index {}).face = (slots.getD index {}).face) (slot : Nat) :
    (slots'.info slot).face = (slots.info slot).face := by
  match slot with
  | 0 | 1 => rfl
  | index + 2 =>
      rcases Nat.lt_or_ge index count with hlt | hge
      · exact h index hlt
      · have hbeyond {table : Engine.SlotTable} (htable : table.length ≤ count) :
            table.info (index + 2) = {} := by
          show table.getD index {} = {}
          rw [List.getD_eq_getElem?_getD, List.getElem?_eq_none (htable.trans hge)]
          rfl
        rw [hbeyond hcount.1, hbeyond hcount.2]

/-- The sample after a writer has opened another database, and one nested in it has replaced the
value of the first and committed, and the writer was aborted. -/
def sampleAborted : System :=
  (sampleWritten.after (.begin 0 none .empty mainThread)).afterAll
    [.openDatabase 2 (some "b") DbFlags.create, .begin 0 (some 2) .empty mainThread,
      .put 3 sampleDatabase [107] [119] .empty, .commit 3, .abort 2]

/-- A reader that begins afterwards is answered as if the writer had never begun. -/
theorem abort_traceless_read :
    sampleAborted.answers
        [.begin 0 none TxnFlags.readOnly mainThread, .get 4 sampleDatabase [107]] =
      (sampleWritten.passedTo sampleAborted 0).answers
        [.begin 0 none TxnFlags.readOnly mainThread, .get 4 sampleDatabase [107]] := by
  have hwithin {system : System} {action : Action} {user : TxnId} (hcommit : action ≠ .commit 2)
      (hnames : action.names? = some user) (hmem : 2 ∈ system.lineage user) :
      Within 2 system action := ⟨hcommit, user, hnames, hmem⟩
  have hrun : Run (Within 2) (sampleWritten.after (.begin 0 none .empty mainThread))
      sampleAborted := by
    refine .step (.step (.step (.step (.step .nil
      (hwithin nofun rfl ?_)) (hwithin nofun rfl ?_)) (hwithin nofun rfl ?_))
      (hwithin (by simp) rfl ?_)) (hwithin nofun rfl ?_)
    all_goals decide +kernel
  have hplain (system : System)
      (hbegin : (system.act (.begin 0 none TxnFlags.readOnly mainThread)).result =
        .ok (.transaction 4))
      (hget : ((system.after (.begin 0 none TxnFlags.readOnly mainThread)).act
        (.get 4 sampleDatabase [107])).result = .ok (.value (some [118]))) :
      system.Plainly [.begin 0 none TxnFlags.readOnly mainThread, .get 4 sampleDatabase [107]] :=
    ⟨plain_of_ok nofun rfl hbegin, plain_of_ok nofun rfl hget, trivial⟩
  have hfaces : ∀ index < 2, ((sampleAborted.engine 0).slots.getD index {}).face =
      ((sampleWritten.engine 0).slots.getD index {}).face := by decide +kernel
  refine (abort_traceless (sample_reachable.run (.all _ _)) ?_ hrun ?_
    (faces_of_lt (by decide +kernel) hfaces)).1 _ ?_ ?_
  · decide +kernel
  · decide +kernel
  · exact hplain _ (by decide +kernel) (by decide +kernel)
  · exact hplain _ (by decide +kernel) (by decide +kernel)

/-- A drop leaves a trace although it is aborted: a reader that begins afterwards is refused the
value that was committed, and that it finds if the writer has never begun. -/
theorem abort_leaves_drop : ∃ (first last : System) (txn reader reader' : TxnId)
    (database : Database) (key value : Bytes), Reachable first ∧ first.checks = true ∧
      (first.begin database.env none .empty mainThread).result = .ok txn ∧
      Run (Within txn) (first.after (.begin database.env none .empty mainThread)) last ∧
      (last.transaction txn).state = .aborted ∧
      (first.begin database.env none TxnFlags.readOnly mainThread).result = .ok reader ∧
      ((first.after (.begin database.env none TxnFlags.readOnly mainThread)).get reader database
        key).result = .ok (some value) ∧
      (last.begin database.env none TxnFlags.readOnly mainThread).result = .ok reader' ∧
      ((last.after (.begin database.env none TxnFlags.readOnly mainThread)).get reader' database
        key).result = .error (.error (.native 22)) := by
  have hrun : Run (Within 2) (sampleWritten.after (.begin 0 none .empty mainThread))
      ((sampleWritten.after (.begin 0 none .empty mainThread)).afterAll
        [.dropDatabase 2 sampleDatabase, .abort 2]) :=
    .step (.step .nil ⟨nofun, 2, rfl, by decide +kernel⟩) ⟨nofun, 2, rfl, by decide +kernel⟩
  refine ⟨sampleWritten, _, 2, 2, 3, sampleDatabase, [107], [118], sample_reachable.run (.all _ _),
    ?_, ?_, hrun, ?_, ?_, ?_, ?_, ?_⟩
  all_goals decide +kernel

end System

end MappedStore
