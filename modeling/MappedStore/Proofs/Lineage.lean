import MappedStore.Proofs.Chain

/-!
# Live generations by recursion

A transaction asks its own record for the live generation of a slot, then its parent, and a root
asks the environment (`System.liveGeneration_eq`). Every generation in sight was given out before
(`System.Numbered`).
-/

namespace MappedStore.System

variable {system after : System} {action : Action} {env : EnvId} {txn : TxnId}
  {slot generation : Nat}

/-! ## Lineages -/

/-- Fuel beyond the number of a transaction adds nothing to its lineage. -/
theorem lineageFrom_of_lt (h : Anchored system) {fuel : Nat} (hfuel : txn < fuel) :
    system.lineageFrom fuel txn = system.lineage txn := by
  induction txn using Nat.strongRecOn generalizing fuel with
  | ind txn ih =>
      cases fuel with
      | zero => exact absurd hfuel (Nat.not_lt_zero txn)
      | succ fuel =>
          unfold lineage lineageFrom
          cases hparent : (system.transaction txn).parent with
          | none => rfl
          | some parent =>
              have hlt := h.parent_lt txn parent hparent
              have hless := Nat.lt_of_lt_of_le hlt (Nat.le_of_lt_succ hfuel)
              exact congrArg (txn :: ·) ((ih parent hlt hless).trans (ih parent hlt hlt).symm)

/-- The lineage of a transaction goes on with that of its parent. -/
theorem lineage_eq (h : Anchored system) (txn : TxnId) :
    system.lineage txn =
      txn :: match (system.transaction txn).parent with
        | none => []
        | some parent => system.lineage parent := by
  rw [lineage, lineageFrom]
  cases hparent : (system.transaction txn).parent with
  | none => rfl
  | some parent =>
      exact congrArg (txn :: ·) (lineageFrom_of_lt h (h.parent_lt txn parent hparent))

/-- The lineage of a nested transaction. -/
theorem lineage_of_parent (h : Anchored system) {parent : TxnId}
    (hparent : (system.transaction txn).parent = some parent) :
    system.lineage txn = txn :: system.lineage parent := by
  rw [lineage_eq h, hparent]

/-- The members of a lineage are the transaction itself and the members of its parent's. -/
theorem mem_lineage (h : Anchored system) {other : TxnId} :
    other ∈ system.lineage txn ↔ other = txn ∨
      ∃ parent, (system.transaction txn).parent = some parent ∧ other ∈ system.lineage parent := by
  rw [lineage_eq h]
  cases (system.transaction txn).parent <;> simp

/-- A transaction is a member of its own lineage. -/
theorem self_mem_lineage (h : Anchored system) (txn : TxnId) : txn ∈ system.lineage txn :=
  (mem_lineage h).mpr (.inl rfl)

/-- What is around a transaction is around those nested in it. -/
theorem lineage_trans (h : Anchored system) {outer middle : TxnId}
    (houter : outer ∈ system.lineage middle) (hmiddle : middle ∈ system.lineage txn) :
    outer ∈ system.lineage txn := by
  induction txn using Nat.strongRecOn with
  | ind txn ih =>
      rcases (mem_lineage h).mp hmiddle with rfl | ⟨parent, hparent, hmiddle⟩
      · exact houter
      · have hmem := ih parent (h.parent_lt txn parent hparent) hmiddle
        exact (mem_lineage h).mpr (.inr ⟨parent, hparent, hmem⟩)

/-- A transaction is of the environment of all that it is nested in. -/
theorem env_of_lineage (hanchored : Anchored system) {outer : TxnId}
    (hmem : outer ∈ system.lineage txn) :
    (system.transaction txn).env = (system.transaction outer).env := by
  induction txn using Nat.strongRecOn with
  | ind txn ih =>
      rw [lineage_eq hanchored] at hmem
      rcases List.mem_cons.mp hmem with rfl | hmem
      · rfl
      · cases hparent : (system.transaction txn).parent with
        | none => simp [hparent] at hmem
        | some parent =>
            rw [hparent] at hmem
            exact (hanchored.parent_env txn parent hparent).symm.trans
              (ih parent (hanchored.parent_lt txn parent hparent) hmem)

/-- Each member of a lineage is nested in the next. -/
theorem nested_lineage (h : Anchored system) (txn : TxnId) : Nested system (system.lineage txn) := by
  induction txn using Nat.strongRecOn with
  | ind txn ih =>
      cases hparent : (system.transaction txn).parent with
      | none =>
          rw [lineage_eq h, hparent]
          exact ⟨hparent, trivial⟩
      | some parent =>
          have hhead : (system.lineage parent).head? = some parent := by
            rw [lineage_eq h]
            rfl
          rw [lineage_of_parent h hparent]
          exact ⟨hparent.trans hhead.symm, ih parent (h.parent_lt txn parent hparent)⟩

/-- The live generation of a slot: as recorded in the transaction, or else as seen by its parent,
or else, for a root, as retained by the environment. -/
theorem liveGeneration_eq (h : Anchored system) (txn : TxnId) (slot : Nat) :
    system.liveGeneration txn slot =
      match (system.transaction txn).record? slot with
      | some (.opened generation) => some generation
      | some .dropped => none
      | none =>
          match (system.transaction txn).parent with
          | some parent => system.liveGeneration parent slot
          | none => (system.environment (system.transaction txn).env).retained.lookup slot := by
  unfold liveGeneration
  rw [lineage_eq h, List.findSome?_cons]
  cases (system.transaction txn).record? slot with
  | some record => cases record <;> rfl
  | none =>
      cases hparent : (system.transaction txn).parent with
      | none => rfl
      | some parent =>
          dsimp only
          rw [h.parent_env txn parent hparent]

/-- What holds of every generation recorded in sight of a transaction holds of the live one. -/
theorem liveGeneration_induction (h : Anchored system) (property : Nat → Prop)
    (hopened : ∀ scope, (system.transaction scope).env = (system.transaction txn).env → scope ≤ txn →
      ∀ generation, (system.transaction scope).opened.lookup slot = some generation →
        property generation)
    (hretained : ∀ generation,
      (system.environment (system.transaction txn).env).retained.lookup slot = some generation →
        property generation)
    (hlive : system.liveGeneration txn slot = some generation) : property generation := by
  induction txn using Nat.strongRecOn with
  | ind txn ih =>
      rw [liveGeneration_eq h] at hlive
      unfold Transaction.record? at hlive
      cases hlookup : (system.transaction txn).opened.lookup slot with
      | some found =>
          simp only [hlookup, Option.some.injEq] at hlive
          exact hopened txn rfl (Nat.le_refl _) generation (hlive ▸ hlookup)
      | none =>
          simp only [hlookup] at hlive
          by_cases hdropped : (system.transaction txn).dropped.contains slot = true
          · simp only [hdropped, if_true, reduceCtorEq] at hlive
          · simp only [hdropped] at hlive
            cases hparent : (system.transaction txn).parent with
            | none =>
                simp only [hparent] at hlive
                exact hretained generation hlive
            | some parent =>
                simp only [hparent] at hlive
                have hlt := h.parent_lt txn parent hparent
                have henv := h.parent_env txn parent hparent
                refine ih parent hlt (fun scope hscope hle ↦ ?_) ?_ hlive
                · exact hopened scope (hscope.trans henv) (Nat.le_trans hle (Nat.le_of_lt hlt))
                · rw [henv]
                  exact hretained

/-! ## Generations in sight -/

/-- Every generation that an environment retains or a transaction has recorded was given out. -/
structure Numbered (system : System) : Prop where
  retained : ∀ env, ∀ entry ∈ (system.environment env).retained,
    entry.2 < (system.environment env).nextGeneration
  opened : ∀ txn, ∀ entry ∈ (system.transaction txn).opened,
    entry.2 < (system.environment (system.transaction txn).env).nextGeneration

/-- A pair that a look-up finds is in the list. -/
theorem mem_of_lookup {opens : Opens} (h : opens.lookup slot = some generation) :
    (slot, generation) ∈ opens := by
  induction opens with
  | nil => simp at h
  | cons entry rest ih =>
      rw [List.lookup_cons] at h
      split at h
      · rename_i heq
        obtain rfl : slot = entry.1 := by simpa using heq
        obtain rfl := Option.some.inj h
        exact List.mem_cons_self
      · exact List.mem_cons_of_mem _ (ih h)

/-- A live generation was given out. -/
theorem Numbered.live_lt (h : Numbered system) (hanchored : Anchored system)
    (hlive : system.liveGeneration txn slot = some generation) :
    generation < (system.environment (system.transaction txn).env).nextGeneration := by
  refine liveGeneration_induction hanchored
    (· < (system.environment (system.transaction txn).env).nextGeneration) ?_ ?_ hlive
  · intro scope henv _ found hlookup
    rw [← henv]
    exact h.opened scope _ (mem_of_lookup hlookup)
  · intro found hlookup
    exact h.retained _ _ (mem_of_lookup hlookup)

/-- Scopes whose records were all there before hold generations that were given out. -/
theorem Numbered.of_mem (h : Numbered system)
    (hnext : ∀ env, (system.environment env).nextGeneration
      ≤ (after.environment env).nextGeneration)
    (henv : ∀ txn, (after.transaction txn).env = (system.transaction txn).env)
    (hretained : ∀ env, ∀ entry ∈ (after.environment env).retained,
      entry ∈ (system.environment env).retained)
    (hopened : ∀ txn, ∀ entry ∈ (after.transaction txn).opened,
      entry ∈ (system.transaction txn).opened) : Numbered after := by
  constructor
  · exact fun env entry hentry ↦
      Nat.lt_of_lt_of_le (h.retained env entry (hretained env entry hentry)) (hnext env)
  · intro txn entry hentry
    rw [henv]
    exact Nat.lt_of_lt_of_le (h.opened txn entry (hopened txn entry hentry)) (hnext _)

/-- The end of a transaction is no concern of the scopes. -/
theorem Numbered.finish (h : Numbered system) (txn : TxnId) (state : TxnState) :
    Numbered (system.finish txn state) := by
  have hnext := field_environment_finish (·.nextGeneration) (fun _ _ _ ↦ by rfl) system txn state
  have hretained := field_environment_finish (·.retained) (fun _ _ _ ↦ by rfl) system txn state
  have hopened := field_finish (·.opened) (fun _ _ _ _ ↦ by rfl) system txn state
  exact h.of_mem (fun env ↦ Nat.le_of_eq (hnext env).symm)
    (field_finish (·.env) (fun _ _ _ _ ↦ by rfl) system txn state)
    (fun env _ hentry ↦ hretained env ▸ hentry) fun other _ hentry ↦ hopened other ▸ hentry

/-- Another engine is no concern of the scopes. -/
theorem Numbered.setEngine (h : Numbered system) (env : EnvId) (engine : Engine) :
    Numbered (system.setEngine env engine) :=
  h.of_mem (fun other ↦ Nat.le_of_eq (environment_setEngine system env other engine).2.symm)
    (fun _ ↦ rfl) (fun other _ hentry ↦ (environment_setEngine system env other engine).1 ▸ hentry)
    fun _ _ ↦ id

/-- A stage of life is no concern of the scopes. -/
theorem Numbered.setState (h : Numbered system) (txn : TxnId) (state : TxnState) :
    Numbered (system.setState txn state) := by
  have hopened : ∀ other, ((system.setState txn state).transaction other).opened
      = (system.transaction other).opened :=
    field_modifyTransaction (·.opened) (fun _ ↦ by rfl) system txn
  exact h.of_mem (fun _ ↦ Nat.le_refl _)
    (field_modifyTransaction (·.env) (fun _ ↦ by rfl) system txn) (fun _ _ ↦ id)
    fun other _ hentry ↦ hopened other ▸ hentry

/-- A drop removes records. -/
theorem Numbered.recordDrop (h : Numbered system) (txn : TxnId) (slot : Nat) :
    Numbered (system.recordDrop txn slot) := by
  have hopened : ∀ other, ∀ entry ∈ ((system.recordDrop txn slot).transaction other).opened,
      entry ∈ (system.transaction other).opened :=
    modifyTransaction_induction (fun before after ↦ ∀ entry ∈ after.opened, entry ∈ before.opened)
      (fun _ _ ↦ id) fun _ hentry ↦ (List.mem_filter.mp hentry).1
  exact h.of_mem (fun _ ↦ Nat.le_refl _)
    (field_modifyTransaction (·.env) (fun _ ↦ by rfl) system txn) (fun _ _ ↦ id) hopened

/-- Opens that were given out may be retained by an environment. -/
theorem Numbered.modifyEnvironment (h : Numbered system) {change : Environment → Environment}
    (hnext : ∀ before, before.nextGeneration ≤ (change before).nextGeneration)
    (hretained : ∀ entry ∈ (change (system.environment env)).retained,
      entry.2 < (system.environment env).nextGeneration) :
    Numbered (system.modifyEnvironment env change) := by
  have hall : ∀ other, (system.environment other).nextGeneration
      ≤ ((system.modifyEnvironment env change).environment other).nextGeneration :=
    modifyEnvironment_induction
      (fun before after ↦ before.nextGeneration ≤ after.nextGeneration) (fun _ ↦ Nat.le_refl _)
      (hnext _)
  constructor
  · intro other entry hentry
    refine Nat.lt_of_lt_of_le ?_ (hall other)
    by_cases hother : other = env
    · subst hother
      have hcases : ∀ entry ∈ ((system.modifyEnvironment other change).environment other).retained,
          entry ∈ (system.environment other).retained ∨
            entry.2 < (system.environment other).nextGeneration :=
        modifyEnvironment_induction (fun before after ↦ ∀ entry ∈ after.retained,
          entry ∈ before.retained ∨ entry.2 < _) (fun _ _ ↦ .inl)
          (fun entry hentry ↦ .inr (hretained entry hentry)) other
      rcases hcases entry hentry with hentry | hlt
      · exact h.retained other entry hentry
      · exact hlt
    · rw [environment_modifyEnvironment_of_ne _ _ hother] at hentry
      exact h.retained other entry hentry
  · exact fun txn entry hentry ↦ Nat.lt_of_lt_of_le (h.opened txn entry hentry) (hall _)

/-- A new generation leaves those that were given out. -/
theorem Numbered.advance (h : Numbered system) (env : EnvId) : Numbered (system.advance env) :=
  h.modifyEnvironment (fun _ ↦ Nat.le_succ _) fun entry hentry ↦ h.retained env entry hentry

/-- Opens that were given out may be recorded in a transaction. -/
theorem Numbered.modifyTransaction (h : Numbered system) {change : Transaction → Transaction}
    (henv : ∀ before, (change before).env = before.env)
    (hopened : ∀ entry ∈ (change (system.transaction txn)).opened,
      entry.2 < (system.environment (system.transaction txn).env).nextGeneration) :
    Numbered (system.modifyTransaction txn change) := by
  refine ⟨h.retained, fun other entry hentry ↦ ?_⟩
  rw [field_modifyTransaction (·.env) henv]
  by_cases hother : other = txn
  · subst hother
    have hcases : ∀ entry ∈ ((system.modifyTransaction other change).transaction other).opened,
        entry ∈ (system.transaction other).opened ∨
          entry.2 < (system.environment (system.transaction other).env).nextGeneration :=
      modifyTransaction_induction (fun before after ↦ ∀ entry ∈ after.opened,
        entry ∈ before.opened ∨ entry.2 < _) (fun _ _ ↦ .inl)
        (fun entry hentry ↦ .inr (hopened entry hentry)) other
    rcases hcases entry hentry with hentry | hlt
    · exact h.opened other entry hentry
    · exact hlt
  · rw [transaction_modifyTransaction_of_ne _ _ hother] at hentry
    exact h.opened other entry hentry

/-- A record of a generation that was given out. -/
theorem Numbered.recordOpen (h : Numbered system)
    (hgeneration : generation
      < (system.environment (system.transaction txn).env).nextGeneration) :
    Numbered (system.recordOpen txn slot generation) := by
  refine h.modifyTransaction (fun _ ↦ rfl) fun entry hentry ↦ ?_
  rcases List.mem_cons.mp hentry with rfl | hentry
  · exact hgeneration
  · exact h.opened txn entry hentry

/-- Merged opens come from one of the scopes. -/
theorem mem_merge {outer opened : Opens} {dropped : List Nat} {entry : Nat × Nat}
    (h : entry ∈ Opens.merge outer opened dropped) : entry ∈ opened ∨ entry ∈ outer := by
  rcases List.mem_append.mp h with h | h
  · exact .inl h
  · exact .inr (List.mem_filter.mp h).1

/-- A hand-over moves records outwards. -/
theorem Numbered.handOver (h : Numbered system)
    (hplace : ∀ parent, (system.transaction txn).parent = some parent →
      (system.transaction parent).env = (system.transaction txn).env) :
    Numbered (system.handOver txn) := by
  have hemptied : Numbered (system.modifyTransaction txn fun emptied ↦
      { emptied with opened := [], dropped := [] }) :=
    h.modifyTransaction (fun _ ↦ rfl) (by simp)
  unfold System.handOver
  dsimp only
  split
  · rename_i parent hparent
    refine hemptied.modifyTransaction (fun _ ↦ rfl) fun entry hentry ↦ ?_
    have hplace : ((system.modifyTransaction txn fun emptied ↦
        { emptied with opened := [], dropped := [] }).transaction parent).env
          = (system.transaction txn).env :=
      (field_modifyTransaction (·.env) (fun _ ↦ by rfl) system txn parent).trans
        (hplace parent hparent)
    rcases mem_merge hentry with hentry | hentry
    · rw [hplace]
      exact h.opened txn entry hentry
    · exact hemptied.opened parent entry hentry
  · refine hemptied.modifyEnvironment (fun _ ↦ Nat.le_refl _) fun entry hentry ↦ ?_
    rcases mem_merge hentry with hentry | hentry
    · exact h.opened txn entry hentry
    · exact hemptied.retained _ entry hentry

/-- A new environment retains nothing, and leaves the others. -/
theorem Numbered.openedEnvironment (h : Numbered system) (hanchored : Anchored system)
    (hbefore : ∀ env < system.environments.length,
      after.environment env = system.environment env)
    (hnew : ∀ env, system.environments.length ≤ env → (after.environment env).retained = [])
    (htransactions : after.transactions = system.transactions) : Numbered after := by
  have htransaction : ∀ txn, after.transaction txn = system.transaction txn :=
    transaction_congr htransactions
  constructor
  · intro env entry hentry
    rcases Nat.lt_or_ge env system.environments.length with hlt | hge
    · rw [hbefore env hlt] at hentry ⊢
      exact h.retained env entry hentry
    · simp [hnew env hge] at hentry
  · intro txn entry hentry
    rw [htransaction] at hentry ⊢
    rcases Nat.lt_or_ge txn system.transactions.length with hlt | hge
    · rw [hbefore _ (hanchored.env_lt txn hlt)]
      exact h.opened txn entry hentry
    · simp [transaction_of_length_le hge, Transaction.ended] at hentry

/-- An entry is no concern of the scopes: a new transaction has recorded nothing. -/
theorem Numbered.enter (h : Numbered system) {entering : Transaction}
    (hopened : entering.opened = []) : Numbered (system.enter entering) := by
  have hnext := field_environment_enter (·.nextGeneration) (fun _ _ _ ↦ by rfl) system entering
  have hretained := field_environment_enter (·.retained) (fun _ _ _ ↦ by rfl) system entering
  constructor
  · intro env entry hentry
    rw [hretained] at hentry
    rw [hnext]
    exact h.retained env entry hentry
  · intro txn entry hentry
    rw [hnext]
    have houtcome := system.enter_outcome entering txn
    generalize (system.enter entering).transaction txn = after at houtcome hentry ⊢
    cases houtcome with
    | kept => exact h.opened txn entry hentry
    | entered => simp [hopened] at hentry
    | beyond => cases hentry

/-- A transition keeps generations in sight among those given out. -/
theorem Numbered.transition (h : Numbered system) (hanchored : Anchored system)
    (htransition : Transition system action after) : Numbered after := by
  have hsetEngine : ∀ txn engine, Numbered (system.setEngineOf txn engine) :=
    fun _ engine ↦ h.setEngine _ engine
  cases htransition with
  | idle => exact h
  | files => exact ⟨h.retained, h.opened⟩
  | @openedEnvironment path flags config kind engine files hopen =>
      have htransition : Transition system (.openEnvironment path flags config kind) _ :=
        .openedEnvironment hopen
      exact h.openedEnvironment hanchored (fun env ↦ environment_append files _)
        (fun env henv ↦ (htransition.newborn henv).2) rfl
  | @closed env files hactive =>
      have hclosed : Numbered (system.modifyEnvironment env
          ({ · with closed := true, retained := [] })) :=
        h.modifyEnvironment (fun _ ↦ Nat.le_refl _) (by simp)
      exact ⟨hclosed.retained, hclosed.opened⟩
  | aside files => exact ⟨(h.setEngine _ _).retained, (h.setEngine _ _).opened⟩
  | used => exact hsetEngine _ _
  | @reopened txn name flags slot generation engine hfault hopen hlive =>
      refine (hsetEngine txn engine).recordOpen ?_
      rw [show (system.setEngineOf txn engine).transaction txn = system.transaction txn from rfl,
        setEngineOf, (environment_setEngine system _ _ engine).2]
      exact h.live_lt hanchored hlive
  | @opened txn name flags slot engine hfault hopen hlive =>
      refine ((hsetEngine txn engine).advance _).recordOpen ?_
      have henv := hanchored.env_lt txn (lt_of_lifecycleFault hfault)
      have hlength : (system.transaction txn).env
          < (system.setEngineOf txn engine).environments.length := by
        rw [setEngineOf, System.setEngine, length_modifyEnvironment]
        exact henv
      change _ < (((system.setEngineOf txn engine).advance (system.transaction txn).env).environment
        (system.transaction txn).env).nextGeneration
      rw [System.advance, environment_modifyEnvironment_self _ _ hlength, setEngineOf]
      exact Nat.lt_succ_of_le (Nat.le_of_eq (environment_setEngine system _ _ engine).2.symm)
  | dropped => exact (hsetEngine _ _).recordDrop _ _
  | began => exact (h.setEngine _ _).enter rfl
  | committed hfault hcommit =>
      exact ((hsetEngine _ _).handOver (hanchored.parent_env _)).finish _ _
  | commitFailed | discarded => exact (hsetEngine _ _).finish _ _
  | reset | renewed => exact (hsetEngine _ _).setState _ _

end MappedStore.System
