import MappedStore.Proofs.Gate
import MappedStore.Proofs.Scopes
import MappedStore.Proofs.Writers

/-!
# How final a committed drop is

A drop is pending until the commits of its transaction and of all ancestors have carried it to the
root (`CarriedToRoot`). Then the dropped generation is out of sight of every transaction begun
later, until a transaction that had recorded an open of it before commits as a root: that puts it
back (`Restores`). `System.drop_final` says that nothing else does, and that this always does.
-/

namespace MappedStore

namespace System

variable {system after : System} {action : Action} {env : EnvId} {txn : TxnId}
  {slot generation : Nat}

/-! ## Live generations below a drop -/

/-- The parent of a member of a chain that is not the outer one of two. -/
theorem Nested.parent_of_lt {ids : List TxnId} (h : Nested system ids) (hanchored : Anchored system)
    {inner : TxnId} (hinner : inner ∈ ids) (htxn : txn ∈ ids) (hlt : txn < inner) :
    ∃ parent ∈ ids, (system.transaction inner).parent = some parent ∧ txn ≤ parent := by
  induction ids with
  | nil => simp at hinner
  | cons first rest ih =>
      rcases List.mem_cons.mp htxn with rfl | houter
      · rcases List.mem_cons.mp hinner with rfl | hinner
        · exact absurd hlt (Nat.lt_irrefl _)
        · exact absurd (h.lt hanchored inner hinner) (Nat.not_lt_of_lt hlt)
      rcases List.mem_cons.mp hinner with rfl | hmem
      · cases rest with
        | nil => simp at houter
        | cons parent outer =>
            refine ⟨parent, by simp, h.1, ?_⟩
            rcases List.mem_cons.mp houter with rfl | hbeyond
            · exact Nat.le_refl _
            · exact Nat.le_of_lt (h.2.lt hanchored txn hbeyond)
      · obtain ⟨parent, hmem, hparent⟩ := ih h.2 hmem houter
        exact ⟨parent, List.mem_cons_of_mem _ hmem, hparent⟩

/-- A drop that has not been carried to the root yet: in the transaction that it has reached, and
in those nested in it, the generation is out of sight. -/
structure Pending (system : System) (env : EnvId) (slot generation : Nat) (txn : TxnId) :
    Prop where
  lt : txn < system.transactions.length
  env_eq : (system.transaction txn).env = env
  writer : (system.transaction txn).readOnly = false
  generation_lt : generation < system.nextGeneration env
  dropped : Writes system txn → slot ∈ (system.transaction txn).dropped
  opened : Writes system txn → ∀ inner, txn ≤ inner → (system.transaction inner).env = env →
    Writes system inner → (system.transaction inner).opened.lookup slot ≠ some generation

/-- While a drop is pending, its generation is live neither in the transaction that it has reached
nor in those nested in it. -/
theorem Pending.live_ne (h : Pending system env slot generation txn) (hsound : Sound system)
    (hwrites : Writes system txn) {inner : TxnId} (hle : txn ≤ inner)
    (henv : (system.transaction inner).env = env) (hinner : Writes system inner) :
    system.liveGeneration inner slot ≠ some generation := by
  induction inner using Nat.strongRecOn with
  | ind inner ih =>
      have hopened := h.opened hwrites inner hle henv hinner
      rw [liveGeneration_eq hsound.anchored, Transaction.record?]
      cases hlookup : (system.transaction inner).opened.lookup slot with
      | some found => simpa [hlookup] using hopened
      | none =>
          by_cases hdropped : slot ∈ (system.transaction inner).dropped
          · simp [hdropped]
          -- The transaction itself has dropped the slot, so this one is nested in it.
          have hne : txn ≠ inner := by
            rintro rfl
            exact hdropped (h.dropped hwrites)
          obtain ⟨ids, hchain⟩ := hsound.chained env
          obtain ⟨parent, hmem, hparent, hle'⟩ := hchain.nested.parent_of_lt hsound.anchored
            ((hchain.writes_iff hsound.anchored henv).mp hinner)
            ((hchain.writes_iff hsound.anchored h.env_eq).mp hwrites)
            (Nat.lt_of_le_of_ne hle hne)
          have hparentEnv := hchain.env_eq parent hmem
          have hless := hsound.anchored.parent_lt inner parent hparent
          simp only [List.contains_eq_mem, hdropped, hparent, decide_false]
          exact ih parent hless hle' hparentEnv
            ((hchain.writes_iff hsound.anchored hparentEnv).mpr hmem)

/-- One more open does not bring a generation into a scope unless it is of that generation. -/
theorem lookup_cons_ne {opens : Opens} {head found : Nat}
    (h : opens.lookup slot ≠ some generation) (hentry : slot = head → found ≠ generation) :
    ((head, found) :: opens).lookup slot ≠ some generation := by
  by_cases hslot : slot = head
  · simpa [List.lookup_cons, hslot] using hentry hslot
  · have hne : (slot == head) = false := by simpa using hslot
    simpa [List.lookup_cons, hne] using h

/-- Merging scopes does not bring in a generation that neither of them has. -/
theorem lookup_merge_ne {outer opened : Opens} {dropped : List Nat}
    (hinner : opened.lookup slot ≠ some generation)
    (houter : slot ∉ dropped → outer.lookup slot ≠ some generation) :
    (Opens.merge outer opened dropped).lookup slot ≠ some generation := by
  rw [lookup_merge]
  cases hlookup : opened.lookup slot with
  | some found => simpa [hlookup] using hinner
  | none =>
      by_cases hdropped : slot ∈ dropped
      · simp [hdropped]
      · simpa [hdropped] using houter hdropped

/-- Taking the entries of a slot out of a scope does not bring in a generation. -/
theorem lookup_filter_ne {opens : Opens} (h : opens.lookup slot ≠ some generation) (dropped : Nat) :
    (opens.filter (·.1 ≠ dropped)).lookup slot ≠ some generation := by
  rw [lookup_filter _ fun head ↦ decide (head ≠ dropped)]
  split
  · exact h
  · simp

/-- A drop stays pending if an action keeps the slot among the drops of the transaction, and brings
the generation neither into its scope nor into one inside. -/
theorem Pending.of_scopes (h : Pending system env slot generation txn) (hsound : Sound system)
    (hafter : system.after action = after)
    (hdropped : Writes after txn → slot ∈ (system.transaction txn).dropped →
      slot ∈ (after.scope txn).2)
    (hopened : Writes system txn → ∀ inner, txn ≤ inner → (system.transaction inner).env = env →
      Writes system inner → Writes after inner →
      after.scope inner = system.scope inner ∨
        (after.scope inner).1.lookup slot ≠ some generation)
    (hentered : ∀ inner, system.transactions.length ≤ inner → after.scope inner = ([], [])) :
    Pending after env slot generation txn := by
  subst hafter
  have htransition := hsound.transition action
  have hidentity := htransition.identity h.lt
  have henvLt : env < system.environments.length := h.env_eq ▸ hsound.anchored.env_lt txn h.lt
  refine ⟨htransition.lt_length h.lt, (congrArg (·.1) hidentity).trans h.env_eq,
    (congrArg (·.2.2.1) hidentity).trans h.writer,
    Nat.lt_of_lt_of_le h.generation_lt (htransition.nextGeneration_le henvLt), ?_, ?_⟩
  · exact fun hwrites ↦ hdropped hwrites (h.dropped (hsound.writes_back h.lt hwrites))
  · intro hwrites inner hle hinnerEnv hinner
    have hbefore := hsound.writes_back h.lt hwrites
    rcases Nat.lt_or_ge inner system.transactions.length with hlt | hge
    · have hsystemEnv := (congrArg (·.1) (htransition.identity hlt)).symm.trans hinnerEnv
      have hinnerBefore := hsound.writes_back hlt hinner
      rcases hopened hbefore inner hle hsystemEnv hinnerBefore hinner with hsame | hne
      · rw [show ((system.after action).transaction inner).opened
          = (system.transaction inner).opened from congrArg (·.1) hsame]
        exact h.opened hbefore inner hle hsystemEnv hinnerBefore
      · exact hne
    · rw [show ((system.after action).transaction inner).opened = [] from
        congrArg (·.1) (hentered inner hge)]
      simp

/-- A drop stays pending if an action that changes the scope of one transaction only does so in that
scope. It does not matter what becomes of a scope whose transaction has ended. -/
theorem Pending.of_scope (h : Pending system env slot generation txn) (hsound : Sound system)
    (hafter : system.after action = after) {changed : TxnId}
    (hchanged : changed < system.transactions.length)
    (hothers : ∀ other ≠ changed, after.scope other = system.scope other)
    (hdropped : Writes after changed → slot ∈ (system.transaction changed).dropped →
      slot ∈ (after.scope changed).2)
    (hopened : Writes system txn → txn ≤ changed → (system.transaction changed).env = env →
      Writes system changed → Writes after changed →
      (after.scope changed).1.lookup slot ≠ some generation) :
    Pending after env slot generation txn := by
  refine h.of_scopes hsound hafter (fun hwrites hbefore ↦ ?_)
    (fun hwrites inner hle henv hinner hinnerAfter ↦ ?_) fun inner hge ↦ ?_
  · by_cases htxn : txn = changed
    · subst htxn
      exact hdropped hwrites hbefore
    · rw [hothers txn htxn]
      exact hbefore
  · by_cases hchange : inner = changed
    · subst hchange
      exact .inr (hopened hwrites hle henv hinner hinnerAfter)
    · exact .inl (hothers inner hchange)
  · exact (hothers inner (Nat.ne_of_gt (Nat.lt_of_lt_of_le hchanged hge))).trans
      (scope_of_length_le hge)

/-- A drop stays pending when a nested transaction is committed. Its parent takes over what it has
recorded, and it is no writer any more itself. -/
theorem Pending.nested (h : Pending system env slot generation txn) (hsound : Sound system)
    {child parent : TxnId} (hafter : system.after (.commit child) = after)
    (hcommit : (system.commit child).result = .ok ())
    (hparent : (system.transaction child).parent = some parent)
    (houter : after.scope parent =
      (Opens.merge (system.transaction parent).opened (system.transaction child).opened
          (system.transaction child).dropped,
        (system.transaction child).dropped ++ (system.transaction parent).dropped))
    (hothers : ∀ other ≠ child, other ≠ parent → after.scope other = system.scope other) :
    Pending after env slot generation txn := by
  obtain ⟨hchildWrites, -, -⟩ := hsound.commit_nested hcommit hparent
  have hparentLt := hsound.anchored.parent_lt child parent hparent
  have hended : ∀ inner, Writes after inner → inner ≠ child := by
    rintro inner hwrites rfl
    exact hsound.not_writes_committed hcommit (hafter ▸ hwrites)
  refine h.of_scopes hsound hafter (fun hwrites hdropped ↦ ?_)
    (fun hwrites inner hle henv hinner hinnerAfter ↦ ?_) fun inner hge ↦ ?_
  · by_cases htxn : txn = parent
    · subst htxn
      rw [houter]
      exact List.mem_append_right _ hdropped
    · rw [hothers txn (hended txn hwrites) htxn]
      exact hdropped
  · by_cases hinnerParent : inner = parent
    · subst hinnerParent
      refine .inr ?_
      rw [houter]
      refine lookup_merge_ne ?_ fun _ ↦ h.opened hwrites inner hle henv hinner
      exact h.opened hwrites child (Nat.le_trans hle (Nat.le_of_lt hparentLt))
        ((hsound.anchored.parent_env child inner hparent).symm.trans henv) hchildWrites
    · exact .inl (hothers inner (hended inner hinnerAfter) hinnerParent)
  · have hne : inner ≠ child := Nat.ne_of_gt (Nat.lt_of_lt_of_le hchildWrites.1 hge)
    have hne' : inner ≠ parent :=
      Nat.ne_of_gt (Nat.lt_of_lt_of_le (Nat.lt_trans hparentLt hchildWrites.1) hge)
    exact (hothers inner hne hne').trans (scope_of_length_le hge)

/-- A drop stays pending whatever happens, as long as the transaction that it has reached has not
committed. -/
theorem Pending.act (h : Pending system env slot generation txn) (hsound : Sound system)
    (action : Action) : Pending (system.after action) env slot generation txn := by
  have hrescoped := (hsound.transition action).rescoped hsound.anchored
  generalize hafter : system.after action = after at hrescoped ⊢
  cases hrescoped with
  | same hscope | closed _ hscope =>
      refine h.of_scopes hsound hafter (fun _ hdropped ↦ ?_) (fun _ inner _ _ _ _ ↦ .inl (hscope inner))
        fun inner hge ↦ (hscope inner).trans (scope_of_length_le hge)
      rw [hscope]
      exact hdropped
  | @opened opener name flags slot' generation' after engine hfault hopen hgeneration hself hothers =>
      refine h.of_scope hsound hafter (lt_of_lifecycleFault hfault) hothers (fun _ hdropped ↦ ?_)
        fun hwrites hle henv hopener _ ↦ ?_
      · rw [hself]
        exact hdropped
      · rw [hself]
        refine lookup_cons_ne (h.opened hwrites opener hle henv hopener) ?_
        rintro rfl
        -- the open records what was live, which is not the dropped generation, or a new generation
        rcases hgeneration with hsome | ⟨-, hnext⟩
        · exact fun heq ↦ h.live_ne hsound hwrites hle henv hopener (heq ▸ hsome)
        · rw [hnext, henv]
          exact Nat.ne_of_gt h.generation_lt
  | @dropped dropper database after engine hfault hdrop hself hothers =>
      refine h.of_scope hsound hafter (lt_of_lifecycleFault hfault) hothers (fun _ hdropped ↦ ?_)
        fun hwrites hle henv hdropper _ ↦ ?_
      · rw [hself]
        exact List.mem_cons_of_mem _ hdropped
      · rw [hself]
        exact lookup_filter_ne (h.opened hwrites dropper hle henv hdropper) database.slot
  | nested hfault hcommit hparent hself houter hothers =>
      exact h.nested hsound hafter hcommit hparent houter hothers
  | @root root after hfault hcommit hparent hself hothers =>
      have hended : ¬ Writes after root := hafter ▸ hsound.not_writes_committed hcommit
      exact h.of_scope hsound hafter (lt_of_lifecycleFault hfault) hothers
        (fun hwrites ↦ absurd hwrites hended) fun _ _ _ _ hwrites ↦ absurd hwrites hended

/-! ## Live generations after a committed drop -/

/-- A generation that no transaction from some number on can see. -/
structure Barred (system : System) (env : EnvId) (slot generation : Nat) (first : TxnId) :
    Prop where
  env_lt : env < system.environments.length
  first_le : first ≤ system.transactions.length
  generation_lt : generation < system.nextGeneration env
  retained : (system.retained env).lookup slot ≠ some generation
  opened : ∀ txn, first ≤ txn → (system.transaction txn).env = env →
    (system.transaction txn).opened.lookup slot ≠ some generation
  parent : ∀ txn parent, first ≤ txn → (system.transaction txn).env = env →
    (system.transaction txn).parent = some parent → first ≤ parent
  writes : ∀ txn, (system.transaction txn).env = env → Writes system txn → first ≤ txn

variable {first : TxnId}

/-- A barred generation is not live in the transactions that cannot see it. -/
theorem Barred.live_ne (h : Barred system env slot generation first) (hanchored : Anchored system)
    (htxn : first ≤ txn) (henv : (system.transaction txn).env = env) :
    system.liveGeneration txn slot ≠ some generation := by
  induction txn using Nat.strongRecOn with
  | ind txn ih =>
      have hopened := h.opened txn htxn henv
      rw [liveGeneration_eq hanchored, Transaction.record?]
      cases hlookup : (system.transaction txn).opened.lookup slot with
      | some found => simpa [hlookup] using hopened
      | none =>
          by_cases hdropped : slot ∈ (system.transaction txn).dropped
          · simp [hdropped]
          cases hparent : (system.transaction txn).parent with
          | some parent =>
              simp only [List.contains_eq_mem, hdropped, decide_false]
              exact ih parent (hanchored.parent_lt txn parent hparent)
                (h.parent txn parent htxn henv hparent)
                ((hanchored.parent_env txn parent hparent).trans henv)
          | none =>
              simp only [List.contains_eq_mem, hdropped, decide_false, henv]
              exact h.retained

/-- The commit of a root that had recorded an open of a slot with a generation. -/
def Restores (env : EnvId) (slot generation : Nat) (system : System) (action : Action) : Prop :=
  ∃ txn, action = .commit txn ∧ (system.transaction txn).env = env ∧
    (system.transaction txn).parent = none ∧
    (system.transaction txn).opened.lookup slot = some generation ∧
    (system.commit txn).result = .ok ()

/-- An action that restores nothing brings a barred generation neither into what the environment
retains nor into the scope of a transaction that cannot see it. -/
theorem Barred.rescoped (h : Barred system env slot generation first) (hsound : Sound system)
    (hrescoped : Rescoped system action after)
    (hrestores : ¬ Restores env slot generation system action) :
    (after.retained env).lookup slot ≠ some generation ∧
      ∀ txn, first ≤ txn → (txn < system.transactions.length → (system.transaction txn).env = env) →
        (after.scope txn).1.lookup slot ≠ some generation := by
  have hscopes : ∀ txn, first ≤ txn →
      (txn < system.transactions.length → (system.transaction txn).env = env) →
      (system.scope txn).1.lookup slot ≠ some generation := by
    intro txn hle henv
    rcases Nat.lt_or_ge txn system.transactions.length with hlt | hge
    · exact h.opened txn hle (henv hlt)
    · rw [scope_of_length_le hge]
      simp
  cases hrescoped with
  | same hscope hretained =>
      rw [hretained env h.env_lt]
      exact ⟨h.retained, fun txn hle henv ↦ hscope txn ▸ hscopes txn hle henv⟩
  | closed _ hscope hretained =>
      refine ⟨?_, fun txn hle henv ↦ hscope txn ▸ hscopes txn hle henv⟩
      rcases hretained env with hsame | ⟨-, hnone⟩
      · rw [hsame]
        exact h.retained
      · simp [hnone]
  | @opened opener name flags slot' generation' after engine hfault hopen hgeneration hself hothers
      hretained =>
      refine ⟨hretained env ▸ h.retained, fun txn hle henv ↦ ?_⟩
      by_cases htxn : txn = opener
      · subst htxn
        have henv := henv (lt_of_lifecycleFault hfault)
        rw [hself]
        refine lookup_cons_ne (h.opened txn hle henv) ?_
        rintro rfl
        rcases hgeneration with hsome | ⟨-, hnext⟩
        · exact fun heq ↦ h.live_ne hsound.anchored hle henv (heq ▸ hsome)
        · rw [hnext, henv]
          exact Nat.ne_of_gt h.generation_lt
      · rw [hothers txn htxn]
        exact hscopes txn hle henv
  | @dropped dropper database after engine hfault hdrop hself hothers hretained =>
      refine ⟨hretained env ▸ h.retained, fun txn hle henv ↦ ?_⟩
      by_cases htxn : txn = dropper
      · subst htxn
        rw [hself]
        exact lookup_filter_ne (h.opened txn hle (henv (lt_of_lifecycleFault hfault))) database.slot
      · rw [hothers txn htxn]
        exact hscopes txn hle henv
  | @nested child parent after hfault hcommit hparent hself houter hothers hretained =>
      refine ⟨hretained env ▸ h.retained, fun txn hle henv ↦ ?_⟩
      by_cases htxn : txn = child
      · rw [htxn, hself]
        simp
      by_cases htxn' : txn = parent
      · subst htxn'
        have hlt := hsound.anchored.parent_lt child txn hparent
        have henv := henv (Nat.lt_trans hlt (lt_of_lifecycleFault hfault))
        rw [houter]
        refine lookup_merge_ne ?_ fun _ ↦ h.opened txn hle henv
        exact h.opened child (Nat.le_trans hle (Nat.le_of_lt hlt))
          ((hsound.anchored.parent_env child txn hparent).symm.trans henv)
      · rw [hothers txn htxn htxn']
        exact hscopes txn hle henv
  | @root root after hfault hcommit hparent hself hothers hretained hapart =>
      constructor
      · by_cases henv : (system.transaction root).env = env
        · rw [← henv, hretained, henv]
          refine lookup_merge_ne (fun hlookup ↦ hrestores ?_) fun _ ↦ h.retained
          exact ⟨root, rfl, henv, hparent, hlookup, hcommit⟩
        · rw [hapart env (Ne.symm henv)]
          exact h.retained
      · intro txn hle henv
        by_cases htxn : txn = root
        · rw [htxn, hself]
          simp
        · rw [hothers txn htxn]
          exact hscopes txn hle henv

/-- A barred generation stays barred, unless a root commits an open of it. -/
theorem Barred.act (h : Barred system env slot generation first) (hsound : Sound system)
    (hrestores : ¬ Restores env slot generation system action) :
    Barred (system.after action) env slot generation first := by
  have htransition := hsound.transition action
  obtain ⟨hretained, hopened⟩ := h.rescoped hsound (htransition.rescoped hsound.anchored) hrestores
  have hbefore : ∀ txn < system.transactions.length,
      ((system.after action).transaction txn).env = (system.transaction txn).env :=
    fun txn hlt ↦ congrArg (·.1) (htransition.identity hlt)
  refine ⟨Nat.lt_of_lt_of_le h.env_lt htransition.length.2,
    Nat.le_trans h.first_le htransition.length_le,
    Nat.lt_of_lt_of_le h.generation_lt (htransition.nextGeneration_le h.env_lt), hretained, ?_, ?_,
    ?_⟩
  · exact fun txn hle henv ↦ hopened txn hle fun hlt ↦ (hbefore txn hlt).symm.trans henv
  · intro txn parent hle henv hparent
    rcases Nat.lt_or_ge txn system.transactions.length with hlt | hge
    · exact h.parent txn parent hle ((hbefore txn hlt).symm.trans henv)
        ((congrArg (·.2.2.2) (htransition.identity hlt)).symm.trans hparent)
    · have hwrites := hsound.writes_parent hge hparent
      refine h.writes parent ((hbefore parent hwrites.1).symm.trans ?_) hwrites
      exact ((hsound.act action).anchored.parent_env txn parent hparent).trans henv
  · intro txn henv hwrites
    rcases Nat.lt_or_ge txn system.transactions.length with hlt | hge
    · exact h.writes txn ((hbefore txn hlt).symm.trans henv) (hsound.writes_back hlt hwrites)
    · exact Nat.le_trans h.first_le hge

/-! ## From the drop to its commit -/

/-- Runs in which a transaction and then each of its ancestors commits, up to the root. Anything may
happen before each of the commits. -/
inductive CarriedToRoot : System → TxnId → System → Prop where
  | root {first last : System} {txn : TxnId} (run : Run anything first last)
      (hparent : (last.transaction txn).parent = none)
      (hcommit : (last.commit txn).result = .ok ()) :
      CarriedToRoot first txn (last.after (.commit txn))
  | nested {first last committed : System} {txn parent : TxnId} (run : Run anything first last)
      (hparent : (last.transaction txn).parent = some parent)
      (hcommit : (last.commit txn).result = .ok ())
      (h : CarriedToRoot (last.after (.commit txn)) parent committed) :
      CarriedToRoot first txn committed

/-- A drop of a live database is pending in the transaction that made it. -/
theorem pending_of_drop {database : Database} (hsound : Sound system)
    (hchecks : system.checks = true) (hslot : database.slot ≠ Engine.mainSlot)
    (hdrop : (system.dropDatabase txn database).result = .ok ()) :
    Pending (system.after (.dropDatabase txn database)) database.env database.slot
      database.generation txn := by
  rcases system.dropDatabase_cases txn database with
    ⟨⟨refusal, hresult⟩ | hmain, -⟩ | ⟨engine, hfault, henv, haccepts, -, hengine, -, hstate⟩
  · simp [hdrop] at hresult
  · exact absurd hmain hslot
  have htxn := lt_of_lifecycleFault hfault
  have htransition := hsound.transition (.dropDatabase txn database)
  have hidentity := htransition.identity htxn
  have hafter : system.after (.dropDatabase txn database)
      = (system.setEngineOf txn engine).recordDrop txn database.slot := hstate
  have hset : txn < (system.setEngineOf txn engine).transactions.length := htxn
  obtain ⟨hself, -⟩ := scope_recordDrop hset
  rw [← hafter] at hself
  have hok : ((system.engineOf txn).drop (system.native txn) database.slot true).1 = .ok () := by
    rw [hengine]
  obtain ⟨⟨found, hfound, hblocked, hwriter⟩, -⟩ :=
    (Engine.drop_cases (system.engineOf txn) (system.native txn) database.slot true).2 hok
  obtain ⟨hwrites, hinnermost⟩ := hsound.innermost htxn hfound hwriter hblocked
  have hlength : (system.after (.dropDatabase txn database)).transactions.length
      = system.transactions.length := by
    rw [hafter]
    exact length_modifyTransaction _ _ _
  have hlive : system.liveGeneration txn database.slot = some database.generation := by
    simpa [accepts] using haccepts hchecks
  refine ⟨hlength ▸ htxn, (congrArg (·.1) hidentity).trans henv.symm,
    (congrArg (·.2.2.1) hidentity).trans (hsound.of_writes hwrites).1, ?_, fun _ ↦ ?_,
    fun _ inner hle hinnerEnv hinner ↦ ?_⟩
  · rw [henv]
    exact Nat.lt_of_lt_of_le (hsound.numbered.live_lt hsound.anchored hlive)
      (htransition.nextGeneration_le (hsound.anchored.env_lt txn htxn))
  · rw [show ((system.after (.dropDatabase txn database)).transaction txn).dropped = _ from
      congrArg (·.2) hself]
    exact List.mem_cons_self
  · have hlt : inner < system.transactions.length := hlength ▸ hinner.1
    have hbefore := (congrArg (·.1) (htransition.identity hlt)).symm.trans hinnerEnv
    obtain rfl : inner = txn := Nat.le_antisymm
      (hinnermost inner (hbefore.trans henv) (hsound.writes_back hlt hinner)) hle
    rw [show ((system.after (.dropDatabase inner database)).transaction inner).opened = _ from
      congrArg (·.1) hself, lookup_filter _ fun head ↦ decide (head ≠ database.slot)]
    simp

/-- A drop that has reached a root is barred by the commit of the root. -/
theorem Pending.barred (h : Pending system env slot generation txn) (hsound : Sound system)
    (hparent : (system.transaction txn).parent = none)
    (hcommit : (system.commit txn).result = .ok ()) :
    Barred (system.after (.commit txn)) env slot generation
      (system.after (.commit txn)).transactions.length := by
  have htransition := hsound.transition (.commit txn)
  have henvLt : env < system.environments.length := h.env_eq ▸ hsound.anchored.env_lt txn h.lt
  obtain ⟨-, -, hretained, -⟩ := scopes_commit_root hsound.anchored hcommit hparent
  obtain ⟨hwrites, hends⟩ := hsound.commit_root hcommit hparent h.writer
  have hended : ∀ later, (system.after (.commit txn)).transactions.length ≤ later →
      (system.after (.commit txn)).transaction later = .ended := fun later hle ↦
    transaction_of_length_le hle
  refine ⟨Nat.lt_of_lt_of_le henvLt htransition.length.2, Nat.le_refl _,
    Nat.lt_of_lt_of_le h.generation_lt (htransition.nextGeneration_le henvLt), ?_, ?_, ?_, ?_⟩
  · rw [← h.env_eq, show (system.after (.commit txn)).retained _ = _ from hretained]
    refine lookup_merge_ne (h.opened hwrites txn (Nat.le_refl _) h.env_eq hwrites) fun hnot ↦ ?_
    exact absurd (h.dropped hwrites) hnot
  · intro later hle _
    simp [hended later hle, Transaction.ended]
  · intro later parent hle _ hlater
    simp [hended later hle, Transaction.ended] at hlater
  · intro other henv hother
    have hlt : other < system.transactions.length := htransition.length_commit ▸ hother.1
    have hbefore := (congrArg (·.1) (htransition.identity hlt)).symm.trans henv
    exact absurd hother (hends other (hbefore.trans h.env_eq.symm))

/-- A commit carries a pending drop to the parent. -/
theorem Pending.outwards (h : Pending system env slot generation txn) (hsound : Sound system)
    {parent : TxnId} (hparent : (system.transaction txn).parent = some parent)
    (hcommit : (system.commit txn).result = .ok ()) :
    Pending (system.after (.commit txn)) env slot generation parent := by
  have htransition := hsound.transition (.commit txn)
  have henvLt : env < system.environments.length := h.env_eq ▸ hsound.anchored.env_lt txn h.lt
  obtain ⟨-, houter, -, -⟩ := scopes_commit_nested hsound.anchored hcommit hparent
  obtain ⟨hwrites, hparentWrites, hinnermost⟩ := hsound.commit_nested hcommit hparent
  have hlt := hsound.anchored.parent_lt txn parent hparent
  have hparentEnv := (hsound.anchored.parent_env txn parent hparent).trans h.env_eq
  have hidentity := htransition.identity hparentWrites.1
  have hlength := htransition.length_commit
  refine ⟨hlength ▸ hparentWrites.1, (congrArg (·.1) hidentity).trans hparentEnv,
    (congrArg (·.2.2.1) hidentity).trans (hsound.of_writes hparentWrites).1,
    Nat.lt_of_lt_of_le h.generation_lt (htransition.nextGeneration_le henvLt), fun _ ↦ ?_,
    fun _ inner hle henv hinner ↦ ?_⟩
  · rw [show ((system.after (.commit txn)).transaction parent).dropped = _ from
      congrArg (·.2) houter]
    exact List.mem_append_left _ (h.dropped hwrites)
  · have hinnerLt : inner < system.transactions.length := hlength ▸ hinner.1
    have hinnerEnv := (congrArg (·.1) (htransition.identity hinnerLt)).symm.trans henv
    obtain rfl : inner = parent :=
      Nat.le_antisymm (hinnermost inner (hinnerEnv.trans h.env_eq.symm) hinner) hle
    rw [show ((system.after (.commit txn)).transaction inner).opened = _ from
      congrArg (·.1) houter]
    refine lookup_merge_ne (h.opened hwrites txn (Nat.le_refl _) h.env_eq hwrites) fun hnot ↦ ?_
    exact absurd (h.dropped hwrites) hnot

/-- A drop stays pending along any run. -/
theorem Pending.run {allowed : System → Action → Prop} {last : System}
    (h : Pending system env slot generation txn) (hsound : Sound system)
    (hrun : Run allowed system last) : Pending last env slot generation txn := by
  induction hrun with
  | nil => exact h
  | step run _ ih => exact ih.act (hsound.run run) _

/-- Carrying a drop to the root is a run. -/
theorem CarriedToRoot.run {committed : System} (h : CarriedToRoot system txn committed) :
    Run anything system committed := by
  induction h with
  | root run => exact run.step trivial
  | nested run _ _ _ ih => exact (run.step trivial).trans ih

/-- A drop that has been carried to the root is barred. -/
theorem CarriedToRoot.barred {committed : System} (h : CarriedToRoot system txn committed)
    (hsound : Sound system) (hpending : Pending system env slot generation txn) :
    Barred committed env slot generation committed.transactions.length := by
  induction h with
  | root run hparent hcommit =>
      exact (hpending.run hsound run).barred (hsound.run run) hparent hcommit
  | nested run hparent hcommit _ ih =>
      have hlast := hsound.run run
      exact ih (hlast.act _) ((hpending.run hsound run).outwards hlast hparent hcommit)

/-- A barred generation stays barred along any run that restores nothing. -/
theorem Barred.run {last : System} (h : Barred system env slot generation first)
    (hsound : Sound system)
    (hrun : Run (fun before action ↦ ¬ Restores env slot generation before action) system last) :
    Barred last env slot generation first := by
  induction hrun with
  | nil => exact h
  | step run hrestores ih => exact ih.act (hsound.run run) hrestores

/-- After a commit that restores a generation, a root that begins sees it as live. -/
theorem accepts_of_restores {database : Database} (hsound : Sound system)
    (hrestores : Restores database.env database.slot database.generation system action)
    {flags : TxnFlags} {thread : Nat} {later : TxnId}
    (hbegin : ((system.after action).begin database.env none flags thread).result = .ok later) :
    ((system.after action).begin database.env none flags thread).state.accepts later database
      = true := by
  obtain ⟨txn, rfl, henv, hparent, hlookup, hcommit⟩ := hrestores
  obtain ⟨-, -, hretained, -⟩ := scopes_commit_root hsound.anchored hcommit hparent
  have hkept : ((system.after (.commit txn)).retained database.env).lookup database.slot
      = some database.generation := by
    rw [← henv, show (system.after (.commit txn)).retained _ = _ from hretained]
    exact Opens.lookup_merge_of_some hlookup
  rw [accepts, liveGeneration_begin (hsound.act (.commit txn)) hbegin, hkept]
  simp

/-- Once a drop has been committed up to the root, no transaction begun later lets the dropped
generation through its gate, whatever follows, up to the first commit of a root that had recorded
an open of that generation itself. That commit puts it back: a root that begins next accepts it. -/
theorem drop_final {first committed last : System} {txn : TxnId} {database : Database}
    (hfirst : Reachable first) (hchecks : first.checks = true)
    (hnamed : database.slot ≠ Engine.mainSlot)
    (hdrop : (first.dropDatabase txn database).result = .ok ())
    (hcarried : CarriedToRoot (first.after (.dropDatabase txn database)) txn committed)
    (hrun : Run (fun system action ↦
      ¬ Restores database.env database.slot database.generation system action) committed last) :
    (∀ later ≥ committed.transactions.length, ∀ action access,
        action.access? = some (later, access) → access.database.env = database.env →
        access.database.slot = database.slot → access.database.generation = database.generation →
        (last.act action).result = .error (.error
            ((last.guardFault later access).getD (.databaseNotRetained database.slot))) ∧
          last.after action = last) ∧
      ∀ action, Restores database.env database.slot database.generation last action →
        ∀ flags thread later,
          ((last.after action).begin database.env none flags thread).result = .ok later →
          ((last.after action).begin database.env none flags thread).state.accepts later database
            = true := by
  have hsound := hfirst.sound
  have hpending := pending_of_drop hsound hchecks hnamed hdrop
  have hdropped := hsound.act (.dropDatabase txn database)
  have hbarred := hcarried.barred hdropped hpending
  have hcommitted := hdropped.run hcarried.run
  have hlast := hcommitted.run hrun
  have hchecksLast : last.checks = true :=
    ((hrun.checks hcommitted).trans (hcarried.run.checks hdropped)).trans
      ((hsound.transition _).checks.trans hchecks)
  refine ⟨fun later hlater action access haccess henv hslot hgeneration ↦ ?_,
    fun action hrestores flags thread later hbegin ↦ accepts_of_restores hlast hrestores hbegin⟩
  -- The gate may have other reasons to refuse, and those come first.
  have hfault : last.gateFault later access = some
      ((last.guardFault later access).getD (.databaseNotRetained database.slot)) := by
    cases hguard : last.guardFault later access with
    | some error => simp [gateFault, hguard]
    | none =>
        have hlaterEnv := (lifecycleFault_of_guardFault hguard).2
        have hlive := (hbarred.run hcommitted hrun).live_ne hlast.anchored hlater
          (hlaterEnv.symm.trans henv)
        rw [← hslot, ← hgeneration] at hlive
        rw [gateFault_of_not_live hchecksLast hlive, hguard, hslot]
  exact act_refused haccess hfault

/-- A drop that is committed in the transaction that made it is final in the next one. -/
theorem drop_final_next :
    ((sample.afterAll [.begin 0 none .empty mainThread, .dropDatabase 1 sampleDatabase, .commit 1,
        .begin 0 none TxnFlags.readOnly mainThread]).act (.get 2 sampleDatabase [107])).result
      = .error (.error (.databaseNotRetained 2)) := by
  have hdropped : Run anything sample (sample.afterAll [.begin 0 none .empty mainThread]) :=
    .all _ _
  have hbegin : ¬ Restores 0 2 1 (sample.afterAll [.begin 0 none .empty mainThread,
      .dropDatabase 1 sampleDatabase, .commit 1]) (.begin 0 none TxnFlags.readOnly mainThread) := by
    rintro ⟨_, haction, -⟩
    cases haction
  have hfinal := (drop_final (sample_reachable.run hdropped) (by decide +kernel) (by decide)
    (by decide +kernel : ((sample.afterAll [.begin 0 none .empty mainThread]).dropDatabase 1
      sampleDatabase).result = .ok ())
    (.root .nil (by decide +kernel) (by decide +kernel)) (Run.single _ hbegin)).1
    2 (by decide +kernel) (.get 2 sampleDatabase [107]) _ rfl rfl rfl rfl
  rw [show System.guardFault _ 2 _ = none from by decide +kernel] at hfinal
  exact hfinal.1

/-- A reader that had opened the database before it was dropped undoes the committed drop by its own
commit: a transaction that begins afterwards lets the dropped generation through, and its read
fails in the engine. -/
theorem drop_undone_by_older_reader : ∃ (first committed last : System) (txn later : TxnId)
    (database : Database) (key : Bytes), Reachable first ∧ first.checks = true ∧
      database.slot ≠ Engine.mainSlot ∧ (first.dropDatabase txn database).result = .ok () ∧
      CarriedToRoot (first.after (.dropDatabase txn database)) txn committed ∧
      Run anything committed last ∧ committed.transactions.length ≤ later ∧
      last.guardFault later { database := database, key := some key } = none ∧
      (last.get later database key).result = .error (.error (.ofCode (.system 22))) := by
  have hopened : Run anything sample (sample.afterAll [.begin 0 none TxnFlags.readOnly mainThread,
      .openDatabase 1 (some "a") .empty, .begin 0 none .empty mainThread]) := .all _ _
  refine ⟨_, _, _, 2, 3, sampleDatabase, [107], sample_reachable.run hopened, by decide +kernel,
    by decide, by decide +kernel, .root .nil (by decide +kernel) (by decide +kernel),
    .all _ [.commit 1, .begin 0 none TxnFlags.readOnly mainThread], ?_, ?_, ?_⟩
  · decide +kernel
  · decide +kernel
  · decide +kernel

end System

end MappedStore
