import Mathlib.Data.Finset.Card
import MappedStore.Proofs.Conduct
import MappedStore.Proofs.Sound

/-!
# What the counters count

An environment counts its transactions that have not ended, and a transaction counts those nested
directly in it that have not ended (`System.Counted`). So the counters can be relied on to tell that
there are none.
-/

namespace MappedStore.System

variable {system middle after : System} {action : Action} {env : EnvId} {txn : TxnId}

/-- The transactions that have not ended. -/
def living (system : System) : Finset TxnId :=
  (Finset.range system.transactions.length).filter
    fun txn ↦ (system.transaction txn).state.isFinished = false

/-- A transaction lives if it has not ended; a number that was not given out names none that
lives. -/
theorem mem_living : txn ∈ system.living ↔ (system.transaction txn).state.isFinished = false := by
  rw [living, Finset.mem_filter, Finset.mem_range, and_iff_right_iff_imp]
  exact lt_of_state rfl

/-- The counters of environments and transactions are right. -/
structure Counted (system : System) : Prop where
  active : ∀ env, (system.environment env).active
    = (system.living.filter fun txn ↦ (system.transaction txn).env = env).card
  children : ∀ outer, (system.transaction outer).children
    = (system.living.filter fun txn ↦ (system.transaction txn).parent = some outer).card

/-- The transactions that live are the same if the numbers given out and the stages are. -/
theorem Counted.of_same (h : Counted system)
    (hliving : after.living = system.living)
    (hidentity : ∀ txn ∈ system.living,
      (after.transaction txn).identity = (system.transaction txn).identity)
    (hactive : ∀ env, (after.environment env).active = (system.environment env).active)
    (hchildren : ∀ txn, (after.transaction txn).children = (system.transaction txn).children) :
    Counted after := by
  constructor
  · intro env
    rw [hactive, h.active, hliving]
    refine congrArg Finset.card (Finset.filter_congr fun txn htxn ↦ ?_)
    rw [show (after.transaction txn).env = (system.transaction txn).env from
      congrArg (·.1) (hidentity txn htxn)]
  · intro outer
    rw [hchildren, h.children, hliving]
    refine congrArg Finset.card (Finset.filter_congr fun txn htxn ↦ ?_)
    rw [show (after.transaction txn).parent = (system.transaction txn).parent from
      congrArg (·.2.2.2) (hidentity txn htxn)]

/-- In an environment without active transactions all have ended. -/
theorem Counted.finished_of_active (h : Counted system)
    (hactive : (system.environment (system.transaction txn).env).active = 0) :
    (system.transaction txn).state.isFinished = true := by
  by_contra hstate
  rw [h.active, Finset.card_eq_zero] at hactive
  exact Finset.notMem_empty txn (hactive ▸ Finset.mem_filter.mpr
    ⟨mem_living.mpr (Bool.eq_false_of_not_eq_true hstate), rfl⟩)

/-- In a transaction without children all that were nested directly in it have ended. -/
theorem Counted.finished_of_children (h : Counted system) {outer : TxnId}
    (hchildren : (system.transaction outer).children = 0)
    (hparent : (system.transaction txn).parent = some outer) :
    (system.transaction txn).state.isFinished = true := by
  by_contra hstate
  rw [h.children, Finset.card_eq_zero] at hchildren
  exact Finset.notMem_empty txn (hchildren ▸ Finset.mem_filter.mpr
    ⟨mem_living.mpr (Bool.eq_false_of_not_eq_true hstate), hparent⟩)

namespace Unmoved

/-- A transaction has ended when it had before. -/
theorem state (h : Unmoved system after) (txn : TxnId) :
    (after.transaction txn).state = (system.transaction txn).state :=
  congrArg (·.2.1) (h.transaction txn)

/-- The identities of transactions stay. -/
theorem identity (h : Unmoved system after) (txn : TxnId) :
    (after.transaction txn).identity = (system.transaction txn).identity :=
  congrArg (·.1) (h.transaction txn)

/-- The same transactions live. -/
theorem living (h : Unmoved system after) : after.living = system.living := by
  ext txn
  rw [mem_living, mem_living, h.state]

/-- The counters stay right. -/
theorem counted (h : Unmoved system after) (hcounted : Counted system) : Counted after :=
  hcounted.of_same h.living (fun txn _ ↦ h.identity txn)
    (fun env ↦ congrArg (·.2) (h.environment env)) fun txn ↦ congrArg (·.2.2) (h.transaction txn)

end Unmoved

/-- The counters stay right when a transaction changes its stage of life without ending. -/
theorem Counted.setState (h : Counted system) {state : TxnState}
    (hbefore : (system.transaction txn).state.isFinished = false)
    (hstate : state.isFinished = false) : Counted (system.setState txn state) := by
  refine h.of_same (Finset.ext fun other ↦ ?_) (fun other _ ↦ ?_) (fun _ ↦ rfl) fun other ↦ ?_
  · rw [mem_living, mem_living]
    by_cases hother : other = txn
    · subst hother
      rw [System.setState, transaction_modifyTransaction_self _ _ (lt_of_state rfl hbefore)]
      simp [hbefore, hstate]
    · rw [System.setState, transaction_modifyTransaction_of_ne _ _ hother]
  · exact field_modifyTransaction (·.identity) (fun _ ↦ by rfl) system txn other
  · exact field_modifyTransaction (·.children) (fun _ ↦ by rfl) system txn other

/-- The number of active transactions after an end. -/
theorem active_finish (henv : (system.transaction txn).env < system.environments.length)
    (state : TxnState) (env : EnvId) : ((system.finish txn state).environment env).active
      = (system.environment env).active - if env = (system.transaction txn).env then 1 else 0 := by
  have hmodified : ∀ change : Environment → Environment,
      (∀ before, (change before).active = before.active - 1) →
      ((system.modifyEnvironment (system.transaction txn).env change).environment env).active
        = (system.environment env).active
          - if env = (system.transaction txn).env then 1 else 0 := by
    intro change hchange
    split
    · rename_i heq
      subst heq
      rw [environment_modifyEnvironment_self _ _ henv, hchange]
    · rename_i hne
      rw [environment_modifyEnvironment_of_ne _ _ hne, Nat.sub_zero]
  unfold finish
  dsimp only
  split
  all_goals exact hmodified _ fun _ ↦ rfl

/-- The number of transactions nested in one after an end. -/
theorem children_finish (hparent : ∀ parent, (system.transaction txn).parent = some parent →
      parent < system.transactions.length) (state : TxnState) (outer : TxnId) :
    ((system.finish txn state).transaction outer).children
      = (system.transaction outer).children
        - if (system.transaction txn).parent = some outer then 1 else 0 := by
  have hself : ((system.modifyTransaction txn fun ended ↦
      { ended with state := state, holdsWriter := false }).transaction outer).children
        = (system.transaction outer).children :=
    field_modifyTransaction (·.children) (fun _ ↦ by rfl) system txn outer
  unfold finish
  dsimp only
  cases hfound : (system.transaction txn).parent with
  | none => exact hself
  | some parent =>
      by_cases houter : outer = parent
      · subst houter
        rw [if_pos rfl, transaction_modifyTransaction_self _ _ (by simpa using hparent outer hfound)]
        exact congrArg (· - 1) hself
      · rw [if_neg (by simpa using Ne.symm houter), transaction_modifyTransaction_of_ne _ _ houter]
        exact hself

/-- After an end the others live. -/
theorem living_finish (htxn : txn < system.transactions.length) {state : TxnState}
    (hstate : state.isFinished = true) :
    (system.finish txn state).living = system.living.erase txn := by
  ext other
  rw [Finset.mem_erase, mem_living, mem_living]
  by_cases hother : other = txn
  · subst hother
    rw [field_finish_self (·.state) (fun _ _ ↦ by rfl) state htxn, hstate]
    simp
  · rw [field_finish_of_ne (·.state) (fun _ _ ↦ by rfl) state hother]
    simp [hother]

/-- One member less among those that satisfy a condition. -/
theorem card_filter_erase {members : Finset TxnId} (hmem : txn ∈ members) (property : TxnId → Prop)
    [DecidablePred property] : ((members.erase txn).filter property).card
      = (members.filter property).card - if property txn then 1 else 0 := by
  rw [Finset.filter_erase]
  split
  · rename_i hproperty
    exact Finset.card_erase_of_mem (Finset.mem_filter.mpr ⟨hmem, hproperty⟩)
  · rename_i hproperty
    rw [Finset.erase_eq_of_notMem fun h ↦ hproperty (Finset.mem_filter.mp h).2, Nat.sub_zero]

/-- The counters are right after an end. -/
theorem Counted.finish (h : Counted system)
    (hunfinished : (system.transaction txn).state.isFinished = false)
    (henv : (system.transaction txn).env < system.environments.length)
    (hparent : ∀ parent, (system.transaction txn).parent = some parent →
      parent < system.transactions.length) {state : TxnState}
    (hstate : state.isFinished = true) : Counted (system.finish txn state) := by
  have htxn := lt_of_state rfl hunfinished
  have hmem := mem_living.mpr hunfinished
  have hidentity : ∀ other, ((system.finish txn state).transaction other).identity
      = (system.transaction other).identity :=
    field_finish (·.identity) (fun _ _ _ _ ↦ by rfl) system txn state
  constructor
  · intro env
    have hsame : ((system.finish txn state).living.filter fun other ↦
        ((system.finish txn state).transaction other).env = env)
          = (system.living.erase txn).filter fun other ↦ (system.transaction other).env = env := by
      rw [living_finish htxn hstate]
      refine Finset.filter_congr fun other _ ↦ ?_
      rw [show ((system.finish txn state).transaction other).env = (system.transaction other).env
        from congrArg (·.1) (hidentity other)]
    rw [active_finish henv, h.active, hsame, card_filter_erase hmem]
    simp [eq_comm]
  · intro outer
    have hsame : ((system.finish txn state).living.filter fun other ↦
        ((system.finish txn state).transaction other).parent = some outer)
          = (system.living.erase txn).filter
            fun other ↦ (system.transaction other).parent = some outer := by
      rw [living_finish htxn hstate]
      refine Finset.filter_congr fun other _ ↦ ?_
      rw [show ((system.finish txn state).transaction other).parent
        = (system.transaction other).parent from congrArg (·.2.2.2) (hidentity other)]
    rw [children_finish hparent, h.children, hsame, card_filter_erase hmem]

/-! ## Entries -/

variable {entering : Transaction}

/-- The number of active transactions after an entry. -/
theorem active_enter (henv : entering.env < system.environments.length) (env : EnvId) :
    ((system.enter entering).environment env).active
      = (system.environment env).active + if env = entering.env then 1 else 0 := by
  have hmodified : ∀ change : Environment → Environment,
      (∀ before, (change before).active = before.active + 1) →
      ((system.modifyEnvironment entering.env change).environment env).active
        = (system.environment env).active + if env = entering.env then 1 else 0 := by
    intro change hchange
    split
    · rename_i heq
      subst heq
      rw [environment_modifyEnvironment_self _ _ henv, hchange]
    · rename_i hne
      rw [environment_modifyEnvironment_of_ne _ _ hne, Nat.add_zero]
  unfold enter
  dsimp only
  split
  all_goals exact hmodified _ fun _ ↦ rfl

/-- The number of transactions nested in one after an entry. -/
theorem children_enter (hparent : ∀ parent, entering.parent = some parent →
      parent < system.transactions.length) (hchildren : entering.children = 0) (outer : TxnId) :
    ((system.enter entering).transaction outer).children
      = (system.transaction outer).children
        + if entering.parent = some outer then 1 else 0 := by
  by_cases houter : entering.parent = some outer
  · have hlt := hparent outer houter
    rw [if_pos houter]
    unfold enter
    dsimp only
    rw [houter]
    simp [transaction, List.getD_eq_getElem?_getD, modifyTransaction, List.getElem?_append, hlt]
  rw [if_neg houter, Nat.add_zero]
  rcases Nat.lt_trichotomy outer system.transactions.length with hlt | rfl | hgt
  · rw [transaction_enter_apart hlt houter]
  · rw [transaction_enter, hchildren, transaction_of_length_le (Nat.le_refl _)]
    rfl
  · rw [transaction_of_length_le (Nat.le_of_lt hgt),
      transaction_of_length_le (by rw [length_enter]; exact hgt)]

/-- After an entry the new transaction lives as well. -/
theorem living_enter (hstate : entering.state.isFinished = false) :
    (system.enter entering).living = insert system.transactions.length system.living := by
  ext other
  rw [Finset.mem_insert, mem_living, mem_living]
  have houtcome := system.enter_outcome entering other
  generalize (system.enter entering).transaction other = after at houtcome ⊢
  cases houtcome with
  | kept _ hlt => simp [Nat.ne_of_lt hlt]
  | entered => simp [hstate]
  | beyond hgt =>
      rw [transaction_of_length_le (Nat.le_of_lt hgt)]
      simp [Nat.ne_of_gt hgt]

/-- One member more among those that satisfy a condition. -/
theorem card_filter_insert {members : Finset TxnId} (hmem : txn ∉ members) (property : TxnId → Prop)
    [DecidablePred property] : ((insert txn members).filter property).card
      = (members.filter property).card + if property txn then 1 else 0 := by
  rw [Finset.filter_insert]
  split
  · exact Finset.card_insert_of_notMem fun h ↦ hmem (Finset.mem_filter.mp h).1
  · rfl

/-- The counters are right after an entry. -/
theorem Counted.enter (h : Counted system)
    (henv : entering.env < system.environments.length)
    (hparent : ∀ parent, entering.parent = some parent → parent < system.transactions.length)
    (hchildren : entering.children = 0) (hstate : entering.state.isFinished = false) :
    Counted (system.enter entering) := by
  have hnew : system.transactions.length ∉ system.living := fun hmem ↦
    absurd (lt_of_state rfl (mem_living.mp hmem)) (Nat.lt_irrefl _)
  have hidentity : ∀ other ∈ system.living, ((system.enter entering).transaction other).identity
      = (system.transaction other).identity := fun other hother ↦
    field_enter (·.identity) (fun _ _ ↦ by rfl) entering (lt_of_state rfl (mem_living.mp hother))
  have hentered := transaction_enter system entering
  -- The members that were there before satisfy the same conditions, and the new one is counted.
  have hcount : ∀ (before after : TxnId → Prop) [DecidablePred before] [DecidablePred after],
      (∀ other ∈ system.living, after other ↔ before other) →
      ((system.enter entering).living.filter after).card
        = (system.living.filter before).card
          + if after system.transactions.length then 1 else 0 := by
    intro before after _ _ hsame
    rw [living_enter hstate, card_filter_insert hnew, Finset.filter_congr hsame]
  constructor
  · intro env
    rw [active_enter henv, h.active, hcount (fun other ↦ (system.transaction other).env = env)]
    · rw [hentered]
      simp [eq_comm]
    · intro other hother
      rw [show ((system.enter entering).transaction other).env = (system.transaction other).env
        from congrArg (·.1) (hidentity other hother)]
  · intro outer
    rw [children_enter hparent hchildren, h.children,
      hcount (fun other ↦ (system.transaction other).parent = some outer)]
    · rw [hentered]
    · intro other hother
      rw [show ((system.enter entering).transaction other).parent
        = (system.transaction other).parent from congrArg (·.2.2.2) (hidentity other hother)]

/-! ## All actions -/

/-- The counters are right at the start of a process. -/
theorem counted_start (checks : Bool) (files : Files.Tree) :
    Counted { checks := checks, files := files } :=
  ⟨fun _ ↦ rfl, fun _ ↦ rfl⟩

/-- The counters are right after the end of a transaction in a process in which nothing else has
changed. -/
theorem Counted.ended (h : Counted system) (hsound : Sound system) (hmoved : Unmoved system middle)
    (hunfinished : (system.transaction txn).state.isFinished = false) {state : TxnState}
    (hstate : state.isFinished = true) : Counted (middle.finish txn state) := by
  have htxn := lt_of_state rfl hunfinished
  have hidentity := hmoved.identity txn
  refine (hmoved.counted h).finish (by rwa [hmoved.state]) ?_ (fun parent hparent ↦ ?_) hstate
  · rw [hmoved.environments, show (middle.transaction txn).env = (system.transaction txn).env from
      congrArg (·.1) hidentity]
    exact hsound.anchored.env_lt txn htxn
  · rw [hmoved.transactions]
    exact Nat.lt_trans (hsound.anchored.parent_lt txn parent
      ((congrArg (·.2.2.2) hidentity).symm.trans hparent)) htxn

/-- The counters stay right. -/
theorem Counted.act (h : Counted system) (hsound : Sound system) (action : Action) :
    Counted (system.after action) := by
  have hconduct := system.conduct_act action
  generalize (system.act action).calls = calls at hconduct
  generalize system.after action = after at hconduct ⊢
  cases hconduct with
  | quiet hmoved | openFailed _ hmoved | whole _ _ hmoved | beginFailed _ hmoved
  | used _ _ _ hmoved | renewalFailed _ _ hmoved => exact hmoved.counted h
  | @opened path flags config kind environment files hstage =>
      exact h.of_same rfl (fun _ _ ↦ rfl)
        (field_append (·.active) (congrArg (·.2) hstage) files) fun _ ↦ rfl
  | @closed env after hclosed hactive hmoved =>
      refine hmoved.counted (h.of_same rfl (fun _ _ ↦ rfl) ?_ fun _ ↦ rfl)
      exact field_modifyEnvironment (·.active) (fun _ ↦ by rfl) system env
  | @began env parent flags thread native engine hfault hbegin =>
      obtain ⟨henv, hparent⟩ := of_beginFault hfault
      refine ((Unmoved.setEngine system env engine).counted h).enter ?_ (fun outer houter ↦ ?_) rfl rfl
      · rwa [(Unmoved.setEngine system env engine).environments]
      · exact lt_of_lifecycleFault (hparent outer houter).2
  | committed hfault hstate hmoved =>
      exact h.ended hsound hmoved (unfinished_of_lifecycleFault hfault) hstate
  | aborted _ hstate hmoved => exact h.ended hsound hmoved hstate rfl
  | reset hfault hmoved =>
      refine (hmoved.counted h).setState ?_ rfl
      rw [hmoved.state]
      exact unfinished_of_lifecycleFault hfault
  | renewed hstate hmoved =>
      refine (hmoved.counted h).setState ?_ rfl
      rw [hmoved.state, hstate]
      rfl

end MappedStore.System

namespace MappedStore

/-- The counters of a process that can be reached are right. -/
theorem Reachable.counted {system : System} (h : Reachable system) : system.Counted := by
  obtain ⟨checks, files, hrun⟩ := h
  induction hrun with
  | nil => exact System.counted_start checks files
  | step hrun _ ih => exact ih.act ((System.sound_start checks files).run hrun) _

end MappedStore
