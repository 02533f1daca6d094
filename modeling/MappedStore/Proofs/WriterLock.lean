import Mathlib.Data.Nat.Find
import MappedStore.Proofs.Bystanders
import MappedStore.Proofs.Refusals
import MappedStore.Proofs.Tracking

/-!
# The chain of writers

An environment has one writer lock. The root that writes holds it until it ends, by whatever way it
does (`System.Guarded`), and a transaction takes no second one into it before the first has ended.
So the transactions that can write and have not been cut off from their root form a single chain,
and only the innermost of them can be used (`System.one_writer_chain`).
-/

namespace MappedStore

/-- What a begin, an end, a reset or a renewal changes about a transaction, and what nothing
changes. -/
def Transaction.life (txn : Transaction) :
    (EnvId × Nat × Bool × Option TxnId) × TxnState × Nat × Bool :=
  (txn.identity, txn.state, txn.children, txn.holdsWriter)

/-- What a begin or an end of a writer changes about an environment, and the flags of its open. -/
def Environment.life (environment : Environment) : EnvFlags × Bool :=
  (environment.flags, environment.writerLocked)

namespace System

variable {system after : System} {action : Action} {env : EnvId} {txn other : TxnId}

/-- A root transaction that can write and has not ended. -/
structure RootWriter (system : System) (env : EnvId) (txn : TxnId) : Prop where
  env_eq : (system.transaction txn).env = env
  writer : (system.transaction txn).readOnly = false
  root : (system.transaction txn).parent = none
  unfinished : (system.transaction txn).state.isFinished = false

/-- The lock is held for a root writer that has not ended, no transaction has two in it, only
readers are at rest, and there are only readers where writes are refused. -/
structure Guarded (system : System) : Prop where
  holder : ∀ env txn, RootWriter system env txn → (system.transaction txn).holdsWriter = true
  held : ∀ env, (system.environment env).writerLocked = true →
    ∃ txn, (system.transaction txn).env = env ∧ (system.transaction txn).holdsWriter = true
  lone : ∀ txn, (system.transaction txn).children ≤ 1
  awake : ∀ txn, (system.transaction txn).readOnly = false →
    (system.transaction txn).state ≠ .reset
  reading : ∀ txn, (system.environment (system.transaction txn).env).isReadOnly = true →
    (system.transaction txn).readOnly = true

/-! ## Steps -/

/-- The start of a process. -/
theorem guarded_start (checks : Bool) (files : Files.Tree) :
    Guarded { checks := checks, files := files } where
  holder := by
    rintro env txn ⟨-, hwriter, -, -⟩
    cases hwriter
  held := nofun
  lone := fun _ ↦ Nat.zero_le 1
  awake := nofun
  reading := fun _ _ ↦ rfl

/-- What changes nothing about the lives of transactions and the locks of environments. -/
theorem Guarded.keep (h : Guarded system)
    (htxn : ∀ txn, (after.transaction txn).life = (system.transaction txn).life)
    (henv : ∀ env, (after.environment env).life = (system.environment env).life) :
    Guarded after := by
  have hidentity : ∀ txn, (after.transaction txn).identity = (system.transaction txn).identity :=
    fun txn ↦ congrArg (·.1) (htxn txn)
  have hstate : ∀ txn, (after.transaction txn).state = (system.transaction txn).state :=
    fun txn ↦ congrArg (·.2.1) (htxn txn)
  have hholds : ∀ txn, (after.transaction txn).holdsWriter = (system.transaction txn).holdsWriter :=
    fun txn ↦ congrArg (·.2.2.2) (htxn txn)
  have hreadOnly : ∀ txn, (after.transaction txn).readOnly = (system.transaction txn).readOnly :=
    fun txn ↦ congrArg (·.2.2.1) (hidentity txn)
  have hflag : ∀ env, (after.environment env).flags = (system.environment env).flags :=
    fun env ↦ congrArg (·.1) (henv env)
  have hlock : ∀ env, (after.environment env).writerLocked
      = (system.environment env).writerLocked := fun env ↦ congrArg (·.2) (henv env)
  refine ⟨fun env txn hroot ↦ ?_, fun env hlocked ↦ ?_, fun txn ↦ ?_, fun txn hwriter ↦ ?_,
    fun txn hflags ↦ ?_⟩
  · rw [hholds]
    refine h.holder env txn ⟨?_, ?_, ?_, ?_⟩
    · rw [← env_of_identity (hidentity txn), hroot.env_eq]
    · rw [← hreadOnly, hroot.writer]
    · rw [← parent_of_identity (hidentity txn), hroot.root]
    · rw [← hstate, hroot.unfinished]
  · rw [hlock] at hlocked
    obtain ⟨txn, hplace, hheld⟩ := h.held env hlocked
    exact ⟨txn, (env_of_identity (hidentity txn)).trans hplace, (hholds txn).trans hheld⟩
  · rw [show (after.transaction txn).children = (system.transaction txn).children from
      congrArg (·.2.2.1) (htxn txn)]
    exact h.lone txn
  · rw [hstate]
    exact h.awake txn ((hreadOnly txn).symm.trans hwriter)
  · rw [env_of_identity (hidentity txn), Environment.isReadOnly, hflag] at hflags
    exact (hreadOnly txn).trans (h.reading txn hflags)

/-- Changes of a transaction and of an environment that are not of their lives. -/
theorem Guarded.modifyTransaction (h : Guarded system) {change : Transaction → Transaction}
    (hchange : ∀ before, (change before).life = before.life) :
    Guarded (system.modifyTransaction txn change) :=
  h.keep (field_modifyTransaction (·.life) hchange system txn) fun _ ↦ rfl

/-- A change of an environment that is not of its lock. -/
theorem Guarded.modifyEnvironment (h : Guarded system) {change : Environment → Environment}
    (hchange : ∀ before, (change before).life = before.life) :
    Guarded (system.modifyEnvironment env change) :=
  h.keep (fun _ ↦ rfl) (field_modifyEnvironment (·.life) hchange system env)

/-- Files are no concern of the lock. -/
theorem Guarded.files (h : Guarded system) (files : Files.Tree) :
    Guarded { system with files := files } :=
  h.keep (fun _ ↦ rfl) fun _ ↦ rfl

/-- No transaction is in a further environment, and its lock is free. -/
theorem Guarded.append (h : Guarded system) (hanchored : Anchored system) {files : Files.Tree}
    {environment : Environment} (hlocked : environment.writerLocked = false) : Guarded
      { system with files := files, environments := system.environments ++ [environment] } := by
  refine ⟨fun env txn hroot ↦ ?_, fun env hheld ↦ h.held env ?_, h.lone, h.awake,
    fun txn hflags ↦ ?_⟩
  · exact h.holder env txn ⟨hroot.env_eq, hroot.writer, hroot.root, hroot.unfinished⟩
  · exact (field_append (·.writerLocked) hlocked files env).symm.trans hheld
  · rcases Nat.lt_or_ge txn system.transactions.length with hlt | hge
    · refine h.reading txn ?_
      rw [Environment.isReadOnly, ← environment_append files [environment]
        (hanchored.env_lt txn hlt)]
      exact hflags
    · show (system.transaction txn).readOnly = true
      rw [transaction_of_length_le hge]
      rfl

/-- A hand-over is no concern of the lock. -/
theorem Guarded.handOver (h : Guarded system) (txn : TxnId) : Guarded (system.handOver txn) :=
  h.keep (field_handOver (·.life) (fun _ _ _ ↦ by rfl) system txn)
    (field_environment_handOver (·.life) (fun _ _ ↦ by rfl) system txn)

/-- A change of the stage of life of a transaction that only reads, or to being active. -/
theorem Guarded.setState (h : Guarded system) {state : TxnState}
    (hunfinished : (system.transaction txn).state.isFinished = false)
    (hstate : state = .reset → (system.transaction txn).readOnly = true) :
    Guarded (system.setState txn state) := by
  have hfield : ∀ {α : Type} (field : Transaction → α),
      (∀ before, field { before with state := state } = field before) → ∀ other,
      field ((system.setState txn state).transaction other) = field (system.transaction other) :=
    fun field hfield ↦ field_modifyTransaction field hfield system txn
  have hback : ∀ other, ((system.setState txn state).transaction other).state.isFinished = false →
      (system.transaction other).state.isFinished = false := by
    intro other hother
    by_cases heq : other = txn
    · exact heq ▸ hunfinished
    · rwa [System.setState, transaction_modifyTransaction_of_ne _ _ heq] at hother
  refine ⟨fun env other hroot ↦ ?_, fun env hlocked ↦ ?_, fun other ↦ ?_, fun other hwriter ↦ ?_,
    fun other hflags ↦ ?_⟩
  · rw [hfield (·.holdsWriter) fun _ ↦ by rfl]
    refine h.holder env other ⟨?_, ?_, ?_, hback other hroot.unfinished⟩
    · rw [← hroot.env_eq, hfield (·.env) fun _ ↦ by rfl]
    · rw [← hroot.writer, hfield (·.readOnly) fun _ ↦ by rfl]
    · rw [← hroot.root, hfield (·.parent) fun _ ↦ by rfl]
  · obtain ⟨holder, hplace, hheld⟩ := h.held env hlocked
    exact ⟨holder, (hfield (·.env) (fun _ ↦ by rfl) holder).trans hplace,
      (hfield (·.holdsWriter) (fun _ ↦ by rfl) holder).trans hheld⟩
  · rw [hfield (·.children) fun _ ↦ by rfl]
    exact h.lone other
  · rw [hfield (·.readOnly) fun _ ↦ by rfl] at hwriter
    by_cases heq : other = txn
    · subst heq
      rw [System.setState, transaction_modifyTransaction_self _ _ (lt_of_state rfl hunfinished)]
      intro hreset
      rw [hstate hreset] at hwriter
      cases hwriter
    · rw [System.setState, transaction_modifyTransaction_of_ne _ _ heq]
      exact h.awake other hwriter
  · rw [hfield (·.readOnly) fun _ ↦ by rfl]
    rw [hfield (·.env) fun _ ↦ by rfl] at hflags
    exact h.reading other hflags

/-- The end of the transaction that holds the lock gives it up. -/
theorem writerLocked_finish_holder (henv : (system.transaction txn).env < system.environments.length)
    (hholds : (system.transaction txn).holdsWriter = true) (state : TxnState) :
    ((system.finish txn state).environment (system.transaction txn).env).writerLocked = false := by
  have hmodified : ∀ change : Environment → Environment,
      (∀ before, (change before).writerLocked
        = (before.writerLocked && !(system.transaction txn).holdsWriter)) →
      ((system.modifyEnvironment (system.transaction txn).env change).environment
        (system.transaction txn).env).writerLocked = false := by
    intro change hchange
    rw [environment_modifyEnvironment_self _ _ henv, hchange, hholds]
    simp
  unfold finish
  dsimp only
  split
  all_goals exact hmodified _ fun _ ↦ rfl

/-- The end of a transaction. -/
theorem Guarded.finish (h : Guarded system) {state : TxnState} (hstate : state.isFinished = true)
    (htxn : txn < system.transactions.length)
    (henv : (system.transaction txn).env < system.environments.length)
    (hparent : ∀ parent, (system.transaction txn).parent = some parent →
      parent < system.transactions.length) : Guarded (system.finish txn state) := by
  have hidentity : ∀ other, ((system.finish txn state).transaction other).identity
      = (system.transaction other).identity :=
    field_finish (·.identity) (fun _ _ _ _ ↦ by rfl) system txn state
  have hreadOnly : ∀ other, ((system.finish txn state).transaction other).readOnly
      = (system.transaction other).readOnly := fun other ↦ congrArg (·.2.2.1) (hidentity other)
  have hself : ((system.finish txn state).transaction txn).state = state :=
    field_finish_self (·.state) (fun _ _ ↦ by rfl) state htxn
  refine ⟨fun env other hroot ↦ ?_, fun env hlocked ↦ ?_, fun other ↦ ?_, fun other hwriter ↦ ?_,
    fun other hflags ↦ ?_⟩
  · have hunfinished := hroot.unfinished
    by_cases hother : other = txn
    · rw [hother, hself, hstate] at hunfinished
      cases hunfinished
    · rw [field_finish_of_ne (·.state) (fun _ _ ↦ by rfl) state hother] at hunfinished
      rw [field_finish_of_ne (·.holdsWriter) (fun _ _ ↦ by rfl) state hother]
      refine h.holder env other ⟨?_, ?_, ?_, hunfinished⟩
      · rw [← env_of_identity (hidentity other), hroot.env_eq]
      · rw [← hreadOnly, hroot.writer]
      · rw [← parent_of_identity (hidentity other), hroot.root]
  · -- If the lock is still held, the transaction that has ended was not its holder.
    have hother : env = (system.transaction txn).env →
        (system.transaction txn).holdsWriter = false := by
      intro hplace
      by_contra hholds
      rw [hplace, writerLocked_finish_holder henv (Bool.eq_true_of_not_eq_false hholds)] at hlocked
      cases hlocked
    rw [writerLocked_finish system txn state env hother] at hlocked
    obtain ⟨holder, hplace, hheld⟩ := h.held env hlocked
    have hne : holder ≠ txn := by
      rintro rfl
      rw [hother hplace.symm] at hheld
      cases hheld
    refine ⟨holder, (env_of_identity (hidentity holder)).trans hplace, ?_⟩
    rw [field_finish_of_ne (·.holdsWriter) (fun _ _ ↦ by rfl) state hne, hheld]
  · rw [children_finish hparent]
    exact Nat.le_trans (Nat.sub_le _ _) (h.lone other)
  · by_cases hother : other = txn
    · rw [hother, hself]
      rintro rfl
      cases hstate
    · rw [field_finish_of_ne (·.state) (fun _ _ ↦ by rfl) state hother]
      exact h.awake other ((hreadOnly other).symm.trans hwriter)
  · rw [env_of_identity (hidentity other), Environment.isReadOnly,
      field_environment_finish (·.flags) (fun _ _ _ ↦ by rfl)] at hflags
    exact (hreadOnly other).trans (h.reading other hflags)

/-- The lock is taken by an entry only for a transaction that holds it. -/
theorem writerLocked_of_enter {entering : Transaction}
    (h : ((system.enter entering).environment env).writerLocked = true) :
    (system.environment env).writerLocked = true ∨
      env = entering.env ∧ entering.holdsWriter = true := by
  have hmodified : ∀ change : Environment → Environment,
      (∀ before, (change before).writerLocked
        = (before.writerLocked || entering.holdsWriter)) →
      ((system.modifyEnvironment entering.env change).environment env).writerLocked = true →
      (system.environment env).writerLocked = true ∨
        env = entering.env ∧ entering.holdsWriter = true := by
    intro change hchange hlocked
    by_cases hplace : env = entering.env
    · have hor : (system.environment env).writerLocked = true ∨ entering.holdsWriter = true := by
        rw [hplace] at hlocked ⊢
        refine modifyEnvironment_induction (fun before later ↦ later.writerLocked = true →
          before.writerLocked = true ∨ entering.holdsWriter = true) (fun _ ↦ .inl) ?_ _ hlocked
        intro hlater
        rwa [hchange, Bool.or_eq_true] at hlater
      exact hor.imp_right fun hholds ↦ ⟨hplace, hholds⟩
    · rw [environment_modifyEnvironment_of_ne _ _ hplace] at hlocked
      exact .inl hlocked
  unfold enter at h
  dsimp only at h
  split at h
  all_goals exact hmodified _ (fun _ ↦ rfl) h

/-- The entry of a transaction: one that writes where that is not refused, in a parent in which no
other has to end. -/
theorem Guarded.enter (h : Guarded system) {parent : Option TxnId} {flags : TxnFlags}
    {native thread : Nat} (hreading : (system.environment env).isReadOnly = true →
      flags.contains TxnFlags.readOnly = true)
    (hparent : ∀ outer, parent = some outer →
      outer < system.transactions.length ∧ (system.transaction outer).children = 0) :
    Guarded (system.enter (entrant env parent flags native thread)) := by
  have hnew := transaction_enter system (entrant env parent flags native thread)
  refine ⟨fun place other hroot ↦ ?_, fun place hlocked ↦ ?_, fun outer ↦ ?_,
    fun other hwriter ↦ ?_, fun other hflags ↦ ?_⟩
  · obtain ⟨henv, hwriter, hroot, hunfinished⟩ := hroot
    have houtcome := system.enter_outcome (entrant env parent flags native thread) other
    generalize (system.enter (entrant env parent flags native thread)).transaction other = after
      at houtcome henv hwriter hroot hunfinished ⊢
    cases houtcome with
    | kept => exact h.holder place other ⟨henv, hwriter, hroot, hunfinished⟩
    | entered =>
        change flags.contains TxnFlags.readOnly = false at hwriter
        obtain rfl : parent = none := hroot
        show (!flags.contains TxnFlags.readOnly && true) = true
        rw [hwriter]
        rfl
    | beyond => cases hwriter
  · rcases writerLocked_of_enter hlocked with hbefore | ⟨rfl, hholds⟩
    · obtain ⟨holder, hplace, hheld⟩ := h.held place hbefore
      have hpost := field_enter (·.post) (fun _ _ ↦ by rfl) (entrant env parent flags native thread)
        (lt_of_holdsWriter hheld)
      exact ⟨holder, (env_of_identity (congrArg (·.1) hpost)).trans hplace,
        (congrArg (·.2.2) hpost).trans hheld⟩
    · exact ⟨_, congrArg (·.env) hnew, (congrArg (·.holdsWriter) hnew).trans hholds⟩
  · rw [children_enter (fun inner hinner ↦ (hparent inner hinner).1) rfl]
    show (system.transaction outer).children + (if parent = some outer then 1 else 0) ≤ 1
    have hlone := h.lone outer
    split
    · rename_i houter
      rw [(hparent outer houter).2]
    · omega
  · have houtcome := system.enter_outcome (entrant env parent flags native thread) other
    generalize (system.enter (entrant env parent flags native thread)).transaction other = after
      at houtcome hwriter ⊢
    cases houtcome with
    | kept => exact h.awake other hwriter
    | entered => nofun
    | beyond => cases hwriter
  · rw [Environment.isReadOnly, field_environment_enter (·.flags) (fun _ _ _ ↦ by rfl)] at hflags
    have houtcome := system.enter_outcome (entrant env parent flags native thread) other
    generalize (system.enter (entrant env parent flags native thread)).transaction other = after
      at houtcome hflags ⊢
    cases houtcome with
    | kept => exact h.reading other hflags
    | entered => exact hreading hflags
    | beyond => rfl

/-- The end of a transaction, after changes that leave who it is. -/
theorem Guarded.ended (h : Guarded after) (hanchored : Anchored system) {state : TxnState}
    (hstate : state.isFinished = true)
    (hunfinished : (system.transaction txn).state.isFinished = false)
    (htransactions : after.transactions.length = system.transactions.length)
    (henvironments : after.environments.length = system.environments.length)
    (hidentity : (after.transaction txn).identity = (system.transaction txn).identity) :
    Guarded (after.finish txn state) := by
  have hlt := lt_of_state rfl hunfinished
  refine h.finish hstate (htransactions ▸ hlt) ?_ fun parent hparent ↦ ?_
  · rw [henvironments, env_of_identity hidentity]
    exact hanchored.env_lt txn hlt
  · rw [parent_of_identity hidentity] at hparent
    rw [htransactions]
    exact Nat.lt_trans (hanchored.parent_lt txn parent hparent) hlt

/-- Whatever happens, the lock is held for a root writer, and no transaction has two in it. -/
theorem Guarded.transition (h : Guarded system) (hanchored : Anchored system)
    (htransition : Transition system action after) : Guarded after := by
  have hengine : ∀ env engine, Guarded (system.setEngine env engine) :=
    fun env engine ↦ h.modifyEnvironment fun _ ↦ rfl
  cases htransition with
  | idle => exact h
  | files => exact h.files _
  | aside => exact (hengine _ _).files _
  | used => exact hengine _ _
  | closed =>
      refine (h.modifyEnvironment ?_).files _
      exact fun _ ↦ rfl
  | openedEnvironment => exact h.append hanchored rfl
  | reopened => exact (hengine _ _).modifyTransaction fun _ ↦ rfl
  | opened =>
      refine Guarded.modifyTransaction ?_ fun _ ↦ rfl
      exact (hengine _ _).modifyEnvironment fun _ ↦ rfl
  | dropped => exact (hengine _ _).modifyTransaction fun _ ↦ rfl
  | @began env parent flags thread native engine hfault hwriter hbegin =>
      refine (hengine env engine).enter (fun hreading ↦ ?_) fun outer houter ↦ ?_
      · have hflags : (system.environment env).isReadOnly = true := by
          rwa [Environment.isReadOnly, field_setEngine (·.flags) (fun _ _ ↦ rfl)] at hreading
        by_contra hnot
        rw [Bool.not_eq_true] at hnot
        unfold beginFault at hfault
        simp [open_of_beginFault hfault, hflags, hnot] at hfault
      · have husable := ((of_beginFault hfault).2 outer houter).2
        exact ⟨lt_of_lifecycleFault husable, (active_of_lifecycleFault husable).2⟩
  | committed hfault hcommit =>
      refine ((hengine _ _).handOver _).ended hanchored rfl (unfinished_of_lifecycleFault hfault)
        (length_handOver _ _) ?_ ?_
      · rw [environments_length_handOver]
        exact length_modifyEnvironment _ _ _
      · exact field_handOver (·.identity) (fun _ _ _ ↦ by rfl) _ _ _
  | commitFailed hfault hcommit =>
      exact (hengine _ _).ended hanchored rfl (unfinished_of_lifecycleFault hfault) rfl
        (length_modifyEnvironment _ _ _) rfl
  | discarded haction hstate =>
      exact (hengine _ _).ended hanchored rfl hstate rfl (length_modifyEnvironment _ _ _) rfl
  | reset hfault hreader =>
      exact (hengine _ _).setState (unfinished_of_lifecycleFault hfault) fun _ ↦ hreader
  | renewed hstate hrenew =>
      refine (hengine _ _).setState ?_ nofun
      show (system.transaction _).state.isFinished = false
      rw [hstate]
      rfl

end System

/-- In every state that a process can reach the lock is held for a root writer. -/
theorem Reachable.guarded {system : System} (h : Reachable system) : system.Guarded := by
  obtain ⟨checks, files, hrun⟩ := h
  induction hrun with
  | nil => exact System.guarded_start checks files
  | step hrun _ ih =>
      have hsound : System.Sound _ := (System.sound_start checks files).run hrun
      exact ih.transition hsound.anchored (hsound.transition _)

namespace System

variable {system : System} {env : EnvId} {txn other inner : TxnId}

/-! ## The lock -/

/-- The root writers of an environment that have not ended are one at most. -/
theorem RootWriter.unique (h : RootWriter system env txn) (hother : RootWriter system env other)
    (hsound : Sound system) (hguarded : Guarded system) : other = txn := by
  obtain ⟨ids, hchain⟩ := hsound.chained env
  have hlast := hchain.holder txn h.env_eq (hguarded.holder env txn h)
  have hlast' := hchain.holder other hother.env_eq (hguarded.holder env other hother)
  exact Option.some.inj (hlast'.symm.trans hlast)

/-- The lock is taken exactly while there is a root writer that has not ended. -/
theorem Guarded.locked_iff (h : Guarded system) (hsound : Sound system) (env : EnvId) :
    (system.environment env).writerLocked = true ↔ ∃ txn, RootWriter system env txn := by
  obtain ⟨ids, hchain⟩ := hsound.chained env
  constructor
  · intro hlocked
    obtain ⟨txn, henv, hheld⟩ := h.held env hlocked
    have hlast := hchain.holder txn henv hheld
    have hmem := List.mem_of_getLast? hlast
    refine ⟨txn, henv, hchain.writer txn hmem, ?_, by rw [hchain.active txn hmem]; rfl⟩
    obtain ⟨inner, rfl⟩ := List.getLast?_eq_some_iff.mp hlast
    exact (hchain.nested.suffix (List.suffix_append inner [txn])).1
  · rintro ⟨txn, hroot⟩
    have hlast := hchain.holder txn hroot.env_eq (h.holder env txn hroot)
    refine hchain.locked ?_
    rintro rfl
    cases hlast

/-- Of the transactions nested directly in one, at most one has not ended. -/
theorem Guarded.only_child (h : Guarded system) (hcounted : Counted system)
    (hinner : (system.transaction inner).parent = some txn)
    (hother : (system.transaction other).parent = some txn)
    (hliving : (system.transaction inner).state.isFinished = false)
    (hliving' : (system.transaction other).state.isFinished = false) : other = inner := by
  have hcard := h.lone txn
  rw [hcounted.children, Finset.card_le_one] at hcard
  exact hcard other (Finset.mem_filter.mpr ⟨mem_living.mpr hliving', hother⟩) inner
    (Finset.mem_filter.mpr ⟨mem_living.mpr hliving, hinner⟩)

/-! ## The chain -/

/-- A transaction that can write and has not ended, like all that it is nested in. -/
structure Linked (system : System) (env : EnvId) (txn : TxnId) : Prop where
  env_eq : (system.transaction txn).env = env
  writer : (system.transaction txn).readOnly = false
  unfinished : ∀ outer ∈ system.lineage txn, (system.transaction outer).state.isFinished = false

namespace Linked

/-- A linked transaction has not ended. -/
theorem self (h : Linked system env txn) (hanchored : Anchored system) :
    (system.transaction txn).state.isFinished = false :=
  h.unfinished txn (self_mem_lineage hanchored txn)

/-- The parent of a linked transaction is linked. -/
theorem parent (h : Linked system env txn) (hreachable : Reachable system) {outer : TxnId}
    (hparent : (system.transaction txn).parent = some outer) : Linked system env outer := by
  have hanchored := hreachable.sound.anchored
  refine ⟨?_, hreachable.writer_of_parent hparent, fun further hfurther ↦ ?_⟩
  · rw [hanchored.parent_env txn outer hparent, h.env_eq]
  · exact h.unfinished further ((mem_lineage hanchored).mpr (.inr ⟨outer, hparent, hfurther⟩))

/-- A transaction that has not ended in a linked one is linked. -/
theorem child (h : Linked system env txn) (hsound : Sound system)
    (hparent : (system.transaction inner).parent = some txn)
    (hunfinished : (system.transaction inner).state.isFinished = false) :
    Linked system env inner := by
  refine ⟨?_, ?_, fun outer houter ↦ ?_⟩
  · rw [← hsound.anchored.parent_env inner txn hparent, h.env_eq]
  · by_contra hreader
    have hroot := hsound.attended.root inner (Bool.eq_true_of_not_eq_false hreader)
    rw [hparent] at hroot
    cases hroot
  · rw [lineage_of_parent hsound.anchored hparent] at houter
    rcases List.mem_cons.mp houter with rfl | houter
    · exact hunfinished
    · exact h.unfinished outer houter

/-- All that a linked transaction is nested in are linked. -/
theorem lineage (h : Linked system env txn) (hreachable : Reachable system) :
    ∀ outer ∈ system.lineage txn, Linked system env outer := by
  have hanchored := hreachable.sound.anchored
  induction txn using Nat.strongRecOn with
  | ind txn ih =>
      intro outer houter
      rcases (mem_lineage hanchored).mp houter with rfl | ⟨parent, hparent, houter⟩
      · exact h
      · exact ih parent (hanchored.parent_lt txn parent hparent) (h.parent hreachable hparent) outer
          houter

/-- The lineage of a linked transaction ends with a root writer. -/
theorem root (h : Linked system env txn) (hreachable : Reachable system) :
    ∃ root ∈ system.lineage txn, RootWriter system env root := by
  have hanchored := hreachable.sound.anchored
  induction txn using Nat.strongRecOn with
  | ind txn ih =>
      cases hparent : (system.transaction txn).parent with
      | none =>
          exact ⟨txn, self_mem_lineage hanchored txn, h.env_eq, h.writer, hparent, h.self hanchored⟩
      | some parent =>
          obtain ⟨root, hmem, hroot⟩ :=
            ih parent (hanchored.parent_lt txn parent hparent) (h.parent hreachable hparent)
          exact ⟨root, (mem_lineage hanchored).mpr (.inr ⟨parent, hparent, hmem⟩), hroot⟩

end Linked

/-- A member of a lineage, other than the innermost one, is the parent of a member. -/
theorem child_of_mem_lineage (h : Anchored system) {outer : TxnId}
    (houter : outer ∈ system.lineage txn) (hne : outer ≠ txn) :
    ∃ inner ∈ system.lineage txn, (system.transaction inner).parent = some outer := by
  induction txn using Nat.strongRecOn with
  | ind txn ih =>
      rcases (mem_lineage h).mp houter with rfl | ⟨parent, hparent, houter⟩
      · exact absurd rfl hne
      by_cases heq : outer = parent
      · exact ⟨txn, self_mem_lineage h txn, heq ▸ hparent⟩
      · obtain ⟨inner, hinner, hnested⟩ := ih parent (h.parent_lt txn parent hparent) houter heq
        exact ⟨inner, (mem_lineage h).mpr (.inr ⟨parent, hparent, hinner⟩), hnested⟩

/-- If a linked transaction has the highest number of all that are linked, these are the ones in its
lineage. -/
theorem Linked.mem_lineage_of_last (h : Linked system env txn) (hreachable : Reachable system)
    (hlast : ∀ other, Linked system env other → other ≤ txn) (hother : Linked system env other) :
    other ∈ system.lineage txn := by
  have hsound := hreachable.sound
  have hguarded := hreachable.guarded
  induction other using Nat.strongRecOn with
  | ind other ih =>
      cases hparent : (system.transaction other).parent with
      | none =>
          obtain ⟨root, hmem, hroot⟩ := h.root hreachable
          have hother' : RootWriter system env other :=
            ⟨hother.env_eq, hother.writer, hparent, hother.self hsound.anchored⟩
          exact hroot.unique hother' hsound hguarded ▸ hmem
      | some parent =>
          have hlt := hsound.anchored.parent_lt other parent hparent
          have hmem := ih parent hlt (hother.parent hreachable hparent)
          have hne : parent ≠ txn := by
            rintro rfl
            exact Nat.not_lt_of_le (hlast other hother) hlt
          -- Its parent has a child in the lineage, and no two of its children live.
          obtain ⟨inner, hinner, hnested⟩ := child_of_mem_lineage hsound.anchored hmem hne
          have hsame : other = inner := hguarded.only_child hreachable.counted hnested hparent
            ((h.lineage hreachable inner hinner).self hsound.anchored)
            (hother.self hsound.anchored)
          exact hsame ▸ hinner

/-- In an environment with a linked transaction there is one with the highest number. -/
theorem exists_last_linked (h : Linked system env txn) (hanchored : Anchored system) :
    ∃ last, Linked system env last ∧ ∀ other, Linked system env other → other ≤ last := by
  classical
  have hlt : ∀ other, Linked system env other → other < system.transactions.length :=
    fun other hother ↦ lt_of_state rfl (hother.self hanchored)
  refine ⟨Nat.findGreatest (Linked system env) system.transactions.length, ?_, fun other hother ↦ ?_⟩
  · exact Nat.findGreatest_spec (Nat.le_of_lt (hlt txn h)) h
  · exact Nat.le_findGreatest (Nat.le_of_lt (hlt other hother)) hother

/-- The last of the linked transactions can be used. -/
theorem Linked.usable_of_last (h : Linked system env txn) (hreachable : Reachable system)
    (hlast : ∀ other, Linked system env other → other ≤ txn) :
    (system.transaction txn).lifecycleFault = none := by
  have hsound := hreachable.sound
  have hunfinished := h.self hsound.anchored
  have hchildren : (system.transaction txn).children = 0 := by
    rw [hreachable.counted.children, Finset.card_eq_zero, Finset.filter_eq_empty_iff]
    intro inner hliving hparent
    have hlinked := h.child hsound hparent (mem_living.mp hliving)
    have hlt := hsound.anchored.parent_lt inner txn hparent
    exact Nat.not_lt_of_le (hlast inner hlinked) hlt
  unfold Transaction.lifecycleFault
  cases hstate : (system.transaction txn).state with
  | active => exact if_neg (by omega)
  | reset => exact absurd hstate (hreachable.guarded.awake txn h.writer)
  | committed | aborted =>
      rw [hstate] at hunfinished
      cases hunfinished

/-- In a linked transaction in which another has not ended none begins, and no call is made. For an
environment of another number something else may be at fault before. -/
theorem begin_blocked (hreachable : Reachable system) (h : Linked system env txn)
    (hunready : Unready system txn .txnHasChild) (place : EnvId) (flags : TxnFlags) (thread : Nat) :
    ∃ error, (place = env → error = .txnHasChild) ∧
      (system.act (.begin place (some txn) flags thread)).result = .error (.error error) ∧
      (system.act (.begin place (some txn) flags thread)).calls = [] ∧
      system.after (.begin place (some txn) flags thread) = system := by
  have hfault := hunready.lifecycleFault hreachable.counted
  have hnesting : ∃ error, system.nestingFault place txn = some error := by
    unfold nestingFault
    split
    · exact ⟨_, rfl⟩
    · exact ⟨_, hfault⟩
  have hbegin : ∃ error, system.beginFault place (some txn) flags = some error := by
    unfold beginFault
    dsimp only
    split
    · exact ⟨_, rfl⟩
    split
    · exact ⟨_, rfl⟩
    · exact hnesting
  obtain ⟨error, herror⟩ := hbegin
  have hrefused : system.begin place (some txn) flags thread = system.fail error := by
    unfold begin
    rw [herror]
  refine ⟨error, ?_, ?_⟩
  · rintro rfl
    have hopen := hreachable.housed.opened txn (h.self hreachable.sound.anchored)
    have hwritable : (system.environment place).isReadOnly ≠ true := by
      intro hflags
      have hreader := hreachable.guarded.reading txn (by rwa [h.env_eq])
      rw [h.writer] at hreader
      cases hreader
    rw [h.env_eq] at hopen
    simp [beginFault, hopen, hwritable, nestingFault, h.env_eq, hfault] at herror
    exact herror.symm
  · rw [Outcome.calls, after, act, hrefused]
    exact ⟨rfl, rfl, rfl⟩

/-- What a chain member is nested in is a member too, and is not ready because of the one inside. -/
theorem Linked.outer_unready {last : TxnId} (hlast : Linked system env last)
    (h : Reachable system) (hmem : txn ∈ system.lineage last) (hne : txn ≠ last) :
    Linked system env txn ∧ Unready system txn .txnHasChild := by
  have hanchored := h.sound.anchored
  have hmember := hlast.lineage h txn hmem
  obtain ⟨inner, hinner, hnested⟩ := child_of_mem_lineage hanchored hmem hne
  refine ⟨hmember, .blocked ?_ hnested ((hlast.lineage h inner hinner).self hanchored)⟩
  have hunfinished := hmember.self hanchored
  have hawake := h.guarded.awake txn hmember.writer
  cases hstate : (system.transaction txn).state <;> simp_all [TxnState.isFinished]

/-- An environment has one root writer at most that has not ended, and its lock is taken exactly
while there is one. In each transaction at most one has not ended. So the transactions that can
write and have not ended, like all that they are nested in, form a single chain, each nested in the
next. The innermost of them can be used; all others are refused because of the one inside, and
nothing is called. In a transaction that only reads none is nested, and where writes are refused
there are no other transactions. -/
theorem one_writer_chain (h : Reachable system) (env : EnvId) :
    (∀ txn other, RootWriter system env txn → RootWriter system env other → other = txn) ∧
      ((system.environment env).writerLocked = true ↔ ∃ txn, RootWriter system env txn) ∧
      (∀ txn child other, (system.transaction child).parent = some txn →
        (system.transaction other).parent = some txn →
        (system.transaction child).state.isFinished = false →
        (system.transaction other).state.isFinished = false → other = child) ∧
      (∃ ids, Nested system ids ∧ (∀ txn, txn ∈ ids ↔ Linked system env txn) ∧
        ∀ last rest, ids = last :: rest → (system.transaction last).lifecycleFault = none ∧
          ∀ txn ∈ rest,
            (∀ action, action.gated? = some txn →
              (system.act action).result = .error (.error .txnHasChild) ∧
                (system.act action).calls = [] ∧ system.after action = system) ∧
            ∀ place flags thread, ∃ error, (place = env → error = .txnHasChild) ∧
              (system.act (.begin place (some txn) flags thread)).result = .error (.error error) ∧
              (system.act (.begin place (some txn) flags thread)).calls = [] ∧
              system.after (.begin place (some txn) flags thread) = system) ∧
      (∀ txn child, (system.transaction txn).readOnly = true →
        (system.transaction child).parent ≠ some txn) ∧
      ((system.environment env).isReadOnly = true → ∀ txn, (system.transaction txn).env = env →
        (system.transaction txn).readOnly = true) := by
  have hsound := h.sound
  have hguarded := h.guarded
  refine ⟨fun txn other htxn hother ↦ htxn.unique hother hsound hguarded,
    hguarded.locked_iff hsound env, fun txn child other ↦ hguarded.only_child h.counted, ?_, ?_, ?_⟩
  -- The chain is the lineage of the last transaction in it; there is one unless none can write.
  · by_cases hlinked : ∃ txn, Linked system env txn
    · obtain ⟨txn, htxn⟩ := hlinked
      obtain ⟨last, hlast, hhighest⟩ := exists_last_linked htxn hsound.anchored
      refine ⟨system.lineage last, nested_lineage hsound.anchored last, fun txn ↦
        ⟨hlast.lineage h txn, hlast.mem_lineage_of_last h hhighest⟩, ?_⟩
      intro first rest hids
      obtain rfl : last = first := by
        rw [lineage_eq hsound.anchored] at hids
        exact (List.cons.inj hids).1
      refine ⟨hlast.usable_of_last h hhighest, fun txn hrest ↦ ?_⟩
      have hmem : txn ∈ system.lineage last := hids ▸ List.mem_cons_of_mem last hrest
      have hne : txn ≠ last := by
        have hnodup := (nested_lineage hsound.anchored last).nodup hsound.anchored
        rw [hids] at hnodup
        rintro rfl
        exact (List.nodup_cons.mp hnodup).1 hrest
      obtain ⟨hmember, hunready⟩ := hlast.outer_unready h hmem hne
      exact ⟨fun action haction ↦ act_unready haction (hunready.lifecycleFault h.counted),
        begin_blocked h hmember hunready⟩
    · refine ⟨[], trivial, fun txn ↦ ?_, fun last rest hids ↦ by cases hids⟩
      simp only [List.not_mem_nil, false_iff]
      intro htxn
      exact hlinked ⟨txn, htxn⟩
  · intro txn child hreader hparent
    rw [h.writer_of_parent hparent] at hreader
    cases hreader
  · intro hflags txn henv
    exact hguarded.reading txn (henv ▸ hflags)

/-- A writer has a transaction nested in it, and this one has another. The lock is taken, and the
outer two refuse everything because of the one inside. -/
theorem one_writer_chain_nested :
    let nested := sample.afterAll [.begin 0 none .empty mainThread, .begin 0 (some 1) .empty mainThread,
      .begin 0 (some 2) .empty mainThread]
    (nested.environment 0).writerLocked = true ∧
      (nested.act (.put 2 sampleDatabase [107] [118] .empty)).result
        = .error (.error .txnHasChild) ∧
      (nested.act (.begin 0 (some 1) .empty mainThread)).result = .error (.error .txnHasChild) := by
  intro nested
  have hreachable : Reachable nested := sample_reachable.run (.all _ _)
  obtain ⟨-, hlock, -, ⟨ids, -, hids, hgate⟩, -, -⟩ := one_writer_chain hreachable 0
  refine ⟨hlock.mpr ⟨1, ?_, ?_, ?_, ?_⟩, ?_⟩
  iterate 4 decide +kernel
  cases ids with
  | nil =>
      have hmem : 1 ∈ [] := (hids 1).mpr ⟨by decide +kernel, by decide +kernel, by decide +kernel⟩
      cases hmem
  | cons last rest =>
      obtain ⟨husable, hblocked⟩ := hgate last rest rfl
      have hrest : ∀ txn, Linked nested 0 txn → (nested.transaction txn).lifecycleFault ≠ none →
          txn ∈ rest := by
        intro txn hlinked hfault
        rcases List.mem_cons.mp ((hids txn).mpr hlinked) with rfl | hmem
        · exact absurd husable hfault
        · exact hmem
      have hmiddle : 2 ∈ rest := hrest 2 ⟨by decide +kernel, by decide +kernel, by decide +kernel⟩
        (by decide +kernel)
      have hroot : 1 ∈ rest := hrest 1 ⟨by decide +kernel, by decide +kernel, by decide +kernel⟩
        (by decide +kernel)
      obtain ⟨error, herror, hresult, -⟩ := (hblocked 1 hroot).2 0 .empty mainThread
      rw [herror rfl] at hresult
      exact ⟨((hblocked 2 hmiddle).1 _ rfl).1, hresult⟩

end System

end MappedStore
