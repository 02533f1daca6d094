import MappedStore.Proofs.Sound

/-!
# Settings of environments

An environment and its engine are set up together, and neither changes its settings afterwards. What
holds of them when an environment is opened holds for good (`Reachable.upholds`). So the engine
knows whether the environment is read-only (`Reachable.marked`).
-/

namespace MappedStore

namespace Engine

variable {engine after : Engine} {handle : Nat}

/-! ## Engines -/

/-- A use keeps the settings of an engine. -/
theorem flags_used (h : Used engine handle after) : after.flags = engine.flags := by
  cases h <;> rfl

/-- The end of a reader keeps the settings. -/
theorem flags_endReader (engine : Engine) (txn : Txn) (keep : Bool) :
    (engine.endReader txn keep).flags = engine.flags := by
  obtain ⟨readers, hleft⟩ := engine.leaveReader_eq txn true
  unfold endReader
  rw [hleft]
  cases txn.idle <;> cases keep <;> rfl

/-- The end of writers keeps the settings. -/
theorem flags_abortWriters (engine : Engine) (handle : Nat) (writers : List Txn) :
    (engine.abortWriters handle writers).flags = engine.flags := by
  induction writers generalizing engine with
  | nil => rfl
  | cons txn rest ih =>
      unfold abortWriters
      dsimp only
      split
      · rfl
      · exact ih _

/-- An abort keeps the settings. -/
theorem flags_abort (engine : Engine) (handle : Nat) :
    (engine.abort handle).flags = engine.flags := by
  unfold abort
  split
  · rfl
  split
  · exact flags_endReader ..
  · exact flags_abortWriters ..

/-- A commit keeps the settings. -/
theorem flags_commit (engine : Engine) (handle : Nat) :
    (engine.commit handle).2.flags = engine.flags := by
  unfold commit
  split
  · rfl
  split
  · exact flags_endReader ..
  split
  · rfl
  split
  · unfold commitWriter
    split
    · split
      · exact flags_abort ..
      · rfl
    split
    · exact flags_abort ..
    split
    · rfl
    split
    · exact flags_abort ..
    · rfl
  · exact flags_abort ..

/-- A begin keeps the settings. -/
theorem flags_began {parent : Option Nat} {flags : TxnFlags}
    (h : Began engine parent flags handle after) : after.flags = engine.flags := by
  cases h <;> rfl

/-- A reset keeps the settings. -/
theorem flags_reset (engine : Engine) (handle : Nat) :
    (engine.reset handle).flags = engine.flags := by
  have hreset := engine.reset_cases handle
  generalize engine.reset handle = after at hreset ⊢
  cases hreset <;> rfl

/-- A renewal keeps the settings. -/
theorem flags_renewed (h : Renewed engine handle after) : after.flags = engine.flags := by
  cases h
  rfl

/-- The settings of an engine that has just been opened. One that only reads has no use for direct
writes. -/
theorem flags_openAt {tree files : Files.Tree} {path : Bytes} {flags : EnvFlags} {config : Config}
    (h : openAt tree path flags config = (.ok engine, files)) :
    engine.flags =
      if flags.contains EnvFlags.readOnly then flags.minus EnvFlags.writeMap else flags := by
  have hstart : ∀ {tree location file flags capacity},
      start tree location file config flags capacity = (.ok engine, files) →
        engine.flags = flags := by
    intro tree location file flags capacity h
    unfold start at h
    dsimp only at h
    split at h
    · cases h
    · split at h
      · cases h
      · cases h; rfl
    · split at h
      · cases h
      · split at h
        · cases h
        · cases h; rfl
  unfold openAt at h
  split at h
  · cases h
  split at h
  · rename_i hreadOnly
    unfold openReadOnly at h
    rw [if_pos hreadOnly]
    split at h
    · cases h
    · dsimp only at h
      split at h
      · cases h
      · cases h
      · exact hstart h
  · rename_i hwritable
    unfold openWritable at h
    rw [if_neg hwritable]
    dsimp only at h
    split at h
    · cases h
    · split at h
      · cases h
      · exact hstart h

/-- The engine knows the settings of its environment, but for direct writes. -/
theorem contains_openAt {tree files : Files.Tree} {path : Bytes} {flags flag : EnvFlags}
    {config : Config} (hflag : flag.minus EnvFlags.writeMap = flag)
    (h : openAt tree path flags config = (.ok engine, files)) :
    engine.flags.contains flag = flags.contains flag := by
  rw [flags_openAt h]
  split
  · exact flags.contains_minus hflag
  · rfl

end Engine

namespace System

variable {system left : System} {action : Action} {env : EnvId}

/-! ## Environments -/

/-- Every environment meets a condition on its path, its settings and the settings of its engine. -/
def Upholds (condition : Bytes → EnvFlags → EnvFlags → Prop) (system : System) : Prop :=
  ∀ env, condition (system.environment env).path (system.environment env).flags
    (system.engine env).flags

variable {condition : Bytes → EnvFlags → EnvFlags → Prop}

/-- Another engine with the same settings. -/
theorem Upholds.setEngine (h : Upholds condition system) {engine : Engine}
    (hflags : engine.flags = (system.engine env).flags) :
    Upholds condition (system.setEngine env engine) := by
  intro other
  refine modifyEnvironment_induction
    (fun before later ↦ condition before.path before.flags before.engine.flags →
      condition later.path later.flags later.engine.flags)
    (fun _ hbefore ↦ hbefore) (fun hbefore ↦ ?_) other (h other)
  dsimp only
  rw [hflags]
  exact hbefore

/-- A step that is no concern of environments and their engines. -/
theorem Upholds.congr (h : Upholds condition system)
    (hengine : ∀ env, left.engine env = system.engine env)
    (hpath : ∀ env, (left.environment env).path = (system.environment env).path)
    (hflags : ∀ env, (left.environment env).flags = (system.environment env).flags) :
    Upholds condition left := fun env ↦ by
  rw [hengine, hpath, hflags]
  exact h env

/-- The end of a transaction is no concern of environments and their engines. -/
theorem Upholds.finish (h : Upholds condition system) (txn : TxnId) (state : TxnState) :
    Upholds condition (system.finish txn state) :=
  h.congr (fun env ↦ engine_finish _ txn state env)
    (fun env ↦ field_environment_finish (·.path) (fun _ _ _ ↦ rfl) _ txn state env)
    fun env ↦ field_environment_finish (·.flags) (fun _ _ _ ↦ rfl) _ txn state env

/-- What a committed transaction hands over is no concern of environments and their engines. -/
theorem Upholds.handOver (h : Upholds condition system) (txn : TxnId) :
    Upholds condition (system.handOver txn) :=
  h.congr (fun env ↦ engine_handOver _ txn env)
    (fun env ↦ field_environment_handOver (·.path) (fun _ _ ↦ rfl) _ txn env)
    fun env ↦ field_environment_handOver (·.flags) (fun _ _ ↦ rfl) _ txn env

/-- The begin of a transaction is no concern of environments and their engines. -/
theorem Upholds.enter (h : Upholds condition system) (entering : Transaction) :
    Upholds condition (system.enter entering) :=
  h.congr (fun env ↦ engine_enter _ _ env)
    (fun env ↦ field_environment_enter (·.path) (fun _ _ _ ↦ rfl) _ _ env)
    fun env ↦ field_environment_enter (·.flags) (fun _ _ _ ↦ rfl) _ _ env

/-- No action changes the settings of an environment, or of its engine. -/
theorem Upholds.transition (habsent : condition [] .empty .empty)
    (hopened : ∀ {tree path flags config engine files},
      Engine.openAt tree path flags config = (.ok engine, files) →
        condition path flags engine.flags)
    (h : Upholds condition system) (htransition : Transition system action left) :
    Upholds condition left := by
  cases htransition with
  | idle => exact h
  | files => exact h
  | @openedEnvironment path flags config kind engine files hopen =>
      intro env
      rcases Nat.lt_trichotomy env system.environments.length with hlt | rfl | hgt
      · rw [System.engine, environment_append _ _ hlt]
        exact h env
      · simpa [System.engine, environment, List.getD_eq_getElem?_getD] using hopened hopen
      · simpa [System.engine, environment, List.getD_eq_getElem?_getD,
          Nat.not_lt.mpr (Nat.le_of_lt hgt), List.getElem?_append, Environment.absent,
          Engine.unopened, Nat.sub_ne_zero_of_lt hgt] using habsent
  | @closed env files hactive =>
      exact h.congr
        (fun other ↦ congrArg Environment.engine rfl |>.trans
          (field_modifyEnvironment (·.engine) (fun _ ↦ by rfl) system env other))
        (fun other ↦ field_modifyEnvironment (·.path) (fun _ ↦ by rfl) system env other)
        fun other ↦ field_modifyEnvironment (·.flags) (fun _ ↦ by rfl) system env other
  | @aside action env engine files haction haside =>
      obtain ⟨readers, next, -, heq⟩ := haside
      have hset : Upholds condition (system.setEngine env engine) := h.setEngine (by rw [heq])
      exact fun other ↦ hset other
  | used use haction hfault => exact h.setEngine (Engine.flags_used (Engine.use_used ..))
  | @reopened txn name flags slot generation engine hfault hopen hlive =>
      have hset : Upholds condition (system.setEngineOf txn engine) :=
        h.setEngine (Engine.flags_used (used_of_open hopen))
      exact fun other ↦ hset other
  | @opened txn name flags slot engine hfault hopen hlive =>
      have hset : Upholds condition (system.setEngineOf txn engine) :=
        h.setEngine (Engine.flags_used (used_of_open hopen))
      exact hset.congr (fun other ↦ engine_advance _ _ other)
        (fun other ↦ field_modifyEnvironment (·.path) (fun _ ↦ by rfl) _ _ other)
        fun other ↦ field_modifyEnvironment (·.flags) (fun _ ↦ by rfl) _ _ other
  | @dropped txn database engine hfault henv hlive hslot hdrop =>
      have hset : Upholds condition (system.setEngineOf txn engine) :=
        h.setEngine (Engine.flags_used (used_of_drop hdrop))
      exact fun other ↦ hset other
  | began hfault hwriter hbegin =>
      exact (h.setEngine (Engine.flags_began (began_of_begin hbegin))).enter _
  | @committed txn engine hfault hcommit =>
      have hflags := Engine.flags_commit (system.engineOf txn) (system.native txn)
      rw [hcommit] at hflags
      exact ((h.setEngine hflags).handOver txn).finish txn _
  | @commitFailed txn code engine hfault hcommit =>
      have hflags := Engine.flags_commit (system.engineOf txn) (system.native txn)
      rw [hcommit] at hflags
      exact (h.setEngine hflags).finish txn _
  | @discarded action txn haction hstate =>
      exact (h.setEngine (Engine.flags_abort ..)).finish txn _
  | @reset txn hfault hreader =>
      have hset := h.setEngine (Engine.flags_reset (system.engineOf txn) (system.native txn))
      exact fun other ↦ hset other
  | @renewed txn thread engine hstate hrenew =>
      have hset : Upholds condition (system.setEngineOf txn engine) :=
        h.setEngine (Engine.flags_renewed (renewed_of_renew hrenew))
      exact fun other ↦ hset other

/-- The engine of an environment that is read-only knows that. -/
def Marked (system : System) : Prop :=
  ∀ env, (system.engine env).flags.contains EnvFlags.readOnly
    = (system.environment env).isReadOnly

end System

/-- A condition that every environment meets when it is opened is met for good. -/
theorem Reachable.upholds {system : System} {condition : Bytes → EnvFlags → EnvFlags → Prop}
    (habsent : condition [] .empty .empty)
    (hopened : ∀ {tree path flags config engine files},
      Engine.openAt tree path flags config = (.ok engine, files) →
        condition path flags engine.flags)
    (h : Reachable system) : system.Upholds condition := by
  obtain ⟨checks, files, hrun⟩ := h
  induction hrun with
  | nil => exact fun _ ↦ habsent
  | step hrun _ ih =>
      have hsound := (System.sound_start checks files).run hrun
      exact ih.transition habsent hopened (hsound.transition _)

/-- Every engine knows whether its environment is read-only. -/
theorem Reachable.marked {system : System} (h : Reachable system) : system.Marked := by
  have hupholds : system.Upholds fun _ flags known ↦
      known.contains EnvFlags.readOnly = flags.contains EnvFlags.readOnly :=
    h.upholds rfl (Engine.contains_openAt rfl)
  exact hupholds

end MappedStore
