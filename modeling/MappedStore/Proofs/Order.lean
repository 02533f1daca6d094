import MappedStore.Proofs.Engine.Upkeep

/-!
# Processes in order

The data files of a process and the engines that it has opened have their tables in order
(`System.Orderly`), from one action to the next (`System.Orderly.act`) and so along every run
(`Tended.orderly`), on two conditions: data files that come from elsewhere have theirs in order, and
the main database is not given another order of keys while it has some (`KeepsOrder`). Without the
second condition this is so of all tables but the main ones.
-/

namespace MappedStore

open Engine (Order)

namespace System

variable {whole : Prop} {system last : System} {action : Action} {env : EnvId} {engine : Engine}

/-! ## Files -/

/-- What an action makes of the files. -/
inductive LeavesFiles (system : System) : Action → Files.Tree → Prop where
  | kept (action : Action) : LeavesFiles system action system.files
  | changed (files : Files.Tree) : LeavesFiles system (.changeFiles files) files
  | opened (path : Bytes) (flags : EnvFlags) (config : Config) (kind : ViewKind) :
      LeavesFiles system (.openEnvironment path flags config kind)
        (Engine.openAt system.files path flags config).2
  | closed (env : EnvId) : LeavesFiles system (.close env) ((system.engine env).close system.files)
  | copied (env : EnvId) (destination : Bytes) (flags : CopyFlags) (thread : Nat) (path : Bytes) :
      LeavesFiles system (.copy env destination flags thread)
        ((system.engine env).copy system.files path flags thread).2.2

/-- What an action through a transaction leaves of the files: all. -/
theorem Transition.files_eq {after : System} (h : Transition system action after)
    (haction : action.through? ≠ none) : after.files = system.files := by
  cases h with
  | files _ _ hnone | aside _ hnone => exact absurd hnone haction
  | openedEnvironment | closed | began => exact absurd rfl haction
  | idle | used | reopened | opened | dropped | reset | renewed => rfl
  | committed | commitFailed | discarded => simp [setEngineOf, System.setEngine, modifyEnvironment]

/-- A question to the engine of an environment leaves the files. -/
theorem files_asked {α : Type} [Inhabited α] (env : EnvId) (call : Call)
    (answer : Engine → Except Code α) :
    (system.whileOpen env fun _ ↦
      system.relay env call fun engine ↦ (answer engine, engine)).state.files = system.files := by
  rcases system.whileOpen_cases env fun _ ↦
    system.relay env call fun engine ↦ (answer engine, engine) with ⟨-, heq⟩ | ⟨-, heq⟩
  · rw [heq]
    rfl
  · rw [heq, relay_state]
    rfl

/-- Every action leaves the files so. -/
theorem leavesFiles (hsound : Sound system) (action : Action) :
    LeavesFiles system action (system.after action).files := by
  have hthrough (action : Action) (haction : action.through? ≠ none) :
      LeavesFiles system action (system.after action).files := by
    rw [(hsound.transition action).files_eq haction]
    exact .kept action
  cases action with
  | changeFiles files => exact .changed files
  | openEnvironment path flags config kind =>
      have houtcome := system.openWith_outcome path flags config kind
      show LeavesFiles system _ (system.openWith path flags config kind).state.files
      have hopened := @LeavesFiles.opened system path flags config kind
      generalize system.openWith path flags config kind = outcome at houtcome ⊢
      cases houtcome with
      | failed hopen | opened hopen =>
          rw [hopen] at hopened
          exact hopened
  | close env =>
      have houtcome := system.close_outcome env
      show LeavesFiles system _ (system.close env).state.files
      generalize system.close env = outcome at houtcome ⊢
      cases houtcome with
      | idle | busy => exact .kept _
      | closed => exact .closed env
  | copy env destination flags thread =>
      have houtcome := system.copy_outcome env destination flags thread
      have hcopied := @LeavesFiles.copied system env destination flags thread
        ((system.environment env).copyTarget destination)
      show LeavesFiles system _ (system.copy env destination flags thread).state.files
      generalize system.copy env destination flags thread = outcome at houtcome ⊢
      cases houtcome with
      | closed | unfit | unusable | waits => exact .kept _
      | failed _ _ hcopy | copied _ _ hcopy =>
          rw [hcopy] at hcopied
          exact hcopied
  | statEnvironment env =>
      have hfiles : (system.after (.statEnvironment env)).files = system.files :=
        files_asked env .stat fun engine ↦ .ok engine.stat
      exact hfiles ▸ .kept _
  | info env =>
      have hfiles : (system.after (.info env)).files = system.files :=
        files_asked env .info fun engine ↦ .ok engine.info
      exact hfiles ▸ .kept _
  | readerCheck env =>
      have hfiles : (system.after (.readerCheck env)).files = system.files :=
        files_asked env .readerCheck fun _ ↦ (.ok 0 : Except Code Nat)
      exact hfiles ▸ .kept _
  | sync env =>
      have houtcome := system.sync_outcome env
      show LeavesFiles system _ (system.sync env).state.files
      generalize system.sync env = outcome at houtcome ⊢
      cases houtcome <;> exact .kept _
  | endThread => exact .kept _
  | begin env parent flags thread =>
      have hfiles : (system.after (.begin env parent flags thread)).files = system.files := by
        rcases system.begin_cases env parent flags thread with
          ⟨-, -, hstate⟩ | ⟨native, engine, -, -, -, -, hstate⟩
        · exact congrArg System.files hstate
        · exact (congrArg System.files hstate).trans (files_enter _ _)
      exact hfiles ▸ .kept _
  | commit | abort | drop | reset | renew => exact hthrough _ nofun
  | openDatabase | get | stat | put | reserve | del | clear | dropDatabase => exact hthrough _ nofun

/-! ## The invariant -/

/-- A process whose data files and engines have their tables in order. -/
structure Orderly (whole : Prop) (system : System) : Prop where
  files : system.files.Orderly whole
  engines : ∀ env, (system.engine env).Orderly whole

/-- The actions that keep tables in order: data files that come from elsewhere have theirs in order,
and the main database is not given another order of keys while it has some. -/
structure KeepsOrder (whole : Prop) (system : System) (action : Action) : Prop where
  files : ∀ files, action = .changeFiles files → files.Orderly whole
  main : whole → ∀ txn flags found, action = .openDatabase txn none flags →
    (system.engineOf txn).txn? (system.native txn) = some found → found.KeepsOrder flags

namespace Orderly

/-- One engine is replaced by another with its tables in order. -/
theorem setEngine (h : system.Orderly whole) (hengine : engine.Orderly whole) (env other : EnvId) :
    ((system.setEngine env engine).engine other).Orderly whole := by
  refine engine_setEngine_induction
    (fun before after ↦ before.Orderly whole → after.Orderly whole) (fun _ ↦ id) ?_ other
    (h.engines other)
  exact fun _ ↦ hengine

/-- The engine of a transaction is replaced by another with its tables in order. -/
theorem setEngineOf (h : system.Orderly whole) (hengine : engine.Orderly whole) (txn : TxnId)
    (env : EnvId) : ((system.setEngineOf txn engine).engine env).Orderly whole :=
  h.setEngine hengine _ env

/-- What is done through a transaction keeps the tables of its engine in order. -/
theorem use (h : system.Orderly whole) (hkeeps : KeepsOrder whole system action) {txn : TxnId}
    {use : Engine.Use} (haction : action.use? = some (txn, use)) :
    ((system.engineOf txn).use (system.native txn) use).Orderly whole := by
  refine (h.engines _).use (system.native txn) use ?_
  rintro hwhole flags rfl found hfound
  -- only an open of the main database is such a use
  cases action with
  | openDatabase user name asked =>
      obtain ⟨rfl, huse⟩ := Prod.mk.inj (Option.some.inj haction)
      obtain ⟨hname, rfl⟩ := Engine.Use.openDatabase.inj huse
      rw [Option.map_eq_none_iff.mp hname] at hkeeps
      exact hkeeps.main hwhole user asked found rfl hfound
  | _ => cases haction

/-- The engines after an action. -/
theorem engines_act (h : system.Orderly whole) (hsound : Sound system)
    (hkeeps : KeepsOrder whole system action) (env : EnvId) :
    ((system.after action).engine env).Orderly whole := by
  have hroster := hsound.anchored.roster
  have hopened : ∀ {txn : TxnId} {name : Option String} {flags : DbFlags} {engine : Engine}
      {slot : Nat}, action = .openDatabase txn name flags →
      (system.engineOf txn).openDatabase (system.native txn) (name.map Bytes.ofText) flags
        = (.ok slot, engine) → engine.Orderly whole := by
    rintro txn name flags engine slot rfl hopen
    have horderly := h.use hkeeps rfl
    rwa [Engine.use, hopen] at horderly
  have htransition := hsound.transition action
  generalize system.after action = after at htransition
  cases htransition with
  | idle | files => exact h.engines env
  | @openedEnvironment path flags config kind engine files hopen =>
      have hnew := (Engine.orderly_openAt h.files path flags config).2 engine (by rw [hopen])
      rcases Nat.lt_trichotomy env system.environments.length with hlt | rfl | hgt
      · rw [System.engine, environment_append _ _ hlt]
        exact h.engines env
      · simpa [System.engine, environment] using hnew
      · have hempty : Engine.unopened.Orderly whole :=
          Engine.orderly_of_image Engine.Snapshot.orderly_empty rfl rfl
        simpa [System.engine, environment, Environment.absent, hgt] using hempty
  | @closed place files =>
      have hsame : ((system.modifyEnvironment place
          ({ · with closed := true, retained := [] })).environment env).engine
            = (system.environment env).engine :=
        field_modifyEnvironment (·.engine) (fun _ ↦ by rfl) system place env
      exact (congrArg (Engine.Orderly whole) hsame).mpr (h.engines env)
  | aside files haction haside => exact h.setEngine ((h.engines _).aside haside) _ env
  | used use haction => exact h.setEngineOf (h.use hkeeps haction) _ env
  | reopened hfault hopen | opened hfault hopen =>
      simpa using h.setEngineOf (hopened rfl hopen) _ env
  | @dropped txn database engine _ _ _ _ hdrop =>
      have horderly := (h.engines (system.transaction txn).env).drop (system.native txn)
        database.slot true
      rw [show system.engine (system.transaction txn).env = system.engineOf txn from rfl,
        hdrop] at horderly
      simpa using h.setEngineOf horderly txn env
  | began hfault hwriter hbegin =>
      rw [engine_enter]
      exact h.setEngine ((h.engines _).began (began_of_begin hbegin)) _ env
  | @committed txn engine _ hcommit | @commitFailed txn _ engine _ hcommit =>
      have horderly := (h.engines (system.transaction txn).env).commit (hroster _)
        (system.native txn)
      rw [show system.engine (system.transaction txn).env = system.engineOf txn from rfl,
        hcommit] at horderly
      simpa using h.setEngineOf horderly txn env
  | discarded =>
      rw [engine_finish]
      exact h.setEngineOf ((h.engines _).abort (hroster _) _) _ env
  | @reset txn =>
      have horderly : ((system.engineOf txn).reset (system.native txn)).Orderly whole :=
        (h.engines _).reset _
      simpa using h.setEngineOf horderly txn env
  | renewed hstate hrenew =>
      simpa using h.setEngineOf ((h.engines _).renewed (renewed_of_renew hrenew)) _ env

/-- The files after an action. -/
theorem files_act (h : system.Orderly whole) (hsound : Sound system)
    (hkeeps : KeepsOrder whole system action) : (system.after action).files.Orderly whole := by
  have hleaves := leavesFiles hsound action
  generalize (system.after action).files = files at hleaves
  cases hleaves with
  | kept => exact h.files
  | changed => exact hkeeps.files _ rfl
  | opened path flags config => exact (Engine.orderly_openAt h.files path flags config).1
  | closed env => exact (h.engines env).close h.files
  | copied env _ flags thread path => exact (h.engines env).copy h.files path flags thread

/-- An action keeps tables in order. -/
theorem act (h : system.Orderly whole) (hsound : Sound system)
    (hkeeps : KeepsOrder whole system action) : (system.after action).Orderly whole :=
  ⟨h.files_act hsound hkeeps, h.engines_act hsound hkeeps⟩

/-- A run keeps tables in order. -/
theorem run (h : system.Orderly whole) (hsound : Sound system)
    (hrun : Run (KeepsOrder whole) system last) : last.Orderly whole := by
  induction hrun with
  | nil => exact h
  | step hrun hkeeps ih => exact ih.act (hsound.run hrun) hkeeps

end Orderly

end System

/-- A state that a process can reach from data files in order by actions that keep them so. -/
def Tended (whole : Prop) (system : System) : Prop :=
  ∃ checks files, Files.Tree.Orderly whole files ∧
    Run (System.KeepsOrder whole) { checks := checks, files := files } system

namespace Tended

variable {whole : Prop} {system last : System}

/-- A run that keeps tables in order leads to another such state. -/
theorem run (h : Tended whole system) (hrun : Run (System.KeepsOrder whole) system last) :
    Tended whole last := by
  obtain ⟨checks, files, hfiles, hfirst⟩ := h
  exact ⟨checks, files, hfiles, hfirst.trans hrun⟩

/-- Its tables are in order. -/
theorem orderly (h : Tended whole system) : system.Orderly whole := by
  obtain ⟨checks, files, hfiles, hrun⟩ := h
  refine System.Orderly.run ⟨hfiles, fun env ↦ ?_⟩ (System.sound_start checks files) hrun
  exact Engine.orderly_of_image Engine.Snapshot.orderly_empty rfl rfl

end Tended

end MappedStore
