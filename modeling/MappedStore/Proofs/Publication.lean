import MappedStore.Proofs.Engine.Steadiness
import MappedStore.Proofs.Preparation

/-!
# What readers find after the commit of a root

The commit of a root publishes its maps (`System.Mirrors.offers`). They are offered to readers until
the next root writer commits (`System.Offers.run`), and a reader that begins then can use the
handles and finds the maps (`System.Offers.begun`).
-/

namespace MappedStore

open Engine (Contents mainSlot Setting Steady Published)

namespace System

variable {start system last : System} {setting : Setting} {env : EnvId} {root reader : TxnId}
  {database : Database} {databases : Set Database} {action : Action} {top : Contents}
  {map : Bytes → Option Bytes}

/-! ## Steps that commit no root writer -/

/-- An engine publishes nothing unless a root writer of its environment commits. -/
theorem Sound.steady (h : Sound system) (henv : env < system.environments.length)
    (hcommits : ∀ txn, action = .commit txn → (system.commit txn).result = .ok () →
      (system.transaction txn).parent = none → (system.transaction txn).env = env →
      (system.transaction txn).readOnly = true) :
    Steady (system.engine env) ((system.after action).engine env) := by
  have hset : ∀ {place : EnvId} {engine : Engine}, Steady (system.engine place) engine →
      Steady (system.engine env) ((system.setEngine place engine).engine env) := fun hsteady ↦
    engine_setEngine_induction (fun before after ↦ Steady before after) Steady.refl hsteady env
  have hsetOf : ∀ {txn : TxnId} {engine : Engine}, Steady (system.engineOf txn) engine →
      Steady (system.engine env) ((system.setEngineOf txn engine).engine env) := hset
  have htransition := h.transition action
  generalize system.after action = after at *
  cases htransition with
  | idle | files => exact .refl _
  | openedEnvironment =>
      rw [engine, engine, environment_append _ _ henv]
      exact .refl _
  | @closed place files =>
      have hsame : ((system.modifyEnvironment place
          ({ · with closed := true, retained := [] })).environment env).engine
            = (system.environment env).engine :=
        field_modifyEnvironment (·.engine) (fun _ ↦ by rfl) system place env
      exact (congrArg (Steady (system.engine env)) hsame).mpr (.refl _)
  | aside files haction haside => exact hset (.aside haside)
  | used use haction => exact hset (.used (Engine.use_used _ _ use))
  | reopened hfault hopen | opened hfault hopen =>
      simpa using hsetOf (.used (used_of_open hopen))
  | dropped hfault henv' hlive hslot hdrop => simpa using hsetOf (.used (used_of_drop hdrop))
  | began hfault hwriter hbegin =>
      rw [engine_enter]
      exact hset (.began (began_of_begin hbegin))
  | @committed txn engine hfault hcommit =>
      rw [engine_finish, engine_handOver]
      by_cases hplace : (system.transaction txn).env = env
      · rcases Steady.committed (committed_of_commit (h.anchored.roster _) hcommit) with
          hsteady | ⟨writer, hwriters, hhandle⟩
        · exact hset hsteady
        · -- the only writer of the environment is a root, so it does not only read
          obtain ⟨ids, hchain⟩ := h.chained (system.transaction txn).env
          have hmem := hchain.mem h.anchored (lt_of_lifecycleFault hfault) rfl
            (by rw [show (system.engine _).writers = [writer] from hwriters]; exact .head _) hhandle
          have hlength : ids.length = 1 := by
            simpa [show (system.engine _).writers = [writer] from hwriters]
              using (congrArg List.length hchain.handles).symm
          obtain ⟨only, rfl⟩ := List.length_eq_one_iff.mp hlength
          obtain rfl := List.mem_singleton.mp hmem
          have hreader := hcommits txn rfl (commit_result hfault hcommit) hchain.nested.1 hplace
          simp [hchain.writer txn hmem] at hreader
      · rw [setEngineOf, engine_setEngine_of_ne engine (Ne.symm hplace)]
        exact .refl _
  | commitFailed hfault hcommit =>
      rw [engine_finish]
      exact hset (.refused hcommit)
  | discarded =>
      rw [engine_finish]
      exact hset (.abort _ _)
  | @reset txn =>
      simpa using hsetOf (.reset (Engine.reset_cases (system.engineOf txn) (system.native txn)))
  | renewed hstate hrenew =>
      simpa using hsetOf (.renewed (renewed_of_renew hrenew))

/-! ## Offers -/

/-- What an environment has for readers that begin: a handle that it retains, and a map behind
it. -/
structure Offers (system : System) (database : Database) (map : Bytes → Option Bytes) : Prop where
  env_lt : database.env < system.environments.length
  retained : system.checks = true →
    (system.retained database.env).lookup database.slot = some database.generation
  published : Published database.slot map (system.engine database.env)

/-- The actions that spare what an environment has for readers behind a handle: all but those that
close the environment, commit a root writer, hand over another record of the slot, or change its
occupant. -/
structure Spares (database : Database) (system : System) (action : Action) : Prop where
  stays : action ≠ .close database.env
  commits : ∀ txn, action = .commit txn → (system.commit txn).result = .ok () →
    (system.transaction txn).parent = none → (system.transaction txn).env = database.env →
    (system.transaction txn).readOnly = true ∧
      ∀ record, (system.transaction txn).record? database.slot = some record →
        record = .opened database.generation
  occupant : (system.after action).occupant database.env database.slot
    = system.occupant database.env database.slot

namespace Offers

/-- What is offered stays so when it is spared. -/
theorem act (h : Offers system database map) (hsound : Sound system)
    (hspares : Spares database system action) : Offers (system.after action) database map where
  env_lt := Nat.lt_of_lt_of_le h.env_lt (hsound.transition action).length.2
  retained hchecks :=
    hsound.retained_kept h.env_lt hspares.stays
      (fun root haction hcommit hparent hplace ↦
        (hspares.commits root haction hcommit hparent hplace).2)
      (h.retained ((hsound.transition action).checks.symm.trans hchecks))
  published :=
    h.published.steady
      (hsound.steady h.env_lt fun txn haction hcommit hparent hplace ↦
        (hspares.commits txn haction hcommit hparent hplace).1)
      hspares.occupant

/-- What is offered stays so along a run that spares it. -/
theorem run (h : Offers system database map) (hsound : Sound system)
    (hrun : Run (Spares database) system last) : Offers last database map := by
  induction hrun with
  | nil => exact h
  | step hrun hspares ih => exact ih.act (hsound.run hrun) hspares

/-- A reader that begins can use the handle, and finds the map behind it. -/
theorem begun (h : Offers system database map) (hsound : Sound system) {flags : TxnFlags}
    {thread : Nat} (hflags : flags.contains TxnFlags.readOnly = true)
    (hbegin : (system.begin database.env none flags thread).result = .ok reader) :
    Usable (system.after (.begin database.env none flags thread)) reader database ∧
      ((system.after (.begin database.env none flags thread)).stored database.env
        database.slot).value = map := by
  have hafter : Sound (system.after (.begin database.env none flags thread)) := hsound.act _
  obtain ⟨rfl, handle, engine, hentrance⟩ := entrance_of_begin hbegin
  have hadmits : Admits (system.after (.begin database.env none flags thread))
      system.transactions.length database := by
    refine ⟨by rw [hentrance.transaction_eq]; rfl, by rw [hentrance.transaction_eq]; rfl,
      fun hchecks ↦ decide_eq_true ?_⟩
    rw [show (system.after (.begin database.env none flags thread)).liveGeneration
      system.transactions.length database.slot = _ from
        liveGeneration_begin hsound hbegin database.slot]
    exact h.retained ((hsound.transition _).checks.symm.trans hchecks)
  -- The flags ask for a reader, which takes the committed image as its snapshot.
  cases hentrance.began with
  | root _ hwrites => simp [hflags] at hwrites
  | nested hparent => simp at hparent
  | reading readers slot =>
      obtain ⟨table, hsees, hvalue⟩ := h.published.sees slot
      have hattends : Attends (system.after (.begin database.env none flags thread))
          system.transactions.length ((system.engine database.env).newReader slot) := by
        constructor
        · rw [hentrance.engineOf_eq]
          exact .head _
        · rw [hentrance.native_eq]
          rfl
      obtain ⟨hfound, -⟩ := hattends.known hafter
      have hslots : ((system.after (.begin database.env none flags thread)).engineOf
          system.transactions.length).slots = (system.engine database.env).slots := by
        rw [hentrance.engineOf_eq]
      refine ⟨⟨hadmits.gateFault none (by simp), _, table, hfound,
        by simp [Engine.isBlocked, Engine.newReader], hslots ▸ hsees⟩, ?_⟩
      have hstarts : ((system.engine database.env).newReader slot).Starts
          ((system.after (.begin database.env none flags thread)).engine database.env) := by
        rw [hentrance.engine_eq]
        exact ⟨.head _, rfl, rfl, [], rfl⟩
      have htable := hstarts.sees rfl (by rw [hentrance.engine_eq]; exact hsees)
      exact (congrArg Engine.Table.value htable).symm.trans hvalue

/-- A reader that begins reads the map, as long as nothing disturbs it. -/
theorem read (h : Offers system database map) (hreachable : Reachable system) {flags : TxnFlags}
    {thread : Nat} (hflags : flags.contains TxnFlags.readOnly = true)
    (hbegin : (system.begin database.env none flags thread).result = .ok reader)
    (hrun : Run (fun system action ↦ Leaves reader database.env action ∧
      ¬ Disturbs reader database system action)
        (system.after (.begin database.env none flags thread)) last) {key : Bytes} (hkey : key ≠ [])
    (hlength : key.length ≤ Engine.maxKeySize) :
    (last.get reader database key).result = .ok (map key) := by
  obtain ⟨husable, hvalue⟩ := h.begun hreachable.sound hflags hbegin
  obtain ⟨origin, -, hbroken, hobserves⟩ :=
    (Starts.begun hflags hbegin).observes hreachable.sound husable
  have hbegun := hreachable.run
    (.single (.begin database.env none flags thread) trivial : Run anything system _)
  have hanswers := (hobserves.run hbegun hrun).answers (hbegun.run hrun).sound hbroken
  rw [hanswers.get key hkey hlength, ← hvalue]

end Offers

/-- The commit of a root publishes its maps. -/
theorem Mirrors.offers (h : Mirrors start setting root system [(root, top)])
    (hreachable : Reachable system) (hadmits : Admits system root database)
    (hused : setting.used database.slot)
    (hoccupied : ∀ slot, setting.made slot → (setting.slots.info slot).name ≠ [])
    (hcommit : (system.commit root).result = .ok ()) :
    Offers (system.after (.commit root)) database (top database.slot) := by
  have hsound := hreachable.sound
  have henv : database.env = (start.transaction root).env :=
    hadmits.env_eq.trans (h.chain.env_eq root h.root_mem)
  have hroot : (system.transaction root).parent = none := h.chain.nested.1
  refine ⟨?_, fun hchecks ↦ ?_, ?_⟩
  · exact henv ▸ Nat.lt_of_lt_of_le (h.env_lt hsound) (hsound.transition _).length.2
  · have hlive := of_decide_eq_true
      (hadmits.accepts ((hsound.transition _).checks.symm.trans hchecks))
    rw [liveGeneration_root hsound.anchored hroot] at hlive
    rw [hadmits.env_eq]
    exact (retained_commit hsound.anchored hcommit hroot database.slot).trans hlive
  · obtain ⟨engine, hfault, hengine, hstate⟩ := commit_ok hcommit
    obtain ⟨writer, outer, hwriters, -, hnone⟩ := h.levels.innermost
    obtain rfl : outer = [] := by simpa using hnone
    have hhandle : writer.handle = system.native root := by
      simpa [hwriters, Stack.ids] using congrArg List.head? h.chain.handles
    rw [henv, show system.after (.commit root) = _ from hstate, engine_finish, engine_handOver,
      ← h.chain.env_eq root h.root_mem, setEngineOf,
      engine_setEngine engine (hsound.anchored.env_lt root (lt_of_lifecycleFault hfault))]
    rw [engineOf, h.chain.env_eq root h.root_mem, ← hhandle] at hengine
    exact h.levels.published (hsound.anchored.roster _) (hreachable.coherent _) hoccupied hwriters
      hengine hused

/-! ## Stacks of maps -/

/-- Only the innermost transaction answers to reads. -/
theorem Mirrors.only {rest : Stack} {txn user : TxnId} {key : Bytes} {value : Option Bytes}
    (h : Mirrors start setting root system ((txn, top) :: rest)) (hsound : Sound system)
    (hmem : root ∈ system.lineage user) (hget : (system.get user database key).result = .ok value) :
    user = txn := by
  obtain ⟨-, found, content, hfound, -, hblocked, -⟩ := usable_of_get hget
  exact (Option.some.inj ((h.found hsound hmem hfound).2.2 hblocked)).symm

end System

end MappedStore
