import MappedStore.Proofs.Conduct

/-!
# What is asked of a builder

A builder is asked to set a value or to open an environment (`Demand`), any number of times and in
any order, while the process does whatever else it does. Up to the first open with a usable path
the builder collects what it is asked to set; that open hands the last value of each setting to the
engine, and all that is asked afterwards is refused (`Builder.opens_once`).
-/

namespace MappedStore

open Error (ofCode)

/-- What a user asks of a builder: to set a value, or to open an environment, perhaps with a mode
that overrides the one that is set. -/
inductive Demand where
  | setMapSize (size : Nat)
  | setMaxDbs (count : UInt32)
  | setMaxReaders (count : UInt32)
  | setMode (mode : UInt32)
  | openAt (path : Bytes) (flags : EnvFlags) (mode : Option UInt32) (kind : ViewKind)

namespace Demand

/-- The size of the map that a demand sets, if it does so. -/
def mapSize? : Demand → Option Nat
  | setMapSize size => some size
  | _ => none

/-- The number of named databases that a demand sets, if it does so. -/
def maxDbs? : Demand → Option UInt32
  | setMaxDbs count => some count
  | _ => none

/-- The number of reader slots that a demand sets, if it does so. -/
def maxReaders? : Demand → Option UInt32
  | setMaxReaders count => some count
  | _ => none

/-- The mode that a demand sets, if it does so. The mode of an open is not set, but used. -/
def mode? : Demand → Option UInt32
  | setMode mode => some mode
  | _ => none

/-- Whether a demand is an open with a path that can name a file. -/
def opens : Demand → Bool
  | openAt path _ _ _ => isUsablePath path
  | _ => false

/-- What a demand gives before the settings are taken: a setter succeeds, and an open with a path
that cannot name a file is refused. -/
def early : Demand → System → Outcome (Option EnvId)
  | openAt path _ _ _, system => system.fail (.invalidPath path)
  | _, system => system.done none

end Demand

/-- The last of the values that some demands set, or the value from before. -/
def lastSet {α : Type} (value? : Demand → Option α) (before : α) (demands : List Demand) : α :=
  (demands.filterMap value?).getLast?.getD before

/-- The settings after some demands: each has the last value that was set, or the one from
before. -/
def Config.after (config : Config) (demands : List Demand) : Config where
  mapSize := lastSet Demand.mapSize? config.mapSize demands
  maxDbs := lastSet Demand.maxDbs? config.maxDbs demands
  maxReaders := lastSet Demand.maxReaders? config.maxReaders demands
  mode := lastSet Demand.mode? config.mode demands

/-- Ask something of a builder. -/
def System.ask (system : System) (builder : Builder) : Demand → Builder × Outcome (Option EnvId)
  | .setMapSize size => configured (builder.setMapSize size)
  | .setMaxDbs count => configured (builder.setMaxDbs count)
  | .setMaxReaders count => configured (builder.setMaxReaders count)
  | .setMode mode => configured (builder.setMode mode)
  | .openAt path flags mode kind =>
      let (builder, outcome) := system.openEnvironment builder path flags mode kind
      (builder, outcome.map some)
where
  configured : Except Error Builder → Builder × Outcome (Option EnvId)
    | .ok builder => (builder, system.done none)
    | .error error => (builder, system.fail error)

namespace Builder

/-- What some demands give, one after the other, each made at a moment of a process. -/
def answers (builder : Builder) : List (System × Demand) → List (Outcome (Option EnvId))
  | [] => []
  | (system, demand) :: later =>
      (system.ask builder demand).2 :: (system.ask builder demand).1.answers later

/-- The builder that some demands leave. -/
def afterAll (builder : Builder) : List (System × Demand) → Builder
  | [] => builder
  | (system, demand) :: later => (system.ask builder demand).1.afterAll later

end Builder

/-- Whether a call opens an environment. -/
def Called.isOpening (called : Called) : Bool :=
  match called.call with
  | .openEnvironment .. => true
  | _ => false

/-- A path can name a file if it is not empty and has no NUL. -/
theorem isUsablePath_iff {path : Bytes} : isUsablePath path = true ↔ path ≠ [] ∧ 0 ∉ path := by
  simp [isUsablePath]

/-! ## The last values -/

/-- The last value of a setting is carried from one demand to the next. -/
theorem lastSet_cons {α : Type} (value? : Demand → Option α) (before : α) (demand : Demand)
    (demands : List Demand) : lastSet value? before (demand :: demands)
      = lastSet value? (lastSet value? before [demand]) demands := by
  unfold lastSet
  cases h : value? demand with
  | none => simp [h]
  | some value => simp [h, List.getLast?_cons]

/-- The settings are carried from one demand to the next. -/
theorem Config.after_cons (config : Config) (demand : Demand) (demands : List Demand) :
    config.after (demand :: demands) = (config.after [demand]).after demands := by
  simp only [Config.after, ← lastSet_cons]

/-! ## One demand -/

variable {system : System} {demand : Demand} {config : Config} {builder : Builder}
  {path : Bytes} {flags : EnvFlags} {mode : Option UInt32} {kind : ViewKind}

namespace System

/-- Until an open takes the settings, a demand changes them as it says, and calls nothing. -/
theorem ask_early (h : demand.opens = false) :
    system.ask ⟨some config⟩ demand
      = (⟨some (config.after [demand])⟩, demand.early system) := by
  cases demand with
  | openAt path flags mode kind =>
    replace h : isUsablePath path = false := h
    simp only [ask, openEnvironment, Builder.take, h]
    rfl
  | _ => rfl

/-- The first open with a usable path takes the settings. -/
theorem ask_open (h : isUsablePath path = true) :
    system.ask ⟨some config⟩ (.openAt path flags mode kind)
      = (⟨none⟩, (system.openWith path flags
          { config with mode := mode.getD config.mode } kind).map some) := by
  simp only [ask, openEnvironment, Builder.take, h]
  rfl

/-- Once the settings are taken, all demands are refused. -/
theorem ask_late (demand : Demand) :
    system.ask ⟨none⟩ demand = (⟨none⟩, system.fail .alreadyOpen) := by
  cases demand <;> rfl

/-- How an open ends that has reached the engine with some settings: it fails with the code that the
engine has returned, and what the engine has made is closed again, or there is one environment
more. -/
inductive OpenEnds (system : System) (path : Bytes) (flags : EnvFlags) (config : Config)
    (attempt : Outcome EnvId) : Prop where
  | failed {code : Code} (hengine : (Engine.openAt system.files path flags config).1 = .error code)
      (hcode : code ≠ 0) (hresult : attempt.result = .error (.error (ofCode code)))
      (hcalls : attempt.calls =
        [⟨system.environments.length, .openEnvironment path flags config, code⟩,
          ⟨system.environments.length, .closeEnvironment, 0⟩])
      (hstate : attempt.state = { system with files := attempt.state.files })
  | opened {environment : Environment}
      (hengine : (Engine.openAt system.files path flags config).1 = .ok environment.engine)
      (hresult : attempt.result = .ok system.environments.length)
      (hcalls : attempt.calls =
        [⟨system.environments.length, .openEnvironment path flags config, 0⟩])
      (henvironments : attempt.state.environments = system.environments ++ [environment])
      (htransactions : attempt.state.transactions = system.transactions)

/-- Every open that reaches the engine ends so. -/
theorem openWith_ends (path : Bytes) (flags : EnvFlags) (config : Config) (kind : ViewKind) :
    OpenEnds system path flags config (system.openWith path flags config kind) := by
  have houtcome := system.openWith_outcome path flags config kind
  generalize system.openWith path flags config kind = outcome at houtcome ⊢
  cases houtcome with
  | failed hopen =>
      exact .failed (congrArg Prod.fst hopen) (Engine.openAt_error hopen) rfl rfl rfl
  | opened hopen => exact .opened (congrArg Prod.fst hopen) rfl rfl rfl rfl

/-- An open reaches the engine once. -/
theorem OpenEnds.countP {attempt : Outcome EnvId} (h : OpenEnds system path flags config attempt) :
    attempt.calls.countP Called.isOpening = 1 := by
  cases h with
  | failed _ _ _ hcalls => rw [hcalls]; rfl
  | opened _ _ hcalls => rw [hcalls]; rfl

end System

/-! ## Many demands -/

namespace Builder

/-- Demands one after the other. -/
theorem answers_append (builder : Builder) (demands later : List (System × Demand)) :
    builder.answers (demands ++ later)
      = builder.answers demands ++ (builder.afterAll demands).answers later := by
  induction demands generalizing builder with
  | nil => rfl
  | cons demand rest ih => exact congrArg (_ :: ·) (ih _)

/-- What demands one after the other leave. -/
theorem afterAll_append (builder : Builder) (demands later : List (System × Demand)) :
    builder.afterAll (demands ++ later) = (builder.afterAll demands).afterAll later := by
  induction demands generalizing builder with
  | nil => rfl
  | cons demand rest ih => exact ih _

/-- Demands none of which takes the settings. -/
theorem run_early {demands : List (System × Demand)} (h : ∀ ask ∈ demands, ask.2.opens = false)
    (config : Config) :
    answers ⟨some config⟩ demands = demands.map (fun ask ↦ ask.2.early ask.1) ∧
      afterAll ⟨some config⟩ demands = ⟨some (config.after (demands.map Prod.snd))⟩ := by
  induction demands generalizing config with
  | nil => exact ⟨rfl, rfl⟩
  | cons ask rest ih =>
    obtain ⟨hfirst, hrest⟩ := List.forall_mem_cons.mp h
    -- the first demand only changes what the others start from
    obtain ⟨hanswers, hafter⟩ := ih hrest (config.after [ask.2])
    simp only [answers, afterAll, System.ask_early hfirst, hanswers, hafter, List.map_cons,
      ← Config.after_cons, and_self]

/-- Demands once the settings are taken. -/
theorem run_late (demands : List (System × Demand)) :
    answers ⟨none⟩ demands = demands.map (fun ask ↦ ask.1.fail .alreadyOpen) ∧
      afterAll ⟨none⟩ demands = ⟨none⟩ := by
  induction demands with
  | nil => exact ⟨rfl, rfl⟩
  | cons ask rest ih =>
    simp only [answers, afterAll, System.ask_late, ih, List.map_cons, and_self]

/-- Calls of some operations none of which has made one. -/
theorem flatMap_calls_eq_nil {demands : List (System × Demand)}
    {gives : System × Demand → Outcome (Option EnvId)} (h : ∀ ask, (gives ask).calls = []) :
    (demands.map gives).flatMap Outcome.calls = [] := by
  refine List.flatMap_eq_nil_iff.mpr fun outcome hmem ↦ ?_
  obtain ⟨ask, -, rfl⟩ := List.mem_map.mp hmem
  exact h ask

/-- What is given before the settings are taken calls nothing. -/
theorem calls_early (ask : System × Demand) : (ask.2.early ask.1).calls = [] := by
  cases ask.2 <;> rfl

/-- What a new builder gives, and what is left of it, if one of the demands is the first open with a
usable path. -/
theorem run_open {before : List (System × Demand)} (hbefore : ∀ ask ∈ before, ask.2.opens = false)
    (hpath : path ≠ [] ∧ 0 ∉ path) (later : List (System × Demand)) :
    let held := ({} : Config).after (before.map Prod.snd)
    let attempt := system.openWith path flags { held with mode := mode.getD held.mode } kind
    let demands := before ++ (system, .openAt path flags mode kind) :: later
    answers {} demands = before.map (fun ask ↦ ask.2.early ask.1) ++
        attempt.map some :: later.map (fun ask ↦ ask.1.fail .alreadyOpen) ∧
      afterAll {} demands = ⟨none⟩ ∧
      (answers {} demands).flatMap Outcome.calls = attempt.calls := by
  intro held attempt demands
  obtain ⟨hearly, hheld⟩ := run_early hbefore {}
  obtain ⟨hlate, hnone⟩ := run_late later
  have hask : system.ask ⟨some held⟩ (.openAt path flags mode kind)
      = (⟨none⟩, attempt.map some) :=
    System.ask_open (isUsablePath_iff.mpr hpath)
  have hanswers : answers {} demands = before.map (fun ask ↦ ask.2.early ask.1) ++
      attempt.map some :: later.map (fun ask ↦ ask.1.fail .alreadyOpen) := by
    rw [answers_append, hearly, hheld, answers, hask, hlate]
  refine ⟨hanswers, ?_, ?_⟩
  · rw [afterAll_append, hheld, afterAll, hask, hnone]
  · rw [hanswers, List.flatMap_append, List.flatMap_cons, flatMap_calls_eq_nil calls_early,
      flatMap_calls_eq_nil fun _ ↦ rfl, List.nil_append, List.append_nil]
    rfl

/-- A list of demands either has no open with a usable path, or it has a first one. -/
theorem first_open (demands : List (System × Demand)) :
    (∀ ask ∈ demands, ask.2.opens = false) ∨
      ∃ before system path flags mode kind later, (∀ ask ∈ before, ask.2.opens = false) ∧
        (path ≠ [] ∧ 0 ∉ path) ∧
        demands = before ++ (system, .openAt path flags mode kind) :: later := by
  induction demands with
  | nil => exact .inl nofun
  | cons ask rest ih =>
    obtain ⟨system, demand⟩ := ask
    cases hopens : demand.opens with
    | true =>
      cases demand with
      | openAt path flags mode kind =>
        have hpath := isUsablePath_iff.mp hopens
        exact .inr ⟨[], system, path, flags, mode, kind, rest, nofun, hpath, rfl⟩
      | _ => cases hopens
    | false =>
      rcases ih with hnone | ⟨before, moment, path, flags, mode, kind, later, hbefore, hpath, rfl⟩
      · exact .inl (List.forall_mem_cons.mpr ⟨hopens, hnone⟩)
      · exact .inr ⟨_ :: before, moment, path, flags, mode, kind, later,
          List.forall_mem_cons.mpr ⟨hopens, hbefore⟩, hpath, rfl⟩

/-- Whatever is asked of a new builder, in any order and at any moments of a process: as long as
there is no open with a path that is not empty and has no NUL, all setters succeed, all opens are
refused for their paths, the engine is not called, and the builder holds the last value of each
setting, or its default. The first such open hands just these to the engine, with the mode replaced
if it comes with one; it gives one environment more, or it fails with the code that the engine has
returned, closes what the engine has made, and leaves all environments and transactions as they
were. Either way the builder is opened for good and holds nothing, all that is asked of it later is
refused, and the engine has been asked to open an environment at most once. -/
theorem opens_once :
    (∀ demands : List (System × Demand), (∀ ask ∈ demands, ask.2.opens = false) →
      answers {} demands = demands.map (fun ask ↦ ask.2.early ask.1) ∧
        (afterAll {} demands).config = some (({} : Config).after (demands.map Prod.snd)) ∧
        (answers {} demands).flatMap Outcome.calls = []) ∧
      (∀ (before later : List (System × Demand)) system path flags mode kind,
        (∀ ask ∈ before, ask.2.opens = false) → path ≠ [] ∧ 0 ∉ path →
        let held := ({} : Config).after (before.map Prod.snd)
        let config := { held with mode := mode.getD held.mode }
        let attempt := system.openWith path flags config kind
        let demands := before ++ (system, .openAt path flags mode kind) :: later
        answers {} demands = before.map (fun ask ↦ ask.2.early ask.1) ++
            attempt.map some :: later.map (fun ask ↦ ask.1.fail .alreadyOpen) ∧
          (afterAll {} demands).config = none ∧ (afterAll {} demands).isOpened = true ∧
          (answers {} demands).flatMap Outcome.calls = attempt.calls ∧
          system.OpenEnds path flags config attempt) ∧
      ∀ demands : List (System × Demand),
        ((answers {} demands).flatMap Outcome.calls).countP Called.isOpening ≤ 1 := by
  refine ⟨fun demands hdemands ↦ ?_,
    fun before later system path flags mode kind hbefore hpath ↦ ?_, fun demands ↦ ?_⟩
  · obtain ⟨hanswers, hafter⟩ := run_early hdemands {}
    refine ⟨hanswers, congrArg Builder.config hafter, ?_⟩
    exact (congrArg _ hanswers).trans (flatMap_calls_eq_nil calls_early)
  · intro held config attempt demands
    obtain ⟨hanswers, hafter, hcalls⟩ := run_open hbefore hpath later
    refine ⟨hanswers, ?_, ?_, hcalls, System.openWith_ends path flags config kind⟩
    · rw [hafter]
    · rw [hafter]
      rfl
  -- The engine is called by the first open with a usable path, and by nothing before or after it.
  · rcases first_open demands with
      hnone | ⟨before, system, path, flags, mode, kind, later, hbefore, hpath, rfl⟩
    · have hcalls : (answers {} demands).flatMap Outcome.calls = [] :=
        (congrArg _ (run_early hnone {}).1).trans (flatMap_calls_eq_nil calls_early)
      rw [hcalls]
      exact Nat.zero_le 1
    · rw [(run_open hbefore hpath later).2.2]
      exact Nat.le_of_eq (System.openWith_ends path flags _ kind).countP

/-- A builder is asked twice for the size of the map, with a refused open in between, and then for
an open that fails as there is no such directory: the engine gets the later size and the mode of
that open, and the settings are gone. -/
theorem opens_once_missing :
    let missing := Bytes.ofText "$W/none"
    let demands := [(System.sample, Demand.setMapSize 4096),
      (System.sample, .openAt [] .empty none .default), (System.sample, .setMapSize 8192),
      (System.sample, .openAt missing .empty (some 0o640) .default), (System.sample, .setMaxDbs 3)]
    (answers {} demands).map (·.result) = [.ok none, .error (.error (.invalidPath [])), .ok none,
        .error (.error (.native 2)), .error (.error .alreadyOpen)] ∧
      (answers {} demands).flatMap Outcome.calls =
        [⟨1, .openEnvironment missing .empty { mapSize := 8192, mode := 0o640 }, 2⟩,
          ⟨1, .closeEnvironment, 0⟩] ∧
      (afterAll {} demands).isOpened = true := by
  intro missing demands
  obtain ⟨-, hopen, -⟩ := opens_once
  obtain ⟨hanswers, -, hopened, hcalls, -⟩ := hopen [(System.sample, Demand.setMapSize 4096),
    (System.sample, .openAt [] .empty none .default), (System.sample, .setMapSize 8192)]
    [(System.sample, .setMaxDbs 3)] System.sample missing .empty (some 0o640) .default
    (by decide) (by decide)
  refine ⟨?_, ?_, hopened⟩
  · rw [show answers {} demands = _ from hanswers]
    decide +kernel
  · rw [show (answers {} demands).flatMap Outcome.calls = _ from hcalls]
    decide +kernel

end Builder

end MappedStore
