import MappedStore.Proofs.Settings
import MappedStore.Proofs.Engine.Copying

/-!
# Copies of environments

Only an empty directory can be the destination of a copy; whatever else a path leads to is refused
before the engine is reached (`Unfit`). A copy that succeeds leaves one file in the directory, and
an environment that is opened on it has all that was last committed (`System.copy_faithful`). A copy
that fails leaves everything as it was, but for one case: if the engine has no reader slot to give,
it finds out when it has made the file, and the directory is no destination any more
(`System.failed_copy`).
-/

namespace MappedStore

open Files (Enters Fits Location Proper Tree)

variable {system : System} {env : EnvId} {tree : Tree} {destination name path : Bytes}
  {directory : Location} {flags : CopyFlags} {thread : Nat}

/-! ## Destinations -/

/-- What is wrong with a path that is no empty directory. -/
inductive Unfit (tree : Tree) (destination : Bytes) : Error → Prop where
  | nul (hnul : 0 ∈ destination) : Unfit tree destination (.io .nulInName)
  | missing (hnul : 0 ∉ destination)
      (hlocate : tree.locate destination = .error SystemText.noEntry) :
      Unfit tree destination (.invalidCopyDestination destination .missing)
  | lookup {errno : Files.Errno} (hnul : 0 ∉ destination)
      (hlocate : tree.locate destination = .error errno) (hentry : errno ≠ SystemText.noEntry) :
      Unfit tree destination (.io (.system errno))
  | notDirectory {location : Location} {file : Files.File} (hnul : 0 ∉ destination)
      (hlocate : tree.locate destination = .ok (location, .file file)) :
      Unfit tree destination (.invalidCopyDestination destination .notDirectory)
  | notEmpty {location : Location} (hnul : 0 ∉ destination)
      (hlocate : tree.locate destination = .ok (location, .directory))
      (hchildren : tree.children location ≠ []) :
      Unfit tree destination (.invalidCopyDestination destination .notEmpty)

/-- A path leads to an empty directory. -/
structure Vacant (tree : Tree) (destination : Bytes) (directory : Location) : Prop where
  nul : 0 ∉ destination
  found : tree.locate destination = .ok (directory, .directory)
  empty : tree.children directory = []

/-- What is wrong with a destination is what is reported. -/
theorem copyFault_of_unfit {error : Error} (h : Unfit tree destination error) :
    copyFault tree destination = some error := by
  have hcontains : 0 ∉ destination → ¬destination.contains 0 = true := by simp
  unfold copyFault
  cases h with
  | nul hnul => rw [if_pos (by simpa using hnul)]
  | missing hnul hlocate => rw [if_neg (hcontains hnul), hlocate]; rfl
  | lookup hnul hlocate hentry =>
      rw [if_neg (hcontains hnul), hlocate]
      dsimp only
      rw [if_neg hentry]
  | notDirectory hnul hlocate => rw [if_neg (hcontains hnul), hlocate]
  | notEmpty hnul hlocate hchildren =>
      rw [if_neg (hcontains hnul), hlocate]
      dsimp only
      rw [if_neg (by simpa using hchildren)]

/-- Whatever a path leads to, it is an empty directory or something is wrong with it. -/
theorem unfit_or_vacant (tree : Tree) (destination : Bytes) :
    (∃ error, Unfit tree destination error) ∨ ∃ directory, Vacant tree destination directory := by
  by_cases hnul : 0 ∈ destination
  · exact .inl ⟨_, .nul hnul⟩
  cases hlocate : tree.locate destination with
  | error errno =>
      by_cases hentry : errno = SystemText.noEntry
      · exact .inl ⟨_, .missing hnul (hentry ▸ hlocate)⟩
      · exact .inl ⟨_, .lookup hnul hlocate hentry⟩
  | ok found =>
      obtain ⟨location, node⟩ := found
      cases node with
      | file file => exact .inl ⟨_, .notDirectory hnul hlocate⟩
      | directory =>
          by_cases hchildren : tree.children location = []
          · exact .inr ⟨location, hnul, hlocate, hchildren⟩
          · exact .inl ⟨_, .notEmpty hnul hlocate hchildren⟩

/-- A destination that nothing is wrong with is an empty directory. -/
theorem vacant_of_copyFault (h : copyFault tree destination = none) :
    ∃ directory, Vacant tree destination directory := by
  rcases unfit_or_vacant tree destination with ⟨error, hunfit⟩ | hvacant
  · rw [copyFault_of_unfit hunfit] at h
    cases h
  · exact hvacant

/-! ## Names -/

/-- Joining a name to a path of a directory leads into the directory. -/
theorem enters_joinPath (hname : Proper name) (destination : Bytes) :
    Enters destination name (joinPath destination name) := by
  unfold joinPath
  split
  · rename_i hslash
    obtain ⟨front, rfl⟩ : ∃ front, destination = front ++ [47] :=
      List.getLast?_eq_some_iff.mp hslash
    have henters := Enters.slash hname front
    refine ⟨hname, ?_, ?_⟩
    · rw [Files.components_append front [], List.append_assoc]
      simpa [Files.components] using henters.components
    · rw [List.append_assoc]
      exact henters.ending
  · exact .slash hname destination

/-- The last component of a path is its file name, if it is a proper name. -/
theorem fileName?_eq (hlast : (Files.components path).getLast? = some name) (hname : Proper name) :
    fileName? path = some name := by
  obtain ⟨front, hcomponents⟩ := List.getLast?_eq_some_iff.mp hlast
  unfold fileName?
  rw [hcomponents, List.filter_append, List.filter_cons_of_pos (by simpa using hname.notHere),
    List.filter_nil, List.getLast?_concat]
  simpa using hname.notAbove

/-- The name that a copy of an environment is given: that of the file, or that of a data file. -/
def Environment.NamesCopy (environment : Environment) (name : Bytes) : Prop :=
  if environment.flags.contains EnvFlags.noSubdir then
    (Files.components environment.path).getLast? = some name
  else name = Bytes.ofText "data.mdb"

/-- An environment and its engine agree on the layout, and the path of an environment that is a
single file ends in a proper name. -/
theorem Reachable.layout (h : Reachable system) (env : EnvId) :
    (system.engine env).flags.contains EnvFlags.noSubdir
        = (system.environment env).flags.contains EnvFlags.noSubdir ∧
      ((system.environment env).flags.contains EnvFlags.noSubdir = true →
        ∃ name, (Files.components (system.environment env).path).getLast? = some name ∧
          Proper name) := by
  have hupholds : system.Upholds fun path flags known ↦
      known.contains EnvFlags.noSubdir = flags.contains EnvFlags.noSubdir ∧
        (flags.contains EnvFlags.noSubdir = true →
          ∃ name, (Files.components path).getLast? = some name ∧ Proper name) :=
    h.upholds ⟨rfl, nofun⟩ fun hopen ↦
      ⟨Engine.contains_openAt rfl hopen, fun hlayout ↦ Engine.last_openAt hlayout hopen⟩
  exact hupholds env

/-- The name of a data file is proper. -/
theorem proper_dataName : Proper (Bytes.ofText "data.mdb") :=
  ⟨by decide, by decide, by decide, by decide⟩

/-- The name of a lock file is proper. -/
theorem proper_lockName : Proper (Bytes.ofText "lock.mdb") :=
  ⟨by decide, by decide, by decide, by decide⟩

/-- A name stays proper when it is turned into that of a lock file. -/
theorem proper_append_lock (hname : Proper name) : Proper (name ++ Bytes.ofText "-lock") := by
  -- the result is too long for one of the special names
  have hne : ∀ short : Bytes, short.length < 5 → name ++ Bytes.ofText "-lock" ≠ short := by
    rintro short hshort rfl
    rw [List.length_append] at hshort
    exact absurd (Nat.lt_of_le_of_lt (Nat.le_add_left _ _) hshort) (by decide)
  refine ⟨by simp [hname.nonempty], ?_, hne _ (by decide), hne _ (by decide)⟩
  rw [List.mem_append, not_or]
  exact ⟨hname.slash, by decide⟩

namespace Environment

/-- A copy has one name. -/
theorem NamesCopy.unique {environment : Environment} {other : Bytes}
    (h : environment.NamesCopy name) (hother : environment.NamesCopy other) : other = name := by
  unfold NamesCopy at h hother
  split at h
  · rename_i hlayout
    rw [if_pos hlayout, h] at hother
    exact (Option.some.inj hother).symm
  · rename_i hlayout
    rw [if_neg hlayout] at hother
    exact hother.trans h.symm

/-- Where a copy of an environment has its data file and its lock file. -/
theorem enters_copyTarget (environment : Environment)
    (hlast : environment.flags.contains EnvFlags.noSubdir = true →
      ∃ name, (Files.components environment.path).getLast? = some name ∧ Proper name)
    (destination : Bytes) :
    ∃ name lock, environment.NamesCopy name ∧ lock ≠ name ∧
      Enters destination name
        (Engine.dataPath (environment.copyTarget destination) environment.flags) ∧
      Enters destination lock
        (Engine.lockPath (environment.copyTarget destination) environment.flags) := by
  unfold NamesCopy copyTarget Engine.dataPath Engine.lockPath
  split
  · rename_i hlayout
    obtain ⟨name, hname, hproper⟩ := hlast hlayout
    have hlock : joinPath destination name ++ Bytes.ofText "-lock"
        = joinPath destination (name ++ Bytes.ofText "-lock") := by
      unfold joinPath
      split <;> simp
    rw [fileName?_eq hname hproper, Option.getD_some, hlock]
    exact ⟨name, _, hname, by simp [Bytes.ofText], enters_joinPath hproper destination,
      enters_joinPath (proper_append_lock hproper) destination⟩
  · exact ⟨_, Bytes.ofText "lock.mdb", rfl, by decide, .slash proper_dataName destination,
      .slash proper_lockName destination⟩

end Environment

/-! ## Copies -/

namespace System

/-- How a copy of an environment can end. -/
inductive CopyEnds (system : System) (env : EnvId) (destination : Bytes) (flags : CopyFlags)
    (thread : Nat) : Except Refusal Unit → System → Prop where
  | refused (refusal : Refusal) :
      CopyEnds system env destination flags thread (.error refusal) system
  | left {directory : Location} {name : Bytes} {condition : Condition}
      (hvacant : Vacant system.files destination directory)
      (hname : (system.environment env).NamesCopy name)
      (hclaim : (system.engine env).claimReader thread none = .error condition) :
      CopyEnds system env destination flags thread (.error (.error (.ofCode condition.code)))
        { system with
          files := system.files.place (directory ++ [name])
            (.file { mode := Files.masked 0o666 }) }
  | done {directory : Location} {name : Bytes} {engine : Engine}
      (hvacant : Vacant system.files destination directory)
      (hname : (system.environment env).NamesCopy name)
      (hfits : Fits (Engine.dataPath ((system.environment env).copyTarget destination)
        (system.environment env).flags))
      (haside : Engine.Aside (system.engine env) engine) :
      CopyEnds system env destination flags thread (.ok ())
        { system.setEngine env engine with
          files := system.files.place (directory ++ [name])
            (.file (Engine.fileOf (Files.masked 0o666) ((system.engine env).copiedImage flags))) }

/-- A copy is refused before the engine is reached, or it is made by the engine in an empty
directory. -/
theorem copy_eq (system : System) (env : EnvId) (destination : Bytes) (flags : CopyFlags)
    (thread : Nat) : (∃ refusal, system.copy env destination flags thread = ⟨.error refusal, [], system⟩) ∨
      ∃ directory result engine files, Vacant system.files destination directory ∧
        (system.engine env).copy system.files ((system.environment env).copyTarget destination)
          flags thread = (result, engine, files) ∧
        (system.copy env destination flags thread).result
          = result.mapError (fun code ↦ .error (.ofCode code)) ∧
        (system.copy env destination flags thread).state
          = { system.setEngine env engine with files := files } := by
  have houtcome := system.copy_outcome env destination flags thread
  generalize system.copy env destination flags thread = outcome at houtcome ⊢
  cases houtcome with
  | closed | unfit | unusable | waits => exact .inl ⟨_, rfl⟩
  | failed _ hfault hcopy | copied _ hfault hcopy =>
      obtain ⟨directory, hvacant⟩ := vacant_of_copyFault hfault
      exact .inr ⟨directory, _, _, _, hvacant, hcopy, rfl, rfl⟩

end System

/-- What a copy does to a process that has been reached. -/
theorem Reachable.copy (h : Reachable system) (env : EnvId) (destination : Bytes)
    (flags : CopyFlags) (thread : Nat) :
    System.CopyEnds system env destination flags thread
      (system.copy env destination flags thread).result
      (system.copy env destination flags thread).state := by
  rcases system.copy_eq env destination flags thread with
    ⟨refusal, hrefused⟩ | ⟨directory, result, engine, files, hvacant, hcopy, hresult, hstate⟩
  · rw [hrefused]
    exact .refused refusal
  obtain ⟨hlayout, hlast⟩ := h.layout env
  obtain ⟨name, lock, hname, -, henters, -⟩ :=
    (system.environment env).enters_copyTarget hlast destination
  -- the engine only passes the layout on to where the data file goes
  have hpath := Engine.dataPath_congr ((system.environment env).copyTarget destination)
    (((system.engine env).flags.contains_inter_self EnvFlags.noSubdir).trans hlayout)
  have hfree := Files.Tree.node?_of_children_eq_nil hvacant.empty name
  have hends := Engine.copy_cases (h.sound.anchored.roster env) flags thread
    hvacant.found (hpath ▸ henters) hfree
  rw [hcopy, hpath] at hends
  rw [hresult, hstate]
  cases hends with
  | refused code =>
      rw [System.setEngine_engine]
      exact .refused _
  | left hclaim =>
      rw [System.setEngine_engine]
      exact .left hvacant hname hclaim
  | done hfits haside => exact .done hvacant hname hfits haside

namespace System

/-- What is wrong with the destination is reported, and nothing else happens. -/
theorem copy_of_unfit {error : Error} (hopen : (system.environment env).closed = false)
    (hunfit : Unfit system.files destination error) :
    system.copy env destination flags thread = system.fail error := by
  have hfault := copyFault_of_unfit hunfit
  have houtcome := system.copy_outcome env destination flags thread
  generalize system.copy env destination flags thread = outcome at houtcome ⊢
  cases houtcome with
  | closed hclosed =>
      rw [hopen] at hclosed
      cases hclosed
  | unfit _ hother =>
      obtain rfl := Option.some.inj (hother.symm.trans hfault)
      rfl
  | unusable _ hnone | waits _ hnone | failed _ hnone | copied _ hnone =>
      rw [hfault] at hnone
      cases hnone

/-- A failed copy leaves the process as it was, as long as the engine has a reader slot to give. If
it has none, an empty file can stay behind in the directory, which is a destination no more. -/
theorem failed_copy (h : Reachable system) {error : Error}
    (hfailed : (system.copy env destination flags thread).result = .error (.error error)) :
    let left := (system.copy env destination flags thread).state
    (∀ slot, (system.engine env).claimReader thread none = .ok slot → left = system) ∧
      (left ≠ system → ∃ directory name condition,
        Vacant system.files destination directory ∧
        (system.environment env).NamesCopy name ∧
        (system.engine env).claimReader thread none = .error condition ∧
        (condition = .badRslot ∨ condition = .readersFull) ∧
        error = .ofCode condition.code ∧
        left = { system with
          files := system.files.place (directory ++ [name])
            (.file { mode := Files.masked 0o666 }) } ∧
        left.files.children directory = [name] ∧
        ∀ (later : System) (other : EnvId) (again : CopyFlags) (caller : Nat),
          later.files = left.files → (later.environment other).closed = false →
          later.copy other destination again caller
            = later.fail (.invalidCopyDestination destination .notEmpty)) := by
  have hends := h.copy env destination flags thread
  intro left
  revert hends
  rw [hfailed, show (system.copy env destination flags thread).state = left from rfl]
  generalize left = left
  intro hends
  cases hends with
  | refused => exact ⟨fun _ _ ↦ rfl, fun hleft ↦ absurd rfl hleft⟩
  | @left directory name condition hvacant hname hclaim =>
      have hchildren := Files.Tree.children_place hvacant.empty name
        (.file { mode := Files.masked 0o666 })
      have hfree := Files.Tree.node?_of_children_eq_nil hvacant.empty name
      refine ⟨fun slot hslot ↦ ?_, fun _ ↦ ⟨directory, name, condition, hvacant, hname, hclaim,
        Engine.condition_of_claimReader hclaim, rfl, rfl, hchildren, ?_⟩⟩
      · rw [hclaim] at hslot
        cases hslot
      · -- the file that was left is in the way
        intro later other again caller hfiles hopen
        have hunfit : Unfit later.files destination
            (.invalidCopyDestination destination .notEmpty) := by
          rw [hfiles]
          refine .notEmpty hvacant.nul (Files.locate_place hfree hvacant.found _) ?_
          simp [hchildren]
        exact copy_of_unfit hopen hunfit

/-- The path of an empty directory next to the environment of `sample`. -/
def sampleVacantPath : Bytes := Bytes.ofText "$W/c"

/-- The sample after a value was stored in its database and committed, and an empty directory was
made for copies. -/
def sampleVacant : System :=
  let written := sample.afterAll [.begin 0 none .empty mainThread,
    .put 1 sampleDatabase [107] [118] .empty, .commit 1]
  written.after (.changeFiles
    (written.files.place (Files.components sampleVacantPath) .directory))

/-- The sample with a directory for copies is reachable. -/
theorem sampleVacant_reachable : Reachable sampleVacant :=
  (sample_reachable.run (.all _ _)).act _

/-- The path of the directory fits, but not with the name of a data file after it: the engine fails
to make the file, and nothing has changed. While a reader is active a copy leaves its file behind,
and no process that finds it there can copy to the directory. -/
theorem failed_copy_sample :
    let path := sampleVacantPath ++ (List.replicate 2043 [47, 46]).flatten
    let reading := sampleVacant.after (.begin 0 none TxnFlags.readOnly mainThread)
    let left := (reading.copy 0 sampleVacantPath .empty mainThread).state
    (sampleVacant.copy 0 path .empty mainThread).result = .error (.error (.native 36)) ∧
      (sampleVacant.copy 0 path .empty mainThread).state = sampleVacant ∧
      (reading.copy 0 sampleVacantPath .empty mainThread).result
        = .error (.error (.engine .badRslot)) ∧
      ∀ (later : System) (again : CopyFlags) (caller : Nat), later.files = left.files →
        (later.environment 0).closed = false →
        later.copy 0 sampleVacantPath again caller
          = later.fail (.invalidCopyDestination sampleVacantPath .notEmpty) := by
  intro path reading left
  have hpath : (sampleVacant.copy 0 path .empty mainThread).result = .error (.error (.native 36)) := by
    decide +kernel
  have hreading : (reading.copy 0 sampleVacantPath .empty mainThread).result
      = .error (.error (.engine .badRslot)) := by decide +kernel
  obtain ⟨hunchanged, -⟩ := failed_copy sampleVacant_reachable hpath
  obtain ⟨-, hleft⟩ := failed_copy (sampleVacant_reachable.act _) hreading
  have hslot : ∃ slot, (sampleVacant.engine 0).claimReader mainThread none = .ok slot :=
    ⟨_, by rfl⟩
  obtain ⟨slot, hslot⟩ := hslot
  obtain ⟨-, -, -, -, -, -, -, -, -, -, hagain⟩ := hleft (by decide +kernel)
  subst left reading
  exact ⟨hpath, hunchanged slot hslot, hreading, fun later ↦ hagain later 0⟩

/-- A copy that fails because a reader is active on the thread leaves a file in the directory. When
the reader is gone, a copy to this directory is refused, which would have succeeded without the
failed one. -/
theorem failed_copy_leaves_file : ∃ (system : System) (destination : Bytes)
    (directory : Location) (reader : TxnId) (error : Error), Reachable system ∧
      Vacant system.files destination directory ∧
      (system.copy 0 destination .empty mainThread).result = .error (.error error) ∧
      (system.after (.copy 0 destination .empty mainThread)).files.children directory
        = [Bytes.ofText "data.mdb"] ∧
      (((system.after (.copy 0 destination .empty mainThread)).after (.drop reader)).copy 0
        destination .empty mainThread).result
        = .error (.error (.invalidCopyDestination destination .notEmpty)) ∧
      ((system.after (.drop reader)).copy 0 destination .empty mainThread).result = .ok () :=
  ⟨sampleVacant.after (.begin 0 none TxnFlags.readOnly mainThread), sampleVacantPath,
    Files.components sampleVacantPath, 2, .engine .badRslot, sampleVacant_reachable.act _,
    ⟨by decide +kernel, by decide +kernel, by decide +kernel⟩, by decide +kernel,
    by decide +kernel, by decide +kernel, by decide +kernel⟩

/-- A successful copy: the directory was empty and now has one file, nothing else in the file tree
has changed, and of the process only the reader slots of the engine can be different. An environment
that is opened on the file has all that was last committed, and it can be opened with settings that
fit. -/
structure Backup (system : System) (env : EnvId) (destination : Bytes) (flags : CopyFlags)
    (directory : Location) (name : Bytes) (left : System) : Prop where
  vacant : Vacant system.files destination directory
  named : (system.environment env).NamesCopy name
  content : left.files.children directory = [name]
  isFile : ∃ file, left.files.node? (directory ++ [name]) = some (.file file)
  others : ∀ place, place ≠ directory ++ [name] →
    left.files.node? place = system.files.node? place
  source : ∃ engine, Engine.Aside (system.engine env) engine ∧
    left = { system.setEngine env engine with files := left.files }
  restored : ∀ settings config kind copy,
    settings.contains EnvFlags.noSubdir
      = (system.environment env).flags.contains EnvFlags.noSubdir →
    (left.openWith ((system.environment env).copyTarget destination) settings config
      kind).result = .ok copy →
    ((left.openWith ((system.environment env).copyTarget destination) settings config
      kind).state.engine copy).image.snapshot = (system.engine env).image.snapshot
  opens : ∀ settings config kind,
    settings.contains EnvFlags.noSubdir
      = (system.environment env).flags.contains EnvFlags.noSubdir →
    config.maxReaders ≠ 0 → settings.isValid = true →
    (settings.contains EnvFlags.noLock = true ∨ (settings.contains EnvFlags.noSubdir = true →
      Fits (Engine.lockPath ((system.environment env).copyTarget destination) settings))) →
    Engine.chosenMapSize config.mapSize ((system.engine env).copiedImage flags)
      ≤ Engine.maxMapSize →
    ∃ copy, (left.openWith ((system.environment env).copyTarget destination) settings config
      kind).result = .ok copy

/-- The image in a copy has the snapshot that was last committed. -/
theorem snapshot_copiedImage (engine : Engine) (flags : CopyFlags) :
    (engine.copiedImage flags).snapshot = engine.image.snapshot := by
  unfold Engine.copiedImage
  split <;> rfl

/-- An environment is opened if the engine can open it, and has the engine that this gives. -/
theorem openWith_cases (system : System) (path : Bytes) (settings : EnvFlags) (config : Config)
    (kind : ViewKind) :
    (∃ code files, Engine.openAt system.files path settings config = (.error code, files) ∧
        (system.openWith path settings config kind).result = .error (.error (.ofCode code))) ∨
      ∃ engine files, Engine.openAt system.files path settings config = (.ok engine, files) ∧
        (system.openWith path settings config kind).result = .ok system.environments.length ∧
        (system.openWith path settings config kind).state.engine system.environments.length
          = engine := by
  have houtcome := system.openWith_outcome path settings config kind
  generalize system.openWith path settings config kind = outcome at houtcome ⊢
  cases houtcome with
  | @failed code files hopen => exact .inl ⟨code, files, hopen, rfl⟩
  | @opened engine files hopen =>
      refine .inr ⟨engine, files, hopen, rfl, ?_⟩
      simp [System.engine, environment, List.getD_eq_getElem?_getD]

/-- An environment has the image in its data file when it has been opened. -/
theorem image_openWith {lock : Bytes} {settings : EnvFlags} {config : Config} {kind : ViewKind}
    {mode : Nat} {image : Engine.Image} {opened : EnvId}
    (h : Engine.Lodged system.files path settings destination directory name lock
      (Engine.fileOf mode image))
    (hopened : (system.openWith path settings config kind).result = .ok opened) :
    ((system.openWith path settings config kind).state.engine opened).image = image := by
  rcases system.openWith_cases path settings config kind with
    ⟨code, files, -, hrefused⟩ | ⟨engine, files, hopen, hresult, hengine⟩
  · rw [hrefused] at hopened
    cases hopened
  · rw [hresult] at hopened
    obtain rfl := Except.ok.inj hopened
    rw [hengine]
    exact h.image_eq hopen

/-- With acceptable settings an environment can be opened if there is room for the map. -/
theorem openWith_of_lodged {lock : Bytes} {settings : EnvFlags} {config : Config}
    {mode : Nat} {image : Engine.Image}
    (h : Engine.Lodged system.files path settings destination directory name lock
      (Engine.fileOf mode image))
    (haccepted : Engine.Acceptable path settings config)
    (hroom : Engine.chosenMapSize config.mapSize image ≤ Engine.maxMapSize) (kind : ViewKind) :
    ∃ opened, (system.openWith path settings config kind).result = .ok opened := by
  obtain ⟨engine, files, hopen⟩ := h.opens haccepted hroom
  rcases system.openWith_cases path settings config kind with
    ⟨code, later, hrefused, -⟩ | ⟨other, later, -, hresult, -⟩
  · rw [hopen] at hrefused
    cases hrefused
  · exact ⟨_, hresult⟩

/-- The layout of a directory leaves room for the name of the lock file. -/
theorem fits_lockPath {settings : EnvFlags} (hlayout : settings.contains EnvFlags.noSubdir = false)
    (hfits : Fits (Engine.dataPath path settings)) : Fits (Engine.lockPath path settings) := by
  have hdata : Engine.dataPath path settings = path ++ 47 :: Bytes.ofText "data.mdb" :=
    if_neg (by simp [hlayout])
  have hlock : Engine.lockPath path settings = path ++ 47 :: Bytes.ofText "lock.mdb" := by
    rw [Engine.lockPath, hlayout]
    rfl
  have henters := Enters.slash proper_lockName path
  have hsame : (Bytes.ofText "data.mdb").length = (Bytes.ofText "lock.mdb").length := by decide
  have hlength := hfits.whole
  rw [hdata, List.length_append, List.length_cons, hsame] at hlength
  rw [hlock, henters.fits_iff, List.length_append, List.length_cons]
  exact ⟨hlength, by decide⟩

/-- A copy that the engine has made is a backup. -/
theorem CopyEnds.backup (h : Reachable system) {left : System}
    (hends : CopyEnds system env destination flags thread (.ok ()) left) :
    ∃ directory name, Backup system env destination flags directory name left := by
  generalize hresult : (Except.ok () : Except Refusal Unit) = result at hends
  cases hends with
  | refused => cases hresult
  | left => cases hresult
  | @done directory name engine hvacant hname hfits haside =>
      obtain ⟨-, hlast⟩ := h.layout env
      obtain ⟨other, lock, hother, hne, hdata, hlock⟩ :=
        (system.environment env).enters_copyTarget hlast destination
      obtain rfl := hname.unique hother
      have hfree := Files.Tree.node?_of_children_eq_nil hvacant.empty
      have hplaced : ∀ node, (system.files.place (directory ++ [other]) node).node?
          (directory ++ [other]) = some node := fun node ↦
        Files.Tree.node?_place_self _ _ (by simp)
      -- with the layout of the source, every environment finds the file
      have hlodged : ∀ settings : EnvFlags, settings.contains EnvFlags.noSubdir
          = (system.environment env).flags.contains EnvFlags.noSubdir →
          Engine.Lodged (system.files.place (directory ++ [other])
              (.file (Engine.fileOf (Files.masked 0o666) ((system.engine env).copiedImage flags))))
            ((system.environment env).copyTarget destination) settings destination directory other
            lock (Engine.fileOf (Files.masked 0o666) ((system.engine env).copiedImage flags)) := by
        intro settings hlayout
        refine Engine.Lodged.congr ⟨?_, hdata, hfits, hplaced _, hlock, ?_⟩ hlayout
        · exact Files.locate_place (hfree other) hvacant.found _
        · rw [Files.Tree.node?_place_of_ne _ _ (by simpa using hne)]
          exact hfree lock
      refine ⟨directory, other, hvacant, hname, Files.Tree.children_place hvacant.empty other _,
        ⟨_, hplaced _⟩, fun place hplace ↦ Files.Tree.node?_place_of_ne _ _ hplace,
        ⟨engine, haside, rfl⟩, ?_, ?_⟩
      · intro settings config kind copy hlayout hcopy
        rw [image_openWith (hlodged settings hlayout) hcopy, snapshot_copiedImage]
      · intro settings config kind hlayout hreaders hvalid hlock hroom
        refine openWith_of_lodged (hlodged settings hlayout) ⟨hreaders, hvalid, ?_⟩ hroom kind
        refine hlock.imp_right fun hlock ↦ ?_
        cases hsubdir : settings.contains EnvFlags.noSubdir with
        | false => exact fits_lockPath hsubdir (hlodged settings hlayout).fits
        | true => exact hlock hsubdir

/-- A copy goes to an empty directory or it is refused for what is wrong with its destination, and
then nothing happens at all. If it succeeds the directory holds a backup. -/
theorem copy_faithful (h : Reachable system) (hopen : (system.environment env).closed = false)
    (destination : Bytes) (flags : CopyFlags) (thread : Nat) :
    let outcome := system.copy env destination flags thread
    (∀ error, Unfit system.files destination error → outcome = system.fail error) ∧
      (∀ other call code, .call other call code ∈ outcome.events →
        ∃ directory, Vacant system.files destination directory) ∧
      (∀ place, outcome.state.files.node? place ≠ system.files.node? place →
        ∃ directory name, Vacant system.files destination directory ∧
          place = directory ++ [name]) ∧
      (outcome.result = .ok () →
        ∃ directory name, Backup system env destination flags directory name outcome.state) := by
  intro outcome
  have hends : CopyEnds system env destination flags thread outcome.result outcome.state :=
    h.copy env destination flags thread
  refine ⟨fun error hunfit ↦ copy_of_unfit hopen hunfit, ?_, ?_, ?_⟩
  · intro other call code hcall
    rcases system.copy_eq env destination flags thread with
      ⟨refusal, hrefused⟩ | ⟨directory, -, -, -, hvacant, -⟩
    · have hevents : outcome.events = [] := congrArg Outcome.events hrefused
      rw [hevents] at hcall
      cases hcall
    · exact ⟨directory, hvacant⟩
  -- Whatever becomes of the copy, at most the entry that it has made differs.
  · intro place hplace
    generalize outcome.result = result at hends
    generalize outcome.state = left at hends hplace
    have hentry : ∀ {location node}, (system.files.place location node).node? place
        ≠ system.files.node? place → place = location :=
      fun hchanged ↦ by_contra fun hne ↦ hchanged (Files.Tree.node?_place_of_ne _ _ hne)
    cases hends with
    | refused => exact absurd rfl hplace
    | @left directory name _ hvacant => exact ⟨directory, name, hvacant, hentry hplace⟩
    | @done directory name _ hvacant => exact ⟨directory, name, hvacant, hentry hplace⟩
  · intro hresult
    rw [hresult] at hends
    exact hends.backup h

/-- A copy of the sample is opened and has what was last committed. A path with nothing there is
refused. -/
theorem copy_faithful_sample :
    let copied := (sampleVacant.copy 0 sampleVacantPath CopyFlags.compact mainThread).state
    let missing := sampleVacantPath ++ [47, 120]
    copied.files.children (Files.components sampleVacantPath) = [Bytes.ofText "data.mdb"] ∧
      (∀ kind, ∃ copy,
        (copied.openWith sampleVacantPath .empty { maxReaders := 4 } kind).result = .ok copy ∧
        ((copied.openWith sampleVacantPath .empty { maxReaders := 4 } kind).state.engine
          copy).image.snapshot = (sampleVacant.engine 0).image.snapshot) ∧
      ((sampleVacant.engine 0).image.snapshot.table (Bytes.ofText "a")).find? [107]
        = some (.values [[118]] {}) ∧
      sampleVacant.copy 0 missing .empty mainThread
        = sampleVacant.fail (.invalidCopyDestination missing .missing) := by
  intro copied missing
  subst copied missing
  have hresult : (sampleVacant.copy 0 sampleVacantPath CopyFlags.compact mainThread).result
      = .ok () := by decide +kernel
  have htarget : (sampleVacant.environment 0).copyTarget sampleVacantPath = sampleVacantPath := by
    decide +kernel
  obtain ⟨-, -, -, hbackup⟩ := copy_faithful sampleVacant_reachable
    (by decide +kernel : (sampleVacant.environment 0).closed = false) sampleVacantPath
    CopyFlags.compact mainThread
  obtain ⟨hunfit, -⟩ := copy_faithful sampleVacant_reachable
    (by decide +kernel : (sampleVacant.environment 0).closed = false)
    (sampleVacantPath ++ [47, 120]) .empty mainThread
  obtain ⟨directory, name, hcopied⟩ := hbackup hresult
  have hdirectory : directory = Files.components sampleVacantPath := by
    have hfound : sampleVacant.files.locate sampleVacantPath
        = .ok (Files.components sampleVacantPath, .directory) := by decide +kernel
    rw [hcopied.vacant.found] at hfound
    exact (Prod.mk.inj (Except.ok.inj hfound)).1
  have hname : name = Bytes.ofText "data.mdb" := by
    have hnamed := hcopied.named
    rwa [Environment.NamesCopy, if_neg (by decide +kernel)] at hnamed
  refine ⟨?_, fun kind ↦ ?_, by decide +kernel, hunfit _ (.missing ?_ ?_)⟩
  · rw [← hdirectory, ← hname]
    exact hcopied.content
  · have hrestored := hcopied.restored .empty { maxReaders := 4 } kind
    have hopens := hcopied.opens .empty { maxReaders := 4 } kind (by decide +kernel)
      (by decide +kernel) (by decide +kernel) (.inr nofun) (by decide +kernel)
    rw [htarget] at hrestored hopens
    obtain ⟨copy, hcopy⟩ := hopens
    exact ⟨copy, hcopy, hrestored copy (by decide +kernel) hcopy⟩
  · decide +kernel
  · decide +kernel

end System

end MappedStore
