import MappedStore.Proofs.Engine.Turns
import MappedStore.Proofs.Files.Walks

/-!
# Copies in the engine

A copy into an empty directory creates its file first and then takes a reader slot (`copy_cases`).
If there is no slot to take the empty file stays behind; otherwise the file receives the committed
image. An environment that is opened on such a file has this image (`Lodged.image_eq`), and with
acceptable settings it can be opened (`Lodged.opens`).
-/

namespace MappedStore.Engine

open Files (Enters File Fits Location Tree)

variable {engine after : Engine} {tree files : Tree} {destination name lock path : Bytes}
  {directory location : Location} {flags known : EnvFlags} {config : Config} {image : Image}
  {file : File} {mode capacity : Nat}

/-! ## Paths of files -/

/-- The layout decides where the data file of an environment is. -/
theorem dataPath_congr (path : Bytes)
    (h : known.contains EnvFlags.noSubdir = flags.contains EnvFlags.noSubdir) :
    dataPath path known = dataPath path flags := by
  rw [dataPath, dataPath, h]

/-- The layout decides where the lock file of an environment is. -/
theorem lockPath_congr (path : Bytes)
    (h : known.contains EnvFlags.noSubdir = flags.contains EnvFlags.noSubdir) :
    lockPath path known = lockPath path flags := by
  rw [lockPath, lockPath, h]

/-- The path of an environment that is a single file ends in the name of the file. -/
theorem last_openAt (hlayout : flags.contains EnvFlags.noSubdir = true)
    (h : openAt tree path flags config = (.ok engine, files)) :
    ∃ name, (Files.components path).getLast? = some name ∧ Files.Proper name := by
  unfold openAt at h
  split at h
  · cases h
  split at h
  · have hpath : dataPath path (flags.minus EnvFlags.writeMap) = path :=
      if_pos ((flags.contains_minus rfl).trans hlayout)
    unfold openReadOnly at h
    rw [hpath] at h
    split at h
    · cases h
    · rename_i location node hlocate
      dsimp only at h
      split at h
      · cases h
      · cases h
      · exact Files.last_of_locate hlocate
  · have hpath : dataPath path flags = path := if_pos hlayout
    unfold openWritable at h
    rw [hpath] at h
    dsimp only at h
    split at h
    · cases h
    · split at h
      · cases h
      · rename_i hopen
        exact Files.last_of_openOrCreate hopen

/-! ## Data files -/

/-- A meta page at an offset passes its check. -/
theorem checkMeta_of_page {front back : Bytes} {number : UInt8} {offset : Nat}
    (hhead : file.head = front ++ (metaHeader number ++ back)) (hfront : front.length = offset)
    (hsize : offset + metaSize ≤ file.size) : checkMeta file offset = .ok () := by
  have hdrop : ∀ start, start ≤ 24 →
      file.head.drop (offset + start) = (metaHeader number).drop start ++ back := by
    intro start hstart
    rw [hhead, ← hfront, List.drop_length_add_append, List.drop_append_of_le_length hstart]
  have hmark : ((metaHeader number).drop 10 ++ back).take 2 = [8, 0] := rfl
  have hmagic : ((metaHeader number).drop 16 ++ back).take 4 = [0xde, 0xc0, 0xef, 0xbe] := rfl
  have hversion : ((metaHeader number).drop 20 ++ back).take 4 = [1, 0, 0, 0] := rfl
  unfold checkMeta wordAt
  rw [if_neg (Nat.not_lt.mpr hsize), hdrop 10 (by decide), hdrop 16 (by decide),
    hdrop 20 (by decide), hmark, hmagic, hversion]
  rfl

/-- The length of a meta page. -/
theorem length_metaPage (number : UInt8) : (metaPage number).length = pageSize := by
  have hheader : (metaHeader number).length ≤ pageSize := by
    show 24 ≤ pageSize
    decide
  rw [metaPage, List.length_append, List.length_replicate, Nat.add_sub_cancel' hheader]

/-- The image is read back from the file that holds it. -/
theorem readImage_fileOf (mode : Nat) (image : Image) :
    readImage (fileOf mode image) = .ok (some image) := by
  have hsize : pageSize + metaSize ≤ (fileOf mode image).size := by
    simp only [fileOf, Image.lastPage, pageSize, metaSize]
    omega
  have hhead : (fileOf mode image).head = [] ++ (metaHeader 0
      ++ (List.replicate (pageSize - (metaHeader 0).length) 0 ++ metaPage 1)) :=
    List.append_assoc _ _ _
  have hfirst : checkMeta (fileOf mode image) 0 = .ok () :=
    checkMeta_of_page hhead List.length_nil (by omega)
  have hsecond : checkMeta (fileOf mode image) pageSize = .ok () :=
    checkMeta_of_page (by rfl) (length_metaPage 0) hsize
  have hpages : (fileOf mode image).size ≠ 0 := by
    have hpositive : 0 < pageSize := by decide
    omega
  simp only [readImage, if_neg hpages, hfirst, hsecond]
  rfl
/-! ## Copies -/

/-- No slot for a reader is had if all are taken or the thread reads already. -/
theorem condition_of_claimReader {thread : Nat} {owned : Option Nat} {condition : Condition}
    (h : engine.claimReader thread owned = .error condition) :
    condition = .badRslot ∨ condition = .readersFull := by
  unfold claimReader at h
  split at h
  · cases h
  split at h
  · cases h
    exact .inl rfl
  · cases h
    exact .inr rfl
  · cases h

/-- What a copy to an entry of an empty directory can do. -/
inductive Copied (engine : Engine) (tree : Tree) (path : Bytes) (entry : Location)
    (flags : CopyFlags) (thread : Nat) : Except Code Unit × Engine × Tree → Prop where
  | refused (code : Code) : Copied engine tree path entry flags thread (.error code, engine, tree)
  | left {condition : Condition} (hclaim : engine.claimReader thread none = .error condition) :
      Copied engine tree path entry flags thread
        (.error condition.code, engine,
          tree.place entry (.file { mode := Files.masked 0o666 }))
  | done {after : Engine} (hfits : Fits path) (haside : Aside engine after) :
      Copied engine tree path entry flags thread
        (.ok (), after,
          tree.place entry (.file (fileOf (Files.masked 0o666) (engine.copiedImage flags))))

/-- A copy creates its file, takes a reader slot and then writes the committed image. -/
theorem copy_cases (h : Roster engine) (flags : CopyFlags) (thread : Nat)
    (hdirectory : tree.locate destination = .ok (directory, .directory))
    (henters : Enters destination name (dataPath path (engine.flags.inter EnvFlags.noSubdir)))
    (hfree : tree.node? (directory ++ [name]) = none) :
    Copied engine tree (dataPath path (engine.flags.inter EnvFlags.noSubdir)) (directory ++ [name])
      flags thread (engine.copy tree path flags thread) := by
  have haside := copy_aside h tree path flags thread
  revert haside
  unfold copy Tree.createNew
  by_cases hfits : Fits (dataPath path (engine.flags.inter EnvFlags.noSubdir))
  · simp only [henters.target hdirectory hfits, hfree]
    unfold beginRead
    rcases claimReader_cases engine thread none with ⟨condition, hclaim⟩ | ⟨reader, readers, hclaim⟩
    · rw [hclaim]
      exact fun _ ↦ .left hclaim
    · rw [hclaim]
      intro haside
      dsimp only at haside ⊢
      rw [Tree.place_place]
      exact .done hfits haside
  · simp only [henters.target_of_not_fits hdirectory hfits]
    exact fun _ ↦ .refused _

/-! ## Reopening -/

/-- A directory in which an environment has its data file, but no lock file. -/
structure Lodged (tree : Tree) (path : Bytes) (flags : EnvFlags) (destination : Bytes)
    (directory : Location) (name lock : Bytes) (file : File) : Prop where
  found : tree.locate destination = .ok (directory, .directory)
  data : Enters destination name (dataPath path flags)
  fits : Fits (dataPath path flags)
  holds : tree.node? (directory ++ [name]) = some (.file file)
  side : Enters destination lock (lockPath path flags)
  free : tree.node? (directory ++ [lock]) = none

/-- The same directory, whatever else the settings say. -/
theorem Lodged.congr (h : Lodged tree path flags destination directory name lock file)
    (hlayout : known.contains EnvFlags.noSubdir = flags.contains EnvFlags.noSubdir) :
    Lodged tree path known destination directory name lock file where
  found := h.found
  data := dataPath_congr path hlayout ▸ h.data
  fits := dataPath_congr path hlayout ▸ h.fits
  holds := h.holds
  side := lockPath_congr path hlayout ▸ h.side
  free := h.free

/-- A lock file is created where none is, unless its path is too long. -/
theorem openLock_of_none (hdirectory : tree.locate destination = .ok (directory, .directory))
    (henters : Enters destination lock path) (hfree : tree.node? (directory ++ [lock]) = none)
    (mode readers : Nat) :
    (¬Fits path ∧ ∃ errno, openLock tree path mode readers = (.error errno, tree)) ∨
      (Fits path ∧ ∃ other, openLock tree path mode readers =
        (.ok readers, tree.place (directory ++ [lock]) (.file other))) := by
  by_cases hfits : Fits path
  · have hsize : 0 < lockSize readers := by
      unfold lockSize
      omega
    refine .inr ⟨hfits, ?_⟩
    rw [openLock, henters.openOrCreate_of_none hdirectory hfits mode hfree]
    dsimp only
    rw [if_pos hsize, Tree.place_place]
    exact ⟨_, rfl⟩
  · refine .inl ⟨hfits, SystemText.nameTooLong, ?_⟩
    rw [openLock, Tree.openOrCreate, henters.target_of_not_fits hdirectory hfits]

/-- The lock file is done without, or created next to the data file, or its path is too long. -/
theorem Lodged.locked (h : Lodged tree path flags destination directory name lock file)
    (mode readers : Nat) {locked : Except Files.Errno Nat × Tree}
    (hlocked : locked = if flags.contains EnvFlags.noLock then (.ok readers, tree)
      else openLock tree (lockPath path flags) mode readers) :
    (¬(flags.contains EnvFlags.noLock = true ∨ Fits (lockPath path flags)) ∧
        ∃ errno, locked = (.error errno, tree)) ∨
      (flags.contains EnvFlags.noLock = true ∨ Fits (lockPath path flags)) ∧
        ∃ later, locked = (.ok readers, later) ∧
          later.locate destination = .ok (directory, .directory) ∧
          later.node? (directory ++ [name]) = some (.file file) := by
  subst hlocked
  split
  · rename_i hnoLock
    exact .inr ⟨.inl hnoLock, tree, rfl, h.found, h.holds⟩
  rename_i hlock
  rcases openLock_of_none h.found h.side h.free mode readers with
    ⟨hfits, errno, hopen⟩ | ⟨hfits, other, hopen⟩
  · exact .inl ⟨not_or.mpr ⟨hlock, hfits⟩, errno, hopen⟩
  · exact .inr ⟨.inr hfits, _, hopen, Files.locate_place h.free h.found _,
      Tree.node?_place_of_some h.free h.holds⟩

/-- Settings that the engine takes, with a path for the lock file that it can use. -/
structure Acceptable (path : Bytes) (flags : EnvFlags) (config : Config) : Prop where
  readers : config.maxReaders ≠ 0
  valid : flags.isValid = true
  lock : flags.contains EnvFlags.noLock = true ∨ Fits (lockPath path flags)

/-- An environment is opened on the data file that lies in its directory, if the settings are
acceptable. -/
theorem Lodged.openAt (h : Lodged tree path flags destination directory name lock file)
    (config : Config) :
    (¬Acceptable path flags config ∧
        ∃ code files, Engine.openAt tree path flags config = (.error code, files)) ∨
      Acceptable path flags config ∧
        ∃ later known, Engine.openAt tree path flags config =
          start later (directory ++ [name]) file config known config.maxReaders.toNat := by
  unfold Engine.openAt
  by_cases hreaders : config.maxReaders = 0
  · exact .inl ⟨fun haccepted ↦ haccepted.readers hreaders, _, _, if_pos (by simp [hreaders])⟩
  by_cases hvalid : flags.isValid = true
  swap
  · exact .inl ⟨fun haccepted ↦ hvalid haccepted.valid, _, _, if_pos (by simp [hvalid])⟩
  rw [if_neg (by simp [hreaders, hvalid])]
  split
  · -- for reading, the data file is found before the lock file is made
    have hlayout : (flags.minus EnvFlags.writeMap).contains EnvFlags.noSubdir
        = flags.contains EnvFlags.noSubdir := flags.contains_minus rfl
    have hnoLock : (flags.minus EnvFlags.writeMap).contains EnvFlags.noLock
        = flags.contains EnvFlags.noLock := flags.contains_minus rfl
    have hknown := h.congr hlayout
    unfold openReadOnly
    rw [hknown.data.locate hknown.found hknown.fits hknown.holds]
    rcases hknown.locked (Files.masked config.mode.toNat) config.maxReaders.toNat rfl with
      ⟨hlock, errno, hlocked⟩ | ⟨hlock, later, hlocked, -, -⟩
    · dsimp only
      rw [hlocked]
      rw [hnoLock, lockPath_congr path hlayout] at hlock
      exact .inl ⟨fun haccepted ↦ hlock haccepted.lock, _, _, rfl⟩
    · dsimp only
      rw [hlocked]
      rw [hnoLock, lockPath_congr path hlayout] at hlock
      exact .inr ⟨⟨hreaders, hvalid, hlock⟩, _, _, rfl⟩
  · unfold openWritable
    rcases h.locked (Files.masked config.mode.toNat) config.maxReaders.toNat rfl with
      ⟨hlock, errno, hlocked⟩ | ⟨hlock, later, hlocked, hfound, hholds⟩
    · dsimp only
      rw [hlocked]
      exact .inl ⟨fun haccepted ↦ hlock haccepted.lock, _, _, rfl⟩
    · dsimp only
      rw [hlocked]
      dsimp only
      rw [h.data.openOrCreate_of_file hfound h.fits _ hholds]
      exact .inr ⟨⟨hreaders, hvalid, hlock⟩, _, _, rfl⟩

/-- A map that fits the address space can be made. -/
theorem mapFault_eq_none {size : Nat} (h : size ≤ maxMapSize) (flags : EnvFlags) :
    mapFault flags size = none := by
  have hwide : ¬size ≥ UInt64.size / 2 := by
    have hbound : maxMapSize < UInt64.size / 2 := by decide
    omega
  rw [mapFault, if_neg (by simp [hwide]), if_neg (Nat.not_lt.mpr h)]

/-- An engine starts with the image in its data file, if it starts. -/
theorem image_start
    (h : start tree location (fileOf mode image) config known capacity = (.ok engine, files)) :
    engine.image = image := by
  unfold start at h
  rw [readImage_fileOf] at h
  dsimp only at h
  split at h
  · cases h
  · cases h
    rfl

/-- An engine starts on the file that holds an image if there is room for the map. -/
theorem start_fileOf (hroom : chosenMapSize config.mapSize image ≤ maxMapSize) :
    ∃ engine, start tree location (fileOf mode image) config known capacity = (.ok engine, tree) := by
  unfold start
  rw [readImage_fileOf]
  dsimp only
  rw [mapFault_eq_none hroom]
  exact ⟨_, rfl⟩

variable (h : Lodged tree path flags destination directory name lock (fileOf mode image))

include h

/-- An environment has the image in its data file when it has been opened. -/
theorem Lodged.image_eq (hopen : Engine.openAt tree path flags config = (.ok engine, files)) :
    engine.image = image := by
  rcases h.openAt config with ⟨-, code, files, hrefused⟩ | ⟨-, later, known, hstart⟩
  · rw [hrefused] at hopen
    cases hopen
  · rw [hstart] at hopen
    exact image_start hopen

/-- With acceptable settings an environment can be opened if there is room for the map. -/
theorem Lodged.opens (haccepted : Acceptable path flags config)
    (hroom : chosenMapSize config.mapSize image ≤ maxMapSize) :
    ∃ engine files, Engine.openAt tree path flags config = (.ok engine, files) := by
  rcases h.openAt config with ⟨hrefused, -⟩ | ⟨-, later, known, hstart⟩
  · exact absurd haccepted hrefused
  · obtain ⟨engine, hengine⟩ := start_fileOf hroom
    exact ⟨engine, later, hstart.trans hengine⟩

end MappedStore.Engine
