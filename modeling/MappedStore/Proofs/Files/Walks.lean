import Mathlib.Data.List.Basic
import MappedStore.Files.Tree

/-!
# Paths into directories

The walk along the components of a path as a relation (`Leads`). A path enters a directory at a name
if its components are those of a path of the directory and the name (`Enters`); it names the entry
with this name (`Enters.target`) and finds what lies there (`Enters.locate`). Something new does not
get into the way of paths that lead somewhere already (`locate_place`).
-/

namespace MappedStore.Files

variable {path destination name : Bytes} {names rest : List Bytes} {tree : Tree}
  {location start found directory : Location} {node : Node}

/-! ## Components -/

/-- The components on both sides of a slash. -/
theorem components_append (left right : Bytes) :
    components (left ++ 47 :: right) = components left ++ components right := by
  simp [components, List.splitOn_append_cons_self]

/-- What lies between slashes has none. -/
theorem slash_not_mem_splitOn (path : Bytes) : ∀ piece ∈ path.splitOn 47, 47 ∉ piece := by
  induction path with
  | nil => simp
  | cons first rest ih =>
      rw [List.splitOn_cons_eq_if_modifyHead]
      split
      · simpa using ih
      · rename_i hfirst
        cases hpieces : rest.splitOn 47 with
        | nil => exact absurd hpieces (List.splitOn_ne_nil _ _)
        | cons piece others =>
            -- the first byte joins the piece that the rest begins with
            rw [hpieces] at ih
            intro other hother
            rw [List.modifyHead_cons, List.mem_cons] at hother
            rcases hother with rfl | hother
            · have hpiece := ih piece List.mem_cons_self
              simp only [List.mem_cons, not_or]
              exact ⟨fun heq ↦ hfirst (by simp [heq]), hpiece⟩
            · exact ih other (List.mem_cons_of_mem _ hother)

/-- A name that a path can give to an entry of a directory. -/
structure Proper (name : Bytes) : Prop where
  nonempty : name ≠ []
  slash : 47 ∉ name
  notHere : name ≠ here
  notAbove : name ≠ above

/-- A component that is not one of the two special names is a proper name. -/
theorem proper_of_mem_components (h : name ∈ components path) (hhere : name ≠ here)
    (habove : name ≠ above) : Proper name := by
  obtain ⟨hpiece, hempty⟩ := List.mem_filter.mp h
  exact ⟨by simpa using hempty, slash_not_mem_splitOn path name hpiece, hhere, habove⟩

/-- A name without slashes is its only component. -/
theorem Proper.components (h : Proper name) : components name = [name] := by
  simp [Files.components, List.splitOn_eq_singleton h.slash, h.nonempty]

/-- A proper name does not end in a slash. -/
theorem Proper.getLast? (h : Proper name) : name.getLast? ≠ some 47 :=
  fun hlast ↦ h.slash (List.mem_of_getLast? hlast)

/-! ## Contents -/

namespace Tree

/-- What has been placed is found. -/
theorem node?_place_self (tree : Tree) (node : Node) (hlocation : location ≠ []) :
    (tree.place location node).node? location = some node := by
  simp [node?, place, hlocation]

/-- Other places are left as they were. -/
theorem node?_place_of_ne (tree : Tree) (node : Node) (hne : found ≠ location) :
    (tree.place location node).node? found = tree.node? found := by
  have hfilter : ∀ entries : List (Location × Node),
      (entries.filter (·.1 ≠ location)).lookup found = entries.lookup found := by
    intro entries
    induction entries with
    | nil => rfl
    | cons entry rest ih =>
        obtain ⟨place, other⟩ := entry
        by_cases hplace : place = location
        · have hother : (found == place) = false := by simpa [hplace] using hne
          rw [List.filter_cons_of_neg (by simp [hplace]), ih, List.lookup_cons, hother]
        · rw [List.filter_cons_of_pos (by simp [hplace]), List.lookup_cons, List.lookup_cons, ih]
  have hother : (found == location) = false := by simpa using hne
  simp only [node?, place, List.lookup_cons, hother, hfilter]

/-- Something new leaves what was there. -/
theorem node?_place_of_some (hnew : tree.node? location = none) {there other : Node}
    (hfound : tree.node? found = some there) :
    (tree.place location other).node? found = some there := by
  rwa [node?_place_of_ne]
  rintro rfl
  rw [hnew] at hfound
  cases hfound

/-- What is placed last stays. -/
theorem place_place (tree : Tree) (location : Location) (first second : Node) :
    (tree.place location first).place location second = tree.place location second := by
  simp [place, List.filter_filter]

/-- Nothing lies in an empty directory. -/
theorem node?_of_children_eq_nil (hempty : tree.children directory = []) (name : Bytes) :
    tree.node? (directory ++ [name]) = none := by
  rw [children, List.filterMap_eq_nil_iff] at hempty
  have hlookup : tree.entries.lookup (directory ++ [name]) = none := by
    rw [List.lookup_eq_none_iff]
    intro entry hentry
    refine bne_iff_ne.mpr fun heq ↦ ?_
    have hnone := hempty entry hentry
    simp [← heq] at hnone
  simp [node?, hlookup]

/-- The only entry of a directory that was empty. -/
theorem children_place (hempty : tree.children directory = []) (name : Bytes) (node : Node) :
    (tree.place (directory ++ [name]) node).children directory = [name] := by
  rw [children, List.filterMap_eq_nil_iff] at hempty
  have hothers : (tree.entries.filter (·.1 ≠ directory ++ [name])).filterMap (fun entry ↦
      if entry.1.length = directory.length + 1 && directory.isPrefixOf entry.1
      then entry.1.getLast? else none) = [] :=
    List.filterMap_eq_nil_iff.mpr fun entry hentry ↦ hempty entry (List.mem_filter.mp hentry).1
  rw [children, place, List.filterMap_cons, hothers]
  simp

end Tree

/-! ## Walks -/

/-- A walk that arrives. It ends at a file only with its last component. -/
inductive Leads (tree : Tree) : Location → List Bytes → Location → Prop where
  | done (start : Location) : Leads tree start [] start
  | stay {start found : Location} {rest : List Bytes} (h : Leads tree start rest found) :
      Leads tree start (here :: rest) found
  | up {start found : Location} {rest : List Bytes} (h : Leads tree start.dropLast rest found) :
      Leads tree start (above :: rest) found
  | down {start found : Location} {name : Bytes} {rest : List Bytes} (hhere : name ≠ here)
      (habove : name ≠ above) (hlength : name.length ≤ maxNameLength)
      (hnode : tree.node? (start ++ [name]) = some .directory)
      (h : Leads tree (start ++ [name]) rest found) : Leads tree start (name :: rest) found
  | arrive {start : Location} {name : Bytes} {file : File} (hhere : name ≠ here)
      (habove : name ≠ above) (hlength : name.length ≤ maxNameLength)
      (hnode : tree.node? (start ++ [name]) = some (.file file)) :
      Leads tree start [name] (start ++ [name])

/-- A walk that arrives is followed to where it leads. -/
theorem Leads.walk (h : Leads tree start names found) : tree.walk start names = .ok found := by
  induction h with
  | done => rfl
  | stay h ih => simpa [Tree.walk] using ih
  | up h ih => simpa [Tree.walk, above, here] using ih
  | down hhere habove hlength hnode h ih =>
      simpa only [Tree.walk, if_neg hhere, if_neg habove, if_neg (Nat.not_lt.mpr hlength), hnode]
        using ih
  | arrive hhere habove hlength hnode =>
      simp only [Tree.walk, if_neg hhere, if_neg habove, if_neg (Nat.not_lt.mpr hlength), hnode,
        List.isEmpty_nil, if_true]

/-- A walk that can be followed arrives. -/
theorem leads_of_walk (h : tree.walk start names = .ok found) : Leads tree start names found := by
  induction names generalizing start with
  | nil =>
      obtain rfl := Except.ok.inj h
      exact .done start
  | cons name rest ih =>
      unfold Tree.walk at h
      split at h
      · rename_i hhere
        subst hhere
        exact .stay (ih h)
      rename_i hhere
      split at h
      · rename_i habove
        subst habove
        exact .up (ih h)
      rename_i habove
      split at h
      · cases h
      rename_i hlength
      split at h
      · cases h
      · rename_i hnode
        exact .down hhere habove (Nat.not_lt.mp hlength) hnode (ih h)
      · rename_i file hnode
        split at h
        · rename_i hrest
          obtain rfl := Except.ok.inj h
          rw [List.isEmpty_iff.mp hrest]
          exact .arrive hhere habove (Nat.not_lt.mp hlength) hnode
        · cases h

/-- A walk goes on from the directory that its first part leads to. -/
theorem Leads.append {last : Location} (h : Leads tree start names found)
    (hfound : tree.node? found = some .directory) (hrest : Leads tree found rest last) :
    Leads tree start (names ++ rest) last := by
  induction h with
  | done => exact hrest
  | stay h ih => exact .stay (ih hfound hrest)
  | up h ih => exact .up (ih hfound hrest)
  | down hhere habove hlength hnode h ih =>
      exact .down hhere habove hlength hnode (ih hfound hrest)
  | arrive hhere habove hlength hnode =>
      rw [hnode] at hfound
      cases hfound

/-- To stay in place at the end makes no difference to where a walk leads. -/
theorem Leads.of_here {last : List Bytes} (h : Leads tree start last found)
    (hlast : last = names ++ [here]) : Leads tree start names found := by
  induction h generalizing names with
  | done => simp at hlast
  | stay h ih =>
      cases names with
      | nil =>
          obtain rfl : _ = [] := (List.cons.inj hlast).2
          exact h
      | cons name names =>
          obtain ⟨rfl, hrest⟩ := List.cons.inj hlast
          exact .stay (ih hrest)
  | up h ih =>
      cases names with
      | nil => simp [here, above] at hlast
      | cons name names =>
          obtain ⟨rfl, hrest⟩ := List.cons.inj hlast
          exact .up (ih hrest)
  | down hhere habove hlength hnode h ih =>
      cases names with
      | nil => exact absurd (List.cons.inj hlast).1 hhere
      | cons name names =>
          obtain ⟨rfl, hrest⟩ := List.cons.inj hlast
          exact .down hhere habove hlength hnode (ih hrest)
  | arrive hhere habove hlength hnode =>
      cases names with
      | nil => exact absurd (List.cons.inj hlast).1 hhere
      | cons name names => simp at hlast

/-- Something new at a place where nothing was leaves walks as they were. -/
theorem Leads.place (h : Leads tree start names found) (hnew : tree.node? location = none)
    (node : Node) : Leads (tree.place location node) start names found := by
  induction h with
  | done start => exact .done start
  | stay h ih => exact .stay ih
  | up h ih => exact .up ih
  | down hhere habove hlength hnode h ih =>
      exact .down hhere habove hlength (Tree.node?_place_of_some hnew hnode) ih
  | arrive hhere habove hlength hnode =>
      exact .arrive hhere habove hlength (Tree.node?_place_of_some hnew hnode)

/-- A path names what its components lead to; one that ends in a slash stays in place at the end. -/
theorem locate_eq_ok_iff :
    tree.locate path = .ok (found, node) ↔
      path ≠ [] ∧ path.length ≤ maxPathLength ∧
        Leads tree [] (components path ++ if path.getLast? = some 47 then [here] else []) found ∧
        tree.node? found = some node := by
  constructor
  · intro h
    unfold Tree.locate at h
    split at h
    · cases h
    rename_i hempty
    split at h
    · cases h
    rename_i hlength
    split at h
    · cases h
    rename_i place hwalk
    split at h
    · rename_i there hnode
      obtain ⟨rfl, rfl⟩ := Prod.mk.inj (Except.ok.inj h)
      exact ⟨by simpa using hempty, Nat.not_lt.mp hlength, leads_of_walk hwalk, hnode⟩
    · cases h
  · rintro ⟨hempty, hlength, hleads, hnode⟩
    unfold Tree.locate
    rw [if_neg (by simpa using hempty), if_neg (Nat.not_lt.mpr hlength), hleads.walk]
    dsimp only
    rw [hnode]

/-- A path of a directory leads to it component by component. -/
theorem leads_of_locate (h : tree.locate path = .ok (directory, .directory)) :
    Leads tree [] (components path) directory ∧ tree.node? directory = some .directory := by
  obtain ⟨-, -, hleads, hnode⟩ := locate_eq_ok_iff.mp h
  split at hleads
  · exact ⟨hleads.of_here rfl, hnode⟩
  · exact ⟨by rwa [List.append_nil] at hleads, hnode⟩

/-- Something new at a place where nothing was leaves what paths name. -/
theorem locate_place (hnew : tree.node? location = none)
    (h : tree.locate path = .ok (found, node)) (other : Node) :
    (tree.place location other).locate path = .ok (found, node) := by
  obtain ⟨hempty, hlength, hleads, hnode⟩ := locate_eq_ok_iff.mp h
  exact locate_eq_ok_iff.mpr ⟨hempty, hlength, hleads.place hnew other,
    Tree.node?_place_of_some hnew hnode⟩

/-- A walk that ends at a file has the name of the file as its last component. -/
theorem Leads.last {file : File} (h : Leads tree start names found)
    (hstart : ∀ place, place <+: start → tree.node? place = some .directory)
    (hfile : tree.node? found = some (.file file)) :
    ∃ name, names.getLast? = some name ∧ name ≠ here ∧ name ≠ above := by
  -- by induction on the walk; all places on the way are directories, so it cannot end on one
  have hlast : ∀ {first : Bytes} {rest : List Bytes},
      (∃ name, rest.getLast? = some name ∧ name ≠ here ∧ name ≠ above) →
        ∃ name, (first :: rest).getLast? = some name ∧ name ≠ here ∧ name ≠ above := by
    rintro first rest ⟨name, hname, hproper⟩
    exact ⟨name, by simp [List.getLast?_cons, hname], hproper⟩
  induction h with
  | done start =>
      rw [hstart start (List.prefix_refl start)] at hfile
      cases hfile
  | stay h ih => exact hlast (ih hstart hfile)
  | up h ih =>
      refine hlast (ih (fun place hplace ↦ hstart place ?_) hfile)
      exact hplace.trans (List.dropLast_prefix _)
  | down hhere habove hlength hnode h ih =>
      refine hlast (ih (fun place hplace ↦ ?_) hfile)
      rcases List.prefix_concat_iff.mp hplace with rfl | hbefore
      · exact hnode
      · exact hstart place hbefore
  | arrive hhere habove hlength hnode => exact ⟨_, rfl, hhere, habove⟩

/-- A path that names a file ends in a proper name. -/
theorem last_of_locate {file : File} (h : tree.locate path = .ok (found, .file file)) :
    ∃ name, (components path).getLast? = some name ∧ Proper name := by
  obtain ⟨-, -, hleads, hnode⟩ := locate_eq_ok_iff.mp h
  obtain ⟨name, hname, hhere, habove⟩ := hleads.last
    (fun place hplace ↦ by rw [List.prefix_nil.mp hplace]; rfl) hnode
  split at hname
  · -- after a slash the walk would end in place
    rw [List.getLast?_concat] at hname
    exact absurd (Option.some.inj hname).symm hhere
  · rw [List.append_nil] at hname
    exact ⟨name, hname, proper_of_mem_components (List.mem_of_getLast? hname) hhere habove⟩

/-- So does a path that names a place with no directory. -/
theorem last_of_target {lying : Option Node} (h : tree.target path = .ok (found, lying))
    (hlying : lying ≠ some .directory) :
    ∃ name, (components path).getLast? = some name ∧ Proper name := by
  unfold Tree.target at h
  split at h
  · cases h
  split at h
  · cases h
  split at h
  · cases h
  split at h
  · cases h
    exact absurd rfl hlying
  rename_i name hname
  split at h
  · cases h
    exact absurd rfl hlying
  rename_i hhere
  split at h
  · cases h
    exact absurd rfl hlying
  rename_i habove
  exact ⟨name, hname, proper_of_mem_components (List.mem_of_getLast? hname) hhere habove⟩

/-- So does a path at which a file has been opened for writing. -/
theorem last_of_openOrCreate {mode : Nat} {file : File} {later : Tree}
    (h : tree.openOrCreate path mode = (.ok (found, file), later)) :
    ∃ name, (components path).getLast? = some name ∧ Proper name := by
  unfold Tree.openOrCreate at h
  split at h
  · cases h
  · cases h
  · exact last_of_target (by assumption) (by simp)
  · exact last_of_target (by assumption) (by simp)

/-! ## Entries -/

/-- A path into a directory at a name. -/
structure Enters (destination name path : Bytes) : Prop where
  proper : Proper name
  components : components path = components destination ++ [name]
  ending : path.getLast? ≠ some 47

/-- A path that is not too long, and does not end in a name that is too long. -/
structure Fits (path : Bytes) : Prop where
  whole : path.length ≤ maxPathLength
  last : ∀ name, (components path).getLast? = some name → name.length ≤ maxNameLength

namespace Enters

/-- A path of the directory, a slash and the name. -/
theorem slash (hname : Proper name) (destination : Bytes) :
    Enters destination name (destination ++ 47 :: name) where
  proper := hname
  components := by rw [components_append, hname.components]
  ending := by
    rw [List.getLast?_append_of_ne_nil _ (List.cons_ne_nil _ _),
      List.getLast?_cons_of_ne_nil hname.nonempty]
    exact hname.getLast?

/-- A path into a directory is not empty. -/
theorem ne_nil (h : Enters destination name path) : path ≠ [] := by
  rintro rfl
  have hcomponents := h.components
  simp [Files.components] at hcomponents

/-- A path into a directory ends in the name. -/
theorem last (h : Enters destination name path) :
    (Files.components path).getLast? = some name := by
  rw [h.components, List.getLast?_concat]

/-- A path into a directory fits if neither the path nor the name is too long. -/
theorem fits_iff (h : Enters destination name path) :
    Fits path ↔ path.length ≤ maxPathLength ∧ name.length ≤ maxNameLength := by
  refine ⟨fun hfits ↦ ⟨hfits.whole, hfits.last name h.last⟩, fun hfits ↦ ⟨hfits.1, ?_⟩⟩
  intro last hlast
  rw [h.last] at hlast
  obtain rfl := Option.some.inj hlast
  exact hfits.2

variable (h : Enters destination name path)
  (hdirectory : tree.locate destination = .ok (directory, .directory))

include h hdirectory

/-- The place that a path into a directory names. -/
theorem target (hfits : Fits path) :
    tree.target path = .ok (directory ++ [name], tree.node? (directory ++ [name])) := by
  obtain ⟨hpath, hname⟩ := h.fits_iff.mp hfits
  obtain ⟨hleads, hnode⟩ := leads_of_locate hdirectory
  have hthere := (hleads.append hnode (.stay (.done _))).walk
  unfold Tree.target
  rw [if_neg (by simpa using h.ne_nil), if_neg (Nat.not_lt.mpr hpath), h.components,
    List.dropLast_concat, hthere, List.getLast?_concat]
  dsimp only
  rw [if_neg h.proper.notHere, if_neg h.proper.notAbove, if_neg (Nat.not_lt.mpr hname)]

/-- A path into a directory that does not fit names no place. -/
theorem target_of_not_fits (hfits : ¬Fits path) :
    tree.target path = .error SystemText.nameTooLong := by
  rw [h.fits_iff, not_and_or, Nat.not_le, Nat.not_le] at hfits
  obtain ⟨hleads, hnode⟩ := leads_of_locate hdirectory
  have hthere := (hleads.append hnode (.stay (.done _))).walk
  unfold Tree.target
  rw [if_neg (by simpa using h.ne_nil)]
  by_cases hpath : path.length > maxPathLength
  · rw [if_pos hpath]
  · rw [if_neg hpath, h.components, List.dropLast_concat, hthere, List.getLast?_concat]
    dsimp only
    rw [if_neg h.proper.notHere, if_neg h.proper.notAbove, if_pos (hfits.resolve_left hpath)]

/-- What a path into a directory names, if something lies there. -/
theorem locate (hfits : Fits path) (hnode : tree.node? (directory ++ [name]) = some node) :
    tree.locate path = .ok (directory ++ [name], node) := by
  obtain ⟨hpath, hname⟩ := h.fits_iff.mp hfits
  obtain ⟨hleads, htop⟩ := leads_of_locate hdirectory
  have hentry : Leads tree directory [name] (directory ++ [name]) := by
    cases node with
    | directory => exact .down h.proper.notHere h.proper.notAbove hname hnode (.done _)
    | file file => exact .arrive h.proper.notHere h.proper.notAbove hname hnode
  refine locate_eq_ok_iff.mpr ⟨h.ne_nil, hpath, ?_, hnode⟩
  rw [if_neg h.ending, List.append_nil, h.components]
  exact hleads.append htop hentry

/-- A file is opened for writing where a path into a directory leads to it. -/
theorem openOrCreate_of_file {file : File} (hfits : Fits path) (mode : Nat)
    (hnode : tree.node? (directory ++ [name]) = some (.file file)) :
    tree.openOrCreate path mode = (.ok (directory ++ [name], file), tree) := by
  rw [Tree.openOrCreate, h.target hdirectory hfits, hnode]
  dsimp only
  rw [if_neg h.ending]

/-- A file is created where a path into a directory leads and nothing is. -/
theorem openOrCreate_of_none (hfits : Fits path) (mode : Nat)
    (hnode : tree.node? (directory ++ [name]) = none) :
    tree.openOrCreate path mode =
      (.ok (directory ++ [name], { mode := mode }),
        tree.place (directory ++ [name]) (.file { mode := mode })) := by
  rw [Tree.openOrCreate, h.target hdirectory hfits, hnode]
  dsimp only
  rw [if_neg h.ending]

end Enters

end MappedStore.Files
