import Mathlib.Data.List.Basic
import SceneLogic.Proofs.Project.Path
import SceneLogic.Proofs.Project.Scenes

/-!
# What a directory lists after an update

A directory lists what lies right below it, as far as a path leads there.  Writing a file
replaces what the directory lists under the name of the file, and nothing else.

## Main statements

* `FileTree.children_setNode` — what lies below a directory after an update.
* `FileTree.LeadsTo.listing_setNode` — what is listed after a file was written.
* `FileTree.WellFormed.nodup_listing` — no name is listed twice.
* `FileTree.find?_of_write` — what was written is found.
* `FileTree.createDirectories_join` — a missing directory is created below another.
-/

namespace SceneLogic

namespace FileTree

open Project

variable {tree : FileTree} {start place dir : Place} {path : String}

/-! ## Below a directory -/

theorem nameBelow?_eq_some {other : Place} {name : FileName} :
    nameBelow? dir other = some name ↔ other = dir ++ [name] := by
  unfold nameBelow?
  cases hlast : other.getLast? with
  | none =>
    rw [List.getLast?_eq_none_iff] at hlast
    simp [hlast]
  | some last =>
    dsimp only
    constructor
    · intro hsome
      split at hsome
      next heq =>
        cases hsome
        exact heq
      next => cases hsome
    · rintro rfl
      rw [List.getLast?_concat, Option.some.injEq] at hlast
      simp [hlast]

theorem mem_children {name : FileName} {node : Node} :
    (name, node) ∈ tree.children dir ↔ (dir ++ [name], node) ∈ tree.nodes := by
  simp only [children, List.mem_filterMap, Option.map_eq_some_iff, nameBelow?_eq_some,
    Prod.mk.injEq, Prod.exists]
  constructor
  · rintro ⟨_, _, hmem, _, rfl, rfl, rfl⟩
    exact hmem
  · intro hmem
    exact ⟨_, _, hmem, name, rfl, rfl, rfl⟩

/-- Putting something below a directory replaces what lies there under its name. -/
theorem children_setNode (dir : Place) (name : FileName) (node : Node) :
    (tree.setNode (dir ++ [name]) node).children dir = replace (name, node) (tree.children dir) := by
  have hname : nameBelow? dir (dir ++ [name]) = some name := nameBelow?_eq_some.2 rfl
  simp only [children, setNode, replace, List.filterMap_cons, hname, Option.map_some,
    List.filterMap_filter, List.filter_filterMap]
  congr 1
  apply List.filterMap_congr
  rintro ⟨other, found⟩ _
  cases hbelow : nameBelow? dir other with
  | none => simp
  | some below =>
    rw [nameBelow?_eq_some] at hbelow
    subst hbelow
    by_cases heq : below = name <;> simp [heq, Option.filter]

/-- What there is at a directory itself does not lie below it. -/
theorem children_setNode_self (dir : Place) (node : Node) :
    (tree.setNode dir node).children dir = tree.children dir := by
  have hself : nameBelow? dir dir = none := by
    rw [Option.eq_none_iff_forall_ne_some]
    intro name hname
    simpa using congrArg List.length (nameBelow?_eq_some.1 hname)
  simp only [children, setNode, List.filterMap_cons, hself, Option.map_none,
    List.filterMap_filter]
  apply List.filterMap_congr
  rintro ⟨other, found⟩ _
  by_cases heq : other = dir
  · simp [heq, hself]
  · simp [heq]

namespace WellFormed

/-- Only a directory has anything below it. -/
theorem children_eq_nil (htree : tree.WellFormed) (hdir : tree.nodeAt? dir ≠ some .directory) :
    tree.children dir = [] := by
  rw [List.eq_nil_iff_forall_not_mem]
  rintro ⟨name, node⟩ hmem
  have hparent := htree.parent _ (mem_children.1 hmem)
  rw [List.dropLast_concat] at hparent
  exact hdir hparent

theorem proper_of_mem_children (htree : tree.WellFormed) :
    ∀ entry ∈ tree.children dir, entry.1.Proper := by
  rintro ⟨name, node⟩ hmem
  exact htree.proper _ (mem_children.1 hmem) name (by simp)

theorem nodup_children (htree : tree.WellFormed) :
    ((tree.children dir).map (·.1)).Nodup := by
  have hplaces := htree.nodup
  rw [List.Nodup, List.pairwise_map] at hplaces ⊢
  rw [children, List.pairwise_filterMap]
  refine hplaces.imp ?_
  rintro ⟨place, node⟩ ⟨other, found⟩ hne entry hentry entry' hentry' heq
  simp only [Option.map_eq_some_iff, nameBelow?_eq_some] at hentry hentry'
  obtain ⟨name, rfl, rfl⟩ := hentry
  obtain ⟨name', rfl, rfl⟩ := hentry'
  exact hne (by rw [show name = name' from heq])

end WellFormed

/-! ## Listings -/

/-- What a directory lists under a name. -/
def listed? (tree : FileTree) (start : Place) (path : String) (entry : FileName × Node) :
    Option (FileName × Node) :=
  entry.1.spelling?.bind fun spelling =>
    (tree.find? start (Path.join path spelling)).map fun node => (entry.1, node)

theorem listing_eq (hdir : tree.locate start path = .ok dir) :
    tree.listing start path = (tree.children dir).filterMap (tree.listed? start path) := by
  rw [listing, hdir]
  apply List.filterMap_congr
  rintro ⟨name, node⟩ _
  simp only [listed?]
  cases name.spelling? with
  | none => rfl
  | some spelling => cases hfind : tree.find? start (Path.join path spelling) <;> simp [hfind]

theorem fst_of_listed? {entry file : FileName × Node}
    (hfile : tree.listed? start path entry = some file) : file.1 = entry.1 := by
  simp only [listed?, Option.bind_eq_some_iff, Option.map_eq_some_iff] at hfile
  obtain ⟨_, _, _, _, rfl⟩ := hfile
  rfl

theorem WellFormed.nodup_listing (htree : tree.WellFormed) :
    ((tree.listing start path).map (·.1)).Nodup := by
  cases hdir : tree.locate start path with
  | error _ => simp [listing, hdir]
  | ok dir =>
    have hchildren : ((tree.children dir).map (·.1)).Nodup := htree.nodup_children
    rw [List.Nodup, List.pairwise_map] at hchildren ⊢
    rw [listing_eq hdir, List.pairwise_filterMap]
    refine hchildren.imp ?_
    intro entry other hne file hfile found hfound
    rwa [fst_of_listed? hfile, fst_of_listed? hfound]

namespace LeadsTo

/-- Names below a path are found as before when something else changes next to them. -/
theorem find?_join_setNode (hpath : tree.LeadsTo start path dir) {name : FileName} {node : Node}
    (hfree : tree.nodeAt? (dir ++ [name]) ≠ some .directory) {other : String}
    (hother : (FileName.ofString other).Proper) (hne : FileName.ofString other ≠ name) :
    (tree.setNode (dir ++ [name]) node).find? start (Path.join path other) =
      tree.find? start (Path.join path other) := by
  have hplace : dir ++ [name] ≠ [] := by simp
  have hslash : '/' ∉ other.toList := fun hmem =>
    hother.slash_not_mem (FileName.slash_mem_ofString.2 hmem)
  have hafter : (tree.setNode (dir ++ [name]) node).LeadsTo start path dir :=
    hpath.setNode hplace hfree
  rw [find?, find?, hpath.locate_join hslash, hafter.locate_join hslash,
    enter_proper hpath.isDirectory hother, enter_proper hafter.isDirectory hother]
  cases Path.check (Path.join path other) with
  | error _ => rfl
  | ok _ =>
    by_cases hlong : FileName.maxLength < (FileName.ofString other).length
    · simp [hlong]
    · simp [hlong, nodeAt?_setNode hplace, hne]

/-- A file that is written below a path is listed under its name, and all else as before. -/
theorem listing_setNode (hpath : tree.LeadsTo start path dir)
    (hdir : tree.locate start path = .ok dir)
    (hproper : ∀ entry ∈ tree.children dir, entry.1.Proper) {name : String}
    (hname : tree.locate start (Path.join path name) = .ok (dir ++ [FileName.ofString name]))
    (hfree : tree.nodeAt? (dir ++ [FileName.ofString name]) ≠ some .directory) (node : Node) :
    (tree.setNode (dir ++ [FileName.ofString name]) node).listing start path =
      replace (FileName.ofString name, node) (tree.listing start path) := by
  have hplace : dir ++ [FileName.ofString name] ≠ [] := by simp
  have hnew : (tree.setNode (dir ++ [FileName.ofString name]) node).listed? start path
      (FileName.ofString name, node) = some (FileName.ofString name, node) := by
    simp [listed?, find?_setNode hplace hfree hname]
  rw [listing_eq (locate_setNode hplace hfree hdir), children_setNode, listing_eq hdir,
    replace, replace, List.filterMap_cons_some hnew, List.filterMap_filter, List.filter_filterMap]
  congr 1
  apply List.filterMap_congr
  rintro ⟨other, found⟩ hmem
  by_cases heq : other = FileName.ofString name
  · cases hlisted : tree.listed? start path (other, found) with
    | none => simp [heq]
    | some file => simp [heq, Option.filter, fst_of_listed? hlisted]
  · have hkept : (tree.setNode (dir ++ [FileName.ofString name]) node).listed? start path
        (other, found) = tree.listed? start path (other, found) := by
      cases hspelling : other.spelling? with
      | none => simp [listed?, hspelling]
      | some spelling =>
        have hbytes := FileName.ofString_of_spelling? hspelling
        have hotherProper : (FileName.ofString spelling).Proper := hbytes ▸ hproper _ hmem
        have hotherNe : FileName.ofString spelling ≠ FileName.ofString name := hbytes ▸ heq
        simp [listed?, hspelling, hpath.find?_join_setNode hfree hotherProper hotherNe]
    cases hlisted : tree.listed? start path (other, found) with
    | none => simp [heq, hkept, hlisted]
    | some file => simp [heq, hkept, hlisted, Option.filter, fst_of_listed? hlisted]

end LeadsTo

/-! ## Writing and creating -/

/-- What a successful write has done. -/
theorem exists_place_of_write {content : ByteArray} {written : FileTree}
    (hwrite : tree.write start path content = (.ok (), written)) :
    ∃ place, tree.locate start path = .ok place ∧ place ≠ [] ∧
      tree.nodeAt? place ≠ some .directory ∧ written = tree.setNode place (.file content) := by
  unfold write at hwrite
  split at hwrite
  · cases hwrite
  next place hplace =>
    split at hwrite
    · cases hwrite
    next hfree =>
      refine ⟨place, hplace, ?_, hfree, (congrArg Prod.snd hwrite).symm⟩
      rintro rfl
      exact hfree rfl

/-- What was written is found. -/
theorem find?_of_write {content : ByteArray} {written : FileTree}
    (hwrite : tree.write start path content = (.ok (), written)) :
    written.find? start path = some (.file content) := by
  obtain ⟨place, hlocate, hplace, hfree, rfl⟩ := exists_place_of_write hwrite
  rw [find?_setNode hplace hfree hlocate, if_pos rfl]

/-- Directories that there are need not be created. -/
theorem createAlong_append {parts : List (List Char)} (hparts : tree.follow place parts = .ok dir)
    (hdir : tree.nodeAt? dir = some .directory) (rest : List (List Char)) :
    tree.createAlong place (parts ++ rest) = tree.createAlong dir rest := by
  induction parts generalizing place with
  | nil =>
    cases hparts
    rfl
  | cons part parts ih =>
    rw [follow] at hparts
    rw [List.cons_append, createAlong]
    split at hparts
    · cases hparts
    next next henter =>
      have hnext := isDirectory_of_follow hparts hdir
      simp only [hnext]
      exact ih hparts

/-- A directory that is missing below a path is created there. -/
theorem LeadsTo.createDirectories_join (hpath : tree.LeadsTo start path dir) {name : String}
    (hslash : '/' ∉ name.toList) {place : Place}
    (hlocate : tree.locate start (Path.join path name) = .ok place)
    (hmissing : tree.nodeAt? place = none) :
    tree.createDirectories start (Path.join path name) =
      (.ok (), tree.setNode place .directory) := by
  have hjoin := hpath.locate_join hslash
  rw [hlocate] at hjoin
  unfold createDirectories
  cases hcheck : Path.check (Path.join path name) with
  | error _ => simp [hcheck] at hjoin
  | ok _ =>
    rw [hcheck] at hjoin
    have henter : tree.enter dir name.toList = .ok place := hjoin.symm
    dsimp only
    rw [Path.parts_join path hslash, Path.origin, Path.isAbsolute_join hpath.ne_empty,
      ← Path.origin, createAlong_append hpath.follow_eq hpath.isDirectory]
    simp only [createAlong, henter, hmissing]

/-! ## Trees stay well-formed -/

theorem wellFormed_empty : empty.WellFormed := by
  constructor <;> simp [empty]

/-- The names of what there is are proper. -/
theorem WellFormed.proper_of_nodeAt? (htree : tree.WellFormed) {node : Node}
    (hnode : tree.nodeAt? place = some node) : ∀ name ∈ place, name.Proper := by
  by_cases hroot : place = []
  · simp [hroot]
  · rw [nodeAt?, if_neg hroot] at hnode
    exact htree.proper (place, node) ((lookup_eq_some_iff_mem htree.nodup).1 hnode)

/-- Directories get new entries, under proper names. -/
theorem WellFormed.setNode (htree : tree.WellFormed)
    (hfree : tree.nodeAt? place ≠ some .directory)
    (hparent : tree.nodeAt? place.dropLast = some .directory)
    (hproper : ∀ name ∈ place, name.Proper) (node : Node) :
    (tree.setNode place node).WellFormed := by
  have hplace : place ≠ [] := by
    rintro rfl
    exact hfree rfl
  refine ⟨?_, ?_, ?_⟩
  · have hold : ((tree.nodes.filter (·.1 ≠ place)).map (·.1)).Nodup :=
      htree.nodup.sublist (List.filter_sublist.map _)
    rw [FileTree.setNode, List.map_cons, List.nodup_cons]
    exact ⟨by simp, hold⟩
  · intro entry hentry
    apply isDirectory_setNode hplace hfree
    rcases List.mem_cons.1 hentry with rfl | hold
    · exact hparent
    · exact htree.parent entry (List.mem_filter.1 hold).1
  · intro entry hentry
    rcases List.mem_cons.1 hentry with rfl | hold
    · exact hproper
    · exact htree.proper entry (List.mem_filter.1 hold).1

/-- What there is lies in a directory. -/
theorem WellFormed.isDirectory_dropLast (htree : tree.WellFormed) {node : Node}
    (hnode : tree.nodeAt? place = some node) : tree.nodeAt? place.dropLast = some .directory := by
  by_cases hroot : place = []
  · rw [hroot]
    rfl
  · rw [nodeAt?, if_neg hroot, lookup_eq_some_iff_mem htree.nodup] at hnode
    exact htree.parent _ hnode

/-- What is put where a part of a path leads lies in a directory, under a proper name. -/
theorem WellFormed.setNode_of_enter (htree : tree.WellFormed) {part : List Char}
    (hslash : '/' ∉ part) (henter : tree.enter dir part = .ok place)
    (hfree : tree.nodeAt? place ≠ some .directory) (node : Node) :
    (tree.setNode place node).WellFormed := by
  have hdir := isDirectory_of_enter henter
  simp only [enter, hdir] at henter
  split at henter
  next =>
    cases henter
    exact absurd hdir hfree
  next hhere =>
    split at henter
    next =>
      cases henter
      exact absurd (htree.isDirectory_dropLast hdir) hfree
    next hup =>
      split at henter
      · cases henter
      next =>
        cases henter
        have hne : ∀ text : String, part ≠ text.toList →
            FileName.ofString (String.ofList part) ≠ FileName.ofString text := by
          intro text hpart heq
          exact hpart (by rw [← FileName.ofString_injective heq, String.toList_ofList])
        have hproper : (FileName.ofString (String.ofList part)).Proper := by
          refine ⟨?_, hne "" ?_, hne "." ?_, hne ".." hup⟩
          · rwa [FileName.slash_mem_ofString, String.toList_ofList]
          · exact fun hempty => hhere (.inl hempty)
          · exact fun hdot => hhere (.inr hdot)
        refine htree.setNode hfree (by rwa [List.dropLast_concat]) ?_ node
        intro name hname
        rcases List.mem_append.1 hname with hname | hname
        · exact htree.proper_of_nodeAt? hdir name hname
        · rw [List.mem_singleton.1 hname]
          exact hproper

theorem WellFormed.createAlong (htree : tree.WellFormed) {parts : List (List Char)}
    (hparts : ∀ part ∈ parts, '/' ∉ part) (place : Place) :
    (tree.createAlong place parts).2.WellFormed := by
  induction parts generalizing tree place with
  | nil => exact htree
  | cons part parts ih =>
    rw [List.forall_mem_cons] at hparts
    rw [FileTree.createAlong]
    split
    · exact htree
    next next henter =>
      split
      · exact ih htree hparts.2 next
      · exact htree
      next hnone =>
        exact ih (htree.setNode_of_enter hparts.1 henter (by simp [hnone]) _) hparts.2 next

/-- Directories are created where a tree can have them. -/
theorem WellFormed.createDirectories (htree : tree.WellFormed) (start : Place) (path : String) :
    (tree.createDirectories start path).2.WellFormed := by
  unfold FileTree.createDirectories
  split
  · exact htree
  · exact htree.createAlong (fun part => Path.slash_not_mem_of_mem_splitSlashes) _

/-- Files are written where a tree can have them. -/
theorem WellFormed.write (htree : tree.WellFormed) (start : Place) (path : String)
    (content : ByteArray) : (tree.write start path content).2.WellFormed := by
  unfold FileTree.write
  split
  · exact htree
  next place hlocate =>
    split
    · exact htree
    next hfree =>
      obtain ⟨dir, part, hslash, henter⟩ := exists_enter_of_locate hlocate
      exact htree.setNode_of_enter hslash henter hfree _

end FileTree

end SceneLogic
