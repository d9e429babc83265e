import SceneLogic.Proofs.Event.Symbol
import SceneLogic.Proofs.Project.Listing

/-!
# Saving in the directory of a project

Where a path leads to a directory with a manifest, the path of its scenes leads to one and
the same place, whether anything is there or not, and a saved scene goes to a file right
below that place.  So saving a scene leaves the manifest as it is, and puts the file in the
place of the one of its name among the scene files.

## Main definitions

* `Project.sceneFile` — the name of the file in which a scene is saved.
* `FileTree.ReachesScenes` — a path leads to a directory, and the path of its scenes into it.
* `FileTree.IsProject` — a path leads to a directory with a manifest.
* `FileTree.withDirectory` — the tree in which the directory of scenes is there.

## Main statements

* `FileTree.ReachesScenes.find?_scenePath_eq_some_iff` — what is found at the path of a scene.
* `FileTree.ReachesScenes.saveScene_eq` — a scene is saved by writing its file.
* `FileTree.source_saveScene` — what a project consists of after a scene was saved.
-/

namespace SceneLogic

/-! ## The name of a saved file -/

namespace Project

/-- The name of the file in which a scene is saved. -/
def sceneFile (name : String) : FileName := FileName.ofString (mangleName name ++ sceneEnding)

theorem isSceneName_sceneFile (name : String) : isSceneName (sceneFile name) = true := by
  have hspelling : (sceneFile name).spelling?.isSome = true := by simp [sceneFile]
  have hsuffix : FileName.ofString sceneEnding <:+ sceneFile name := by
    rw [sceneFile, FileName.ofString_append]
    exact List.suffix_append _ _
  rw [isSceneName, hspelling, Bool.true_and, List.isSuffixOf_iff_suffix]
  exact hsuffix

theorem slash_not_mem_sceneFile (name : String) :
    '/' ∉ (mangleName name ++ sceneEnding).toList := by
  rw [String.toList_append, List.mem_append, not_or]
  constructor
  · intro hmem
    rcases mem_mangleName hmem with h | h <;> revert h <;> decide
  · decide

theorem proper_sceneFile (name : String) : (sceneFile name).Proper := by
  have hlong : 2 < (sceneFile name).length := by
    have hending : (FileName.ofString sceneEnding).length = 11 := by decide
    rw [sceneFile, FileName.ofString_append, List.length_append]
    omega
  have hne : ∀ other : FileName, other.length ≤ 2 → sceneFile name ≠ other := by
    rintro other hother rfl
    omega
  exact ⟨fun hmem => slash_not_mem_sceneFile name (FileName.slash_mem_ofString.1 hmem),
    hne _ (by decide), hne _ (by decide), hne _ (by decide)⟩

theorem proper_scenesName : (FileName.ofString scenesName).Proper := by
  constructor <;> decide

theorem proper_manifestName : (FileName.ofString manifestName).Proper := by
  constructor <;> decide

end Project

/-! ## The directory of a project -/

namespace FileTree

open Project

variable {tree saved : FileTree} {start place dir below : Place} {project : String}
  {layout : Layout} {files : List (FileName × Node)}

/-- The place of the directory of scenes of a project. -/
def scenesPlace (dir : Place) : Place := dir ++ [FileName.ofString scenesName]

/-- A path leads to a directory, and is short enough for that of its scenes. -/
structure ReachesScenes (tree : FileTree) (start : Place) (project : String) (dir : Place) :
    Prop where
  leadsTo : tree.LeadsTo start project dir
  check_eq : Path.check (scenesPath project) = .ok ()

/-- A path leads to a directory with a manifest. -/
structure IsProject (tree : FileTree) (start : Place) (project : String) (dir : Place) : Prop where
  leadsTo : tree.LeadsTo start project dir
  found : (tree.find? start project).isSome = true
  manifest : (tree.find? start (Path.join project manifestName)).isSome = true

theorem mapError_eq_ok {result : Except AccessError α} {value : α} :
    result.mapError LoadError.inaccessible = .ok value ↔ result = .ok value := by
  cases result <;> simp [Except.mapError]

theorem exists_locate_of_find? {path : String} (hfound : (tree.find? start path).isSome = true) :
    ∃ place, tree.locate start path = .ok place := by
  rw [find?] at hfound
  split at hfound
  · cases hfound
  next place hplace => exact ⟨place, hplace⟩

theorem check_of_locate {path : String} (hplace : tree.locate start path = .ok place) :
    Path.check path = .ok () := by
  rw [locate] at hplace
  split at hplace
  · cases hplace
  next hcheck => exact hcheck

theorem exists_isProject (hfound : (tree.find? start project).isSome = true)
    (hmanifest : (tree.find? start (Path.join project manifestName)).isSome = true) :
    ∃ dir, tree.IsProject start project dir := by
  obtain ⟨_, hproject⟩ := exists_locate_of_find? hfound
  have hne : project ≠ "" := (Path.check_eq_ok.1 (check_of_locate hproject)).2.2
  obtain ⟨_, hplace⟩ := exists_locate_of_find? hmanifest
  obtain ⟨dir, hdir, -⟩ := exists_leadsTo_of_locate hne (by decide) hplace
  exact ⟨dir, hdir, hfound, hmanifest⟩

/-- An update leaves something where there was something. -/
theorem isSome_find?_setNode (hplace : place ≠ []) (hfree : tree.nodeAt? place ≠ some .directory)
    {path : String} {node : Node} (hfound : (tree.find? start path).isSome = true) :
    ((tree.setNode place node).find? start path).isSome = true := by
  obtain ⟨final, hlocate⟩ := exists_locate_of_find? hfound
  rw [find?_setNode hplace hfree hlocate]
  split
  · rfl
  · exact hfound

namespace ReachesScenes

theorem locate_scenesPath (h : tree.ReachesScenes start project dir) :
    tree.locate start (scenesPath project) = .ok (scenesPlace dir) := by
  rw [scenesPath, h.leadsTo.locate_join (by decide), ← scenesPath, h.check_eq]
  dsimp only
  rw [enter_proper h.leadsTo.isDirectory proper_scenesName, if_neg (by decide), scenesPlace]

theorem find?_scenesPath (h : tree.ReachesScenes start project dir) :
    tree.find? start (scenesPath project) = tree.nodeAt? (scenesPlace dir) := by
  rw [find?, h.locate_scenesPath]

/-- Only in a directory of scenes does the path of a scene lead anywhere. -/
theorem isDirectory_of_locate (h : tree.ReachesScenes start project dir) {name : String}
    (hlocate : tree.locate start (scenePath project name) = .ok place) :
    tree.nodeAt? (scenesPlace dir) = some .directory := by
  obtain ⟨stem, hstem⟩ := Path.exists_stem project
  have hne : scenesPath project ≠ "" := by simp [scenesPath, hstem, scenesName]
  obtain ⟨scenes, hscenes, -⟩ := exists_leadsTo_of_locate hne (slash_not_mem_sceneFile name) hlocate
  have hfollow := hscenes.follow_eq
  rw [scenesPath, Path.lead_join project (by decide) (by decide), Path.origin,
    Path.isAbsolute_join h.leadsTo.ne_empty, ← Path.origin,
    follow_append_of_ok h.leadsTo.follow_eq, follow_singleton,
    enter_proper h.leadsTo.isDirectory proper_scenesName, if_neg (by decide)] at hfollow
  rw [scenesPlace, Except.ok.inj hfollow]
  exact hscenes.isDirectory

/-- The path of a scene leads to its file, as long as neither is too long. -/
theorem locate_scenePath (h : tree.ReachesScenes start project dir)
    (hdirectory : tree.nodeAt? (scenesPlace dir) = some .directory) {name : String} :
    tree.locate start (scenePath project name) = .ok place ↔
      Path.check (scenePath project name) = .ok () ∧
        (sceneFile name).length ≤ FileName.maxLength ∧
        scenesPlace dir ++ [sceneFile name] = place := by
  have hscenes : tree.LeadsTo start (scenesPath project) (scenesPlace dir) :=
    h.leadsTo.join proper_scenesName (by decide) hdirectory
  rw [scenePath, hscenes.locate_join (slash_not_mem_sceneFile name), ← scenePath]
  cases Path.check (scenePath project name) with
  | error _ => simp
  | ok _ =>
    dsimp only
    rw [enter_proper hdirectory (proper_sceneFile name), ← sceneFile]
    split
    next hlong => simp [Nat.not_le.2 hlong]
    next hshort => simp [Nat.not_lt.1 hshort]

/-- What is found at the path of a scene is the file of the scene, if neither the path nor the
name of the file is too long. -/
theorem find?_scenePath_eq_some_iff (h : tree.ReachesScenes start project dir)
    (htree : tree.WellFormed) {name : String} {node : Node} :
    tree.find? start (scenePath project name) = some node ↔
      Path.check (scenePath project name) = .ok () ∧
        (sceneFile name).length ≤ FileName.maxLength ∧
        tree.nodeAt? (scenesPlace dir ++ [sceneFile name]) = some node := by
  constructor
  · intro hfind
    rw [find?] at hfind
    split at hfind
    · cases hfind
    next place hlocate =>
      have hdirectory := h.isDirectory_of_locate hlocate
      obtain ⟨hcheck, hshort, rfl⟩ := (h.locate_scenePath hdirectory).1 hlocate
      exact ⟨hcheck, hshort, hfind⟩
  · rintro ⟨hcheck, hshort, hnode⟩
    have hdirectory : tree.nodeAt? (scenesPlace dir) = some .directory := by
      simpa using htree.isDirectory_dropLast hnode
    rw [find?, (h.locate_scenePath hdirectory).2 ⟨hcheck, hshort, rfl⟩]
    exact hnode

end ReachesScenes

namespace IsProject

theorem locate_manifest (h : tree.IsProject start project dir) :
    tree.locate start (Path.join project manifestName) =
      .ok (dir ++ [FileName.ofString manifestName]) := by
  obtain ⟨place, hplace⟩ := exists_locate_of_find? h.manifest
  rw [h.leadsTo.locate_join (by decide), check_of_locate hplace]
  dsimp only
  rw [enter_proper h.leadsTo.isDirectory proper_manifestName, if_neg (by decide)]

/-- Where the manifest can be reached, the directory of scenes can. -/
theorem reachesScenes (h : tree.IsProject start project dir) :
    tree.ReachesScenes start project dir where
  leadsTo := h.leadsTo
  check_eq := Path.check_join (check_of_locate h.locate_manifest) (by decide) (by decide)
    (by decide)

/-- What is put in the directory of scenes leaves the manifest as it is. -/
theorem find?_manifest_setNode (h : tree.IsProject start project dir)
    (hfree : tree.nodeAt? (scenesPlace dir ++ below) ≠ some .directory) (node : Node) :
    (tree.setNode (scenesPlace dir ++ below) node).find? start (Path.join project manifestName) =
      tree.find? start (Path.join project manifestName) := by
  have hne : dir ++ [FileName.ofString manifestName] ≠ scenesPlace dir ++ below := by
    rw [scenesPlace, List.append_assoc]
    intro heq
    have hhead := congrArg List.head? (List.append_cancel_left heq)
    rw [List.singleton_append, List.head?_cons, List.head?_cons, Option.some.injEq] at hhead
    revert hhead
    decide
  rw [find?_setNode (by simp [scenesPlace]) hfree h.locate_manifest, if_neg hne]

theorem setNode (h : tree.IsProject start project dir)
    (hfree : tree.nodeAt? (scenesPlace dir ++ below) ≠ some .directory) (node : Node) :
    (tree.setNode (scenesPlace dir ++ below) node).IsProject start project dir := by
  have hplace : scenesPlace dir ++ below ≠ [] := by simp [scenesPlace]
  exact ⟨h.leadsTo.setNode hplace hfree, isSome_find?_setNode hplace hfree h.found,
    (h.find?_manifest_setNode hfree node).symm ▸ h.manifest⟩

/-- What is put in the directory of scenes changes the scenes of the project alone. -/
theorem source_setNode (h : tree.IsProject start project dir)
    (hfree : tree.nodeAt? (scenesPlace dir ++ below) ≠ some .directory) (node : Node) :
    (tree.setNode (scenesPlace dir ++ below) node).source start project =
      { tree.source start project with
        scenes := ((tree.setNode (scenesPlace dir ++ below) node).source start project).scenes } := by
  simp only [source, h.find?_manifest_setNode hfree, h.found, (h.setNode hfree node).found]

end IsProject

/-! ## The directory of scenes -/

/-- The tree with a directory at a place where there was nothing. -/
def withDirectory (tree : FileTree) (place : Place) : FileTree :=
  if (tree.nodeAt? place).isSome then tree else tree.setNode place .directory

theorem withDirectory_of_none (hnone : tree.nodeAt? place = none) :
    tree.withDirectory place = tree.setNode place .directory := by
  rw [withDirectory, hnone]
  rfl

theorem withDirectory_of_some {node : Node} (hsome : tree.nodeAt? place = some node) :
    tree.withDirectory place = tree := by
  rw [withDirectory, hsome]
  rfl

theorem nodeAt?_withDirectory_of_ne {other : Place} (hother : other ≠ []) (hne : place ≠ other) :
    (tree.withDirectory other).nodeAt? place = tree.nodeAt? place := by
  cases hnode : tree.nodeAt? other with
  | some node => rw [withDirectory_of_some hnode]
  | none => rw [withDirectory_of_none hnode, nodeAt?_setNode hother, if_neg hne]

theorem children_withDirectory : (tree.withDirectory place).children place = tree.children place := by
  unfold withDirectory
  split
  · rfl
  · exact children_setNode_self place .directory

namespace IsProject

theorem withDirectory (h : tree.IsProject start project dir) :
    (tree.withDirectory (scenesPlace dir)).IsProject start project dir := by
  cases hnode : tree.nodeAt? (scenesPlace dir) with
  | none =>
    rw [withDirectory_of_none hnode]
    have hfree : tree.nodeAt? (scenesPlace dir ++ []) ≠ some .directory := by simp [hnode]
    simpa using h.setNode hfree .directory
  | some node => rwa [withDirectory_of_some hnode]

/-- The directory of scenes is one, once it is there. -/
theorem isDirectory_withDirectory (h : tree.IsProject start project dir)
    (hfiles : (tree.source start project).scenes = .ok files) :
    (tree.withDirectory (scenesPlace dir)).nodeAt? (scenesPlace dir) = some .directory := by
  simp only [source, h.reachesScenes.find?_scenesPath] at hfiles
  cases hnode : tree.nodeAt? (scenesPlace dir) with
  | none => rw [withDirectory_of_none hnode, nodeAt?_setNode (by simp [scenesPlace]), if_pos rfl]
  | some node =>
    rw [withDirectory_of_some hnode, hnode]
    cases node with
    | file _ => rw [hnode] at hfiles; cases hfiles
    | directory => rfl

/-- An empty directory of scenes is as good as none. -/
theorem source_withDirectory (h : tree.IsProject start project dir) (htree : tree.WellFormed) :
    (tree.withDirectory (scenesPlace dir)).source start project = tree.source start project := by
  cases hnode : tree.nodeAt? (scenesPlace dir) with
  | some node => rw [withDirectory_of_some hnode]
  | none =>
    have hne : scenesPlace dir ≠ [] := by simp [scenesPlace]
    have hfree : tree.nodeAt? (scenesPlace dir ++ []) ≠ some .directory := by simp [hnode]
    have hwith := h.withDirectory
    rw [withDirectory_of_none hnode] at hwith ⊢
    have hsource := h.source_setNode hfree .directory
    rw [List.append_nil] at hsource hfree
    rw [hsource]
    simp only [source, hwith.reachesScenes.find?_scenesPath, h.reachesScenes.find?_scenesPath,
      hnode, listing_eq hwith.reachesScenes.locate_scenesPath, children_setNode_self,
      htree.children_eq_nil hfree, nodeAt?_setNode hne, if_true, sceneFiles, List.filterMap_nil]

end IsProject

/-! ## Saving -/

namespace ReachesScenes

theorem setNode (h : tree.ReachesScenes start project dir) (hplace : place ≠ [])
    (hfree : tree.nodeAt? place ≠ some .directory) (node : Node) :
    (tree.setNode place node).ReachesScenes start project dir :=
  ⟨h.leadsTo.setNode hplace hfree, h.check_eq⟩

theorem withDirectory (h : tree.ReachesScenes start project dir) :
    (tree.withDirectory (scenesPlace dir)).ReachesScenes start project dir := by
  cases hnode : tree.nodeAt? (scenesPlace dir) with
  | none =>
    rw [withDirectory_of_none hnode]
    exact h.setNode (by simp [scenesPlace]) (by simp [hnode]) .directory
  | some node => rwa [withDirectory_of_some hnode]

/-- A scene is saved by writing its file, once there is the directory of scenes. -/
theorem saveScene_eq (h : tree.ReachesScenes start project dir) :
    tree.saveScene start project layout =
      (((tree.withDirectory (scenesPlace dir)).write start (scenePath project layout.name)
          layout.toText.toUTF8).1.mapError .inaccessible,
        ((tree.withDirectory (scenesPlace dir)).write start (scenePath project layout.name)
          layout.toText.toUTF8).2) := by
  unfold saveScene
  rw [h.find?_scenesPath]
  cases hnode : tree.nodeAt? (scenesPlace dir) with
  | some node => simp only [withDirectory_of_some hnode, Option.isSome_some, if_true]
  | none =>
    have hcreated : tree.createDirectories start (scenesPath project) =
        (.ok (), tree.setNode (scenesPlace dir) .directory) :=
      h.leadsTo.createDirectories_join (by decide) h.locate_scenesPath hnode
    simp only [withDirectory_of_none hnode, hcreated, Option.isSome_none, Bool.false_eq_true,
      if_false]

theorem write_of_saveScene (h : tree.ReachesScenes start project dir)
    (hsave : tree.saveScene start project layout = (.ok (), saved)) :
    (tree.withDirectory (scenesPlace dir)).write start (scenePath project layout.name)
      layout.toText.toUTF8 = (.ok (), saved) := by
  rw [h.saveScene_eq] at hsave
  obtain ⟨hok, hsaved⟩ := Prod.ext_iff.1 hsave
  dsimp only at hok hsaved
  exact Prod.ext (mapError_eq_ok.1 hok) hsaved

end ReachesScenes

namespace IsProject

/-- A file that is written in the directory of scenes is among the scene files. -/
theorem source_write (h : tree.IsProject start project dir)
    (hdirectory : tree.nodeAt? (scenesPlace dir) = some .directory)
    (hproper : ∀ entry ∈ tree.children (scenesPlace dir), entry.1.Proper)
    {name : String} {content : ByteArray}
    (hwrite : tree.write start (scenePath project name) content = (.ok (), saved)) :
    saved.source start project =
      { tree.source start project with
        scenes := .ok (replace (sceneFile name, .file content)
          (tree.listing start (scenesPath project))) } := by
  have hscenes : tree.LeadsTo start (scenesPath project) (scenesPlace dir) :=
    h.leadsTo.join proper_scenesName (by decide) hdirectory
  obtain ⟨place, hlocate, -, hfree, rfl⟩ := exists_place_of_write hwrite
  obtain ⟨-, -, rfl⟩ := (h.reachesScenes.locate_scenePath hdirectory).1 hlocate
  have hdirectory' : (tree.setNode (scenesPlace dir ++ [sceneFile name])
      (.file content)).nodeAt? (scenesPlace dir) = some .directory :=
    isDirectory_setNode (by simp) hfree hdirectory
  have hlisting : (tree.setNode (scenesPlace dir ++ [sceneFile name])
      (.file content)).listing start (scenesPath project) =
        replace (sceneFile name, .file content) (tree.listing start (scenesPath project)) :=
    hscenes.listing_setNode h.reachesScenes.locate_scenesPath hproper hlocate hfree _
  rw [h.source_setNode hfree]
  simp only [source, (h.setNode hfree _).reachesScenes.find?_scenesPath, hdirectory', sceneFiles, hlisting]

end IsProject

/-- **What a project consists of after a scene was saved**: its file has taken the place of
the one of its name, and all else is as it was. -/
theorem source_saveScene (htree : tree.WellFormed)
    (hfound : (tree.find? start project).isSome = true)
    (hmanifest : (tree.find? start (Path.join project manifestName)).isSome = true)
    (hfiles : (tree.source start project).scenes = .ok files)
    (hsave : tree.saveScene start project layout = (.ok (), saved)) :
    saved.source start project =
      { tree.source start project with
        scenes := .ok (replace (sceneFile layout.name, .file layout.toText.toUTF8) files) } := by
  obtain ⟨dir, h⟩ := exists_isProject hfound hmanifest
  have hproper : ∀ entry ∈ (tree.withDirectory (scenesPlace dir)).children (scenesPlace dir),
      entry.1.Proper := by
    rw [children_withDirectory]
    exact htree.proper_of_mem_children
  have hwrite := h.reachesScenes.write_of_saveScene hsave
  have hdirectory := h.isDirectory_withDirectory hfiles
  rw [← h.source_withDirectory htree] at hfiles ⊢
  rw [h.withDirectory.source_write hdirectory hproper hwrite]
  simp only [source, h.withDirectory.reachesScenes.find?_scenesPath, hdirectory, sceneFiles,
    Except.ok.injEq] at hfiles
  rw [hfiles]

/-- Where scenes can be saved, more can. -/
theorem WellFormed.saveScene (htree : tree.WellFormed) (start : Place) (project : String)
    (layout : Layout) : (tree.saveScene start project layout).2.WellFormed := by
  unfold FileTree.saveScene
  split
  next ready between hready =>
    have hbetween : between.WellFormed := by
      split at hready
      · cases hready
        exact htree
      · have hcreated := htree.createDirectories start (scenesPath project)
        rwa [hready] at hcreated
    split
    · exact hbetween
    · exact hbetween.write start _ _

end FileTree

end SceneLogic
