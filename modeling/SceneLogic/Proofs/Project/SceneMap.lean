import SceneLogic.Proofs.Project.Reloading

/-!
# Saved scenes form a map

Scenes are saved in the directory of a project one after the other, in any order and with
any names, also with names that look like paths.  Each goes to a file of its own right in
the directory of scenes, because different names have different symbols.  So what is loaded
again under a name is what was saved under it last, and under a name that was not saved it
is what was there before.

## Main definitions

* `FileTree.SavedInTurn` — scenes were saved one after the other.

## Main statements

* `FileTree.ReachesScenes.nodeAt?_saveScene` — what saving one scene does to each place.
* `FileTree.SavedInTurn.reloadScene_eq` — what saving scenes does to each scene.
-/

namespace SceneLogic

namespace Project

/-- The files of different scenes have different names. -/
theorem sceneFile_inj {name other : String} : sceneFile name = sceneFile other ↔ name = other := by
  refine ⟨fun heq => ?_, congrArg sceneFile⟩
  have htext := FileName.ofString_injective heq
  rw [← String.toList_inj, String.toList_append, String.toList_append,
    List.append_cancel_right_eq, String.toList_inj] at htext
  exact mangleName_inj.1 htext

end Project

namespace FileTree

open Project

variable {tree saved : FileTree} {start place dir : Place} {project path : String}
  {layout : Layout} {layouts : List Layout}

/-- Scenes were saved in a project one after the other, which turned the first tree into the
second. -/
inductive SavedInTurn (start : Place) (project : String) :
    FileTree → List Layout → FileTree → Prop where
  | nil (tree : FileTree) : SavedInTurn start project tree [] tree
  | cons {tree next saved : FileTree} {layout : Layout} {layouts : List Layout}
    (hsave : tree.saveScene start project layout = (.ok (), next))
    (hrest : SavedInTurn start project next layouts saved) :
    SavedInTurn start project tree (layout :: layouts) saved

/-! ## The directory of a project -/

/-- A path at which a directory is found leads to it with the names below. -/
theorem exists_leadsTo_of_find? (hfound : tree.find? start path = some .directory) :
    ∃ dir, tree.locate start path = .ok dir ∧ tree.LeadsTo start path dir := by
  obtain ⟨dir, hlocate⟩ := exists_locate_of_find? (by rw [hfound]; rfl)
  have hdir : tree.nodeAt? dir = some .directory := by rwa [find?, hlocate] at hfound
  have hcheck := check_of_locate hlocate
  have hfollow : tree.follow (Path.origin start path) (Path.parts path) = .ok dir := by
    rwa [locate, hcheck] at hlocate
  refine ⟨dir, hlocate, (Path.check_eq_ok.1 hcheck).2.2, ?_, hdir⟩
  rw [Path.lead]
  split
  next hlast =>
    -- The empty part behind the last slash stays in the directory.
    obtain ⟨before, hbefore⟩ := List.getLast?_eq_some_iff.1 hlast
    rw [Path.parts, hbefore, Path.splitSlashes_append_slash] at hfollow
    obtain ⟨middle, hmiddle, hstay⟩ := exists_follow_of_append hfollow
    have hmiddleDir := isDirectory_of_follow hstay hdir
    rw [Path.splitSlashes, follow_singleton, enter, hmiddleDir] at hstay
    rw [hbefore, List.dropLast_concat, hmiddle]
    simpa using hstay
  next => exact hfollow

/-- Where a scene was saved, the path of the scenes is short enough. -/
theorem check_scenesPath_of_saveScene
    (hsave : tree.saveScene start project layout = (.ok (), saved)) :
    Path.check (scenesPath project) = .ok () := by
  unfold saveScene at hsave
  by_cases hfound : (tree.find? start (scenesPath project)).isSome = true
  · obtain ⟨_, hlocate⟩ := exists_locate_of_find? hfound
    exact check_of_locate hlocate
  · cases hcheck : Path.check (scenesPath project) with
    | ok _ => rfl
    | error _ =>
      rw [if_neg hfound, createDirectories, hcheck] at hsave
      cases hsave

theorem WellFormed.of_saveScene (htree : tree.WellFormed)
    (hsave : tree.saveScene start project layout = (.ok (), saved)) : saved.WellFormed := by
  have hwell := htree.saveScene start project layout
  rwa [hsave] at hwell

namespace ReachesScenes

/-! ## Saving one scene -/

/-- A scene that was saved was written in its file. -/
theorem saveScene_eq_setNode (h : tree.ReachesScenes start project dir)
    (hsave : tree.saveScene start project layout = (.ok (), saved)) :
    let ready := tree.withDirectory (scenesPlace dir)
    let place := scenesPlace dir ++ [sceneFile layout.name]
    ready.nodeAt? (scenesPlace dir) = some .directory ∧
      ready.locate start (scenePath project layout.name) = .ok place ∧
      ready.nodeAt? place ≠ some .directory ∧
      saved = ready.setNode place (.file layout.toText.toUTF8) := by
  intro ready place
  obtain ⟨written, hlocate, -, hfree, hsaved⟩ := exists_place_of_write (h.write_of_saveScene hsave)
  have hdirectory := h.withDirectory.isDirectory_of_locate hlocate
  obtain ⟨-, -, rfl⟩ := (h.withDirectory.locate_scenePath hdirectory).1 hlocate
  exact ⟨hdirectory, hlocate, hfree, hsaved⟩

theorem saveScene (h : tree.ReachesScenes start project dir)
    (hsave : tree.saveScene start project layout = (.ok (), saved)) :
    saved.ReachesScenes start project dir := by
  obtain ⟨-, -, hfree, rfl⟩ := h.saveScene_eq_setNode hsave
  exact h.withDirectory.setNode (by simp) hfree _

/-- The path of a saved scene leads to its file. -/
theorem locate_saveScene_self (h : tree.ReachesScenes start project dir)
    (hsave : tree.saveScene start project layout = (.ok (), saved)) :
    saved.locate start (scenePath project layout.name) =
      .ok (scenesPlace dir ++ [sceneFile layout.name]) := by
  obtain ⟨-, hlocate, hfree, rfl⟩ := h.saveScene_eq_setNode hsave
  exact locate_setNode (by simp) hfree hlocate

/-- Paths go on leading where they lead when a scene is saved. -/
theorem locate_saveScene (h : tree.ReachesScenes start project dir)
    (hsave : tree.saveScene start project layout = (.ok (), saved))
    (hlocate : tree.locate start path = .ok place) : saved.locate start path = .ok place := by
  obtain ⟨-, -, hfree, rfl⟩ := h.saveScene_eq_setNode hsave
  refine locate_setNode (by simp) hfree ?_
  cases hnode : tree.nodeAt? (scenesPlace dir) with
  | some node => rwa [withDirectory_of_some hnode]
  | none =>
    rw [withDirectory_of_none hnode]
    exact locate_setNode (by simp [scenesPlace]) (by simp [hnode]) hlocate

/-- **Saving a scene** changes its file and creates the directory of scenes; every other
place is left as it is. -/
theorem nodeAt?_saveScene (h : tree.ReachesScenes start project dir)
    (hsave : tree.saveScene start project layout = (.ok (), saved)) (place : Place) :
    saved.nodeAt? place =
      if place = scenesPlace dir ++ [sceneFile layout.name] then
        some (.file layout.toText.toUTF8)
      else if place = scenesPlace dir then some .directory else tree.nodeAt? place := by
  obtain ⟨hdirectory, -, -, rfl⟩ := h.saveScene_eq_setNode hsave
  rw [nodeAt?_setNode (by simp)]
  congr 1
  split
  next hplace => rw [hplace, hdirectory]
  next hplace => exact nodeAt?_withDirectory_of_ne (by simp [scenesPlace]) hplace

/-- Saving a scene leaves the scenes of other names as they are. -/
theorem reloadScene_saveScene_of_ne (h : tree.ReachesScenes start project dir)
    (htree : tree.WellFormed) (hsave : tree.saveScene start project layout = (.ok (), saved))
    {name : String} (hname : name ≠ layout.name) :
    saved.reloadScene start project name = tree.reloadScene start project name := by
  have hfile : scenesPlace dir ++ [sceneFile name] ≠ scenesPlace dir ++ [sceneFile layout.name] := by
    intro heq
    exact hname (sceneFile_inj.1 (List.singleton_inj.1 (List.append_cancel_left heq)))
  have hnode : saved.nodeAt? (scenesPlace dir ++ [sceneFile name]) =
      tree.nodeAt? (scenesPlace dir ++ [sceneFile name]) := by
    rw [h.nodeAt?_saveScene hsave, if_neg hfile, if_neg (by simp)]
  have hfind : saved.find? start (scenePath project name) =
      tree.find? start (scenePath project name) := by
    refine Option.ext fun node => ?_
    rw [h.find?_scenePath_eq_some_iff htree,
      (h.saveScene hsave).find?_scenePath_eq_some_iff (htree.of_saveScene hsave), hnode]
  unfold reloadScene
  rw [hfind]

end ReachesScenes

/-- A layout that its text gives again is loaded from the file of its saved scene. -/
theorem reloadScene_saveScene_self (hlayout : Layout.ofText? layout.toText = some layout)
    (hsave : tree.saveScene start project layout = (.ok (), saved)) :
    saved.reloadScene start project layout.name = .ok (some layout) := by
  rw [reloadScene_of_find? (find?_saveScene hsave), loadScene_toUTF8, hlayout]
  rfl

/-! ## Saving scenes in turn -/

namespace SavedInTurn

theorem locate_eq (hsaved : SavedInTurn start project tree layouts saved)
    (h : tree.ReachesScenes start project dir) (hlocate : tree.locate start path = .ok place) :
    saved.locate start path = .ok place := by
  induction hsaved with
  | nil tree => exact hlocate
  | cons hsave _ ih => exact ih (h.saveScene hsave) (h.locate_saveScene hsave hlocate)

/-- The paths of all saved scenes lead right into the directory of scenes. -/
theorem locate_scenePath (hsaved : SavedInTurn start project tree layouts saved)
    (h : tree.ReachesScenes start project dir) :
    ∀ layout ∈ layouts, saved.locate start (scenePath project layout.name) =
      .ok (scenesPlace dir ++ [sceneFile layout.name]) := by
  induction hsaved with
  | nil tree => exact nofun
  | cons hsave hrest ih =>
    rw [List.forall_mem_cons]
    exact ⟨hrest.locate_eq (h.saveScene hsave) (h.locate_saveScene_self hsave),
      ih (h.saveScene hsave)⟩

/-- What is neither the directory of scenes nor the file of a saved scene stays as it is. -/
theorem nodeAt?_eq (hsaved : SavedInTurn start project tree layouts saved)
    (h : tree.ReachesScenes start project dir) (hplace : place ≠ scenesPlace dir)
    (hfile : ∀ layout ∈ layouts, place ≠ scenesPlace dir ++ [sceneFile layout.name]) :
    saved.nodeAt? place = tree.nodeAt? place := by
  induction hsaved with
  | nil tree => rfl
  | cons hsave _ ih =>
    rw [List.forall_mem_cons] at hfile
    rw [ih (h.saveScene hsave) hfile.2, h.nodeAt?_saveScene hsave, if_neg hfile.1, if_neg hplace]

/-- Under each name the last layout that was saved is loaded, and what was loaded before if
there is none.  The induction is on the saves, the first of which comes before the others:
what it did to a name is kept unless one of them saves that name again. -/
theorem reloadScene_eq_findRev? (hsaved : SavedInTurn start project tree layouts saved)
    (h : tree.ReachesScenes start project dir) (htree : tree.WellFormed)
    (hlayouts : ∀ layout ∈ layouts, Layout.ofText? layout.toText = some layout) (name : String) :
    saved.reloadScene start project name =
      match layouts.findRev? (·.name = name) with
      | some layout => .ok (some layout)
      | none => tree.reloadScene start project name := by
  induction hsaved with
  | nil tree => rfl
  | @cons tree next saved layout layouts hsave _ ih =>
    rw [List.forall_mem_cons] at hlayouts
    rw [ih (h.saveScene hsave) (htree.of_saveScene hsave) hlayouts.2, List.findRev?]
    cases layouts.findRev? (·.name = name) with
    | some last => rfl
    | none =>
      by_cases hname : layout.name = name
      · subst hname
        simp [reloadScene_saveScene_self hlayouts.1 hsave]
      · simp [hname, h.reloadScene_saveScene_of_ne htree hsave (Ne.symm hname)]

/-- **Saved scenes form a map from names to layouts.**  Scenes are saved one after the other
in a directory, which may hold any files, and their layouts are given again by their texts.
Each of them is written right in the directory of scenes, in a file of its name; nothing else
changes, but that the directory of scenes is created.  Then under each name that was saved
the last layout that was saved under it is loaded, and under every other name what was
loaded before. -/
theorem reloadScene_eq (hsaved : SavedInTurn start project tree layouts saved)
    (htree : tree.WellFormed) (hproject : tree.find? start project = some .directory)
    (hlayouts : ∀ layout ∈ layouts, Layout.ofText? layout.toText = some layout) :
    ∃ dir, tree.locate start project = .ok dir ∧
      (∀ layout ∈ layouts, saved.locate start (scenePath project layout.name) =
        .ok (scenesPlace dir ++ [sceneFile layout.name])) ∧
      (∀ place ≠ scenesPlace dir,
        (∀ layout ∈ layouts, place ≠ scenesPlace dir ++ [sceneFile layout.name]) →
        saved.nodeAt? place = tree.nodeAt? place) ∧
      ∀ name, saved.reloadScene start project name =
        match layouts.findRev? (·.name = name) with
        | some layout => .ok (some layout)
        | none => tree.reloadScene start project name := by
  obtain ⟨dir, hdir, hleads⟩ := exists_leadsTo_of_find? hproject
  refine ⟨dir, hdir, ?_⟩
  cases hsaved with
  | nil tree => exact ⟨nofun, fun _ _ _ => rfl, fun _ => rfl⟩
  | cons hsave hrest =>
    have h : tree.ReachesScenes start project dir := ⟨hleads, check_scenesPath_of_saveScene hsave⟩
    have hturn := hrest.cons hsave
    exact ⟨hturn.locate_scenePath h, fun place => hturn.nodeAt?_eq h,
      hturn.reloadScene_eq_findRev? h htree hlayouts⟩

/-- A level, a scene whose name looks like a path, and the level as it was before. -/
def threeScenes : List Layout := [level, ⟨"../Level", ∅, [], []⟩, oldLevel]

/-- The level is saved twice, and the later one is loaded; the scene whose name looks like a
path has a file of its own, and the menu stays. -/
theorem reloadScene_eq_of_threeScenes :
    ∃ saved, SavedInTurn [] "." gameWithMenu threeScenes saved ∧
      saved.reloadScene [] "." "Level" = .ok (some oldLevel) ∧
      saved.reloadScene [] "." "../Level" = .ok (some ⟨"../Level", ∅, [], []⟩) ∧
      saved.reloadScene [] "." "Menu" = gameWithMenu.reloadScene [] "." "Menu" := by
  have htree : gameWithMenu.WellFormed := (wellFormed_empty.write _ _ _).saveScene _ _ _
  have hlayouts : ∀ layout ∈ threeScenes, Layout.ofText? layout.toText = some layout := by
    intro layout hlayout
    refine Layout.ofText?_toText_of_le ?_
    revert layout
    decide
  have hsaved : SavedInTurn [] "." gameWithMenu threeScenes _ :=
    .cons (Prod.ext rfl rfl) (.cons (Prod.ext rfl rfl) (.cons (Prod.ext rfl rfl) (.nil _)))
  obtain ⟨_, _, -, -, hreload⟩ := hsaved.reloadScene_eq htree rfl hlayouts
  exact ⟨_, hsaved, hreload "Level", hreload "../Level", hreload "Menu"⟩

end SavedInTurn

end FileTree

end SceneLogic
