import SceneLogic.Proofs.Layout.Text
import SceneLogic.Proofs.Project.Directory

/-!
# What is loaded after a scene was saved

A scene is saved in the file that is named by the symbol of its name, whatever that file
held before; a project is loaded from all of its scene files, and of those that hold a
scene of one name the first counts.  So a saved scene is the one that is loaded next,
unless a file before its own holds a scene of the same name; and every other scene is
loaded as it was, unless it was loaded from the file that was overwritten.

## Main statements

* `Project.load_replace_of_saveScene` — the files from which a project is loaded then.
* `Project.load_saveScene` — what is loaded then.
-/

namespace SceneLogic

namespace Project

variable {tree saved : FileTree} {start : Place} {project : String} {layout : Layout}
  {loaded : Project} {files : List (FileName × Node)}

theorem text_toUTF8 (text : String) : (Node.file text.toUTF8).text = .ok text := by
  have htext : String.fromUTF8? text.toUTF8 = some text := by
    simp [String.fromUTF8?, text.isValidUTF8, String.fromUTF8]
  rw [Node.text, htext]

theorem loadScene_toUTF8 (text : String) :
    loadScene (.file text.toUTF8) =
      (Layout.ofText? text).elim (.error .malformedScene) .ok := by
  simp only [loadScene, text_toUTF8]
  cases Layout.ofText? text <;> rfl

/-- The scene in a file with the name of one for saved scenes. -/
theorem sceneOf?_sceneFile (name text : String) :
    sceneOf? (sceneFile name, .file text.toUTF8) = Layout.ofText? text := by
  rw [sceneOf?, if_pos (isSceneName_sceneFile name), loadScene_toUTF8]
  cases Layout.ofText? text <;> rfl

theorem nodup_scenes (htree : tree.WellFormed)
    (hfiles : (tree.source start project).scenes = .ok files) : (files.map (·.1)).Nodup := by
  simp only [FileTree.source, sceneFiles] at hfiles
  split at hfiles
  · cases hfiles
    exact List.nodup_nil
  · cases hfiles
  · cases hfiles
    exact htree.nodup_listing

/-- After a scene was saved its file is among those from which the project is loaded. -/
theorem load_replace_of_saveScene (htree : tree.WellFormed)
    (hload : load (tree.source start project) = .ok loaded)
    (hsave : tree.saveScene start project layout = (.ok (), saved)) :
    ∃ files, (tree.source start project).scenes = .ok files ∧ (files.map (·.1)).Nodup ∧
      loaded.scenes = loadScenes files ∧
      load (saved.source start project) =
        .ok ⟨loaded.manifest,
          loadScenes (replace (sceneFile layout.name, .file layout.toText.toUTF8) files)⟩ := by
  obtain ⟨hfound, manifest, hmanifest, files, hfiles, rfl⟩ := load_eq_ok.1 hload
  refine ⟨files, hfiles, nodup_scenes htree hfiles, rfl, ?_⟩
  rw [FileTree.source_saveScene htree hfound (isSome_manifest hmanifest) hfiles hsave]
  exact load_eq_ok.2 ⟨hfound, manifest, hmanifest, _, rfl, rfl⟩

/-- **What is loaded after a scene was saved.**  The saved scene is loaded unless a file
before its own holds a scene of its name, which then stays as it was.  Every other scene is
loaded from the files but the overwritten one, so it is as it was unless it came from that. -/
theorem load_saveScene (htree : tree.WellFormed)
    (hload : load (tree.source start project) = .ok loaded)
    (hlayout : Layout.ofText? layout.toText = some layout)
    (hsave : tree.saveScene start project layout = (.ok (), saved)) :
    ∃ files reloaded,
      (tree.source start project).scenes = .ok files ∧
      load (saved.source start project) = .ok reloaded ∧
      reloaded.manifest = loaded.manifest ∧
      ((∀ file ∈ files, file.1 < sceneFile layout.name → ¬ Holds layout.name file) →
        reloaded.scene? layout.name = some layout) ∧
      ((∃ file ∈ files, file.1 < sceneFile layout.name ∧ Holds layout.name file) →
        reloaded.scene? layout.name = loaded.scene? layout.name) ∧
      ∀ name ≠ layout.name,
        reloaded.scene? name =
          (loadScenes (files.filter (·.1 ≠ sceneFile layout.name))).get? name ∧
        ((∀ file, IsSource files name file → file.1 ≠ sceneFile layout.name) →
          reloaded.scene? name = loaded.scene? name) := by
  obtain ⟨files, hfiles, hnodup, hscenes, hreload⟩ := load_replace_of_saveScene htree hload hsave
  have hscene := (sceneOf?_sceneFile layout.name layout.toText).trans hlayout
  simp only [scene?, hscenes]
  generalize Node.file layout.toText.toUTF8 = node at hreload hscene
  refine ⟨files, _, hfiles, hreload, rfl, get?_loadScenes_replace_self hnodup hscene, ?_, ?_⟩
  · rintro ⟨earlier, hmem, hlt, hholds⟩
    exact get?_loadScenes_replace_of_lt hnodup hmem hlt hholds
  · intro name hname
    have hother : ¬ Holds name (sceneFile layout.name, node) := by
      rw [holds_iff hscene]
      exact hname.symm
    have hkept := get?_loadScenes_replace hnodup hother
    exact ⟨hkept, fun hsource => hkept.trans (get?_loadScenes_filter hnodup hsource)⟩

/-! ## A game and its files -/

/-- The manifest of a game. -/
def gameManifest : String := "[project]\nid = \"game\"\nname = \"Game\"\n"

/-- A game without scenes, at the root of its tree. -/
def game : FileTree := (FileTree.empty.write [] "./project.toml" gameManifest.toUTF8).2

/-- The scene of the game that is saved. -/
def level : Layout := ⟨"Level", ∅, [.ofObject "Player"], []⟩

/-- The scene as it was before. -/
def oldLevel : Layout := ⟨"Level", ∅, [], []⟩

/-- Another scene of the game. -/
def menu : Layout := ⟨"Menu", ∅, [], []⟩

/-- What is found of the game, with these scene files. -/
def gameSource (files : List (FileName × Node)) : Source :=
  ⟨true, some (.file gameManifest.toUTF8), .ok files⟩

/-- The game is loaded whatever scene files it has. -/
theorem exists_load_gameSource (files : List (FileName × Node)) :
    ∃ manifest, load (gameSource files) = .ok ⟨manifest, loadScenes files⟩ := by
  have hgame : (Manifest.ofText? gameManifest).isSome = true := by decide +kernel
  obtain ⟨manifest, hmanifest⟩ := Option.isSome_iff_exists.1 hgame
  have hread : manifest? (gameSource files) = some manifest := by
    simp only [manifest?, gameSource, Option.bind_some, text_toUTF8, Except.toOption, hmanifest]
  exact ⟨manifest, load_eq_ok.2 ⟨rfl, manifest, hread, files, rfl, rfl⟩⟩

theorem ofText?_level : Layout.ofText? level.toText = some level :=
  Layout.ofText?_toText_of_le (by decide)

/-- The game with its other scene. -/
def gameWithMenu : FileTree := (game.saveScene [] "." menu).2

theorem source_gameWithMenu : gameWithMenu.source [] "." =
    gameSource [(sceneFile "Menu", .file menu.toText.toUTF8)] := rfl

/-- The level is saved, and the menu stays. -/
theorem load_saveScene_of_gameWithMenu :
    ∃ loaded reloaded, load (gameWithMenu.source [] ".") = .ok loaded ∧
      load ((gameWithMenu.saveScene [] "." level).2.source [] ".") = .ok reloaded ∧
      reloaded.scene? "Level" = some level ∧ reloaded.scene? "Menu" = loaded.scene? "Menu" := by
  have htree : gameWithMenu.WellFormed :=
    (FileTree.wellFormed_empty.write _ _ _).saveScene _ _ _
  obtain ⟨manifest, hload⟩ := exists_load_gameSource [(sceneFile "Menu", .file menu.toText.toUTF8)]
  rw [← source_gameWithMenu] at hload
  have hsave : gameWithMenu.saveScene [] "." level =
      (.ok (), (gameWithMenu.saveScene [] "." level).2) := Prod.ext rfl rfl
  obtain ⟨files, reloaded, hfiles, hreload, -, hlevel, -, hothers⟩ :=
    load_saveScene htree hload ofText?_level hsave
  rw [source_gameWithMenu] at hfiles
  cases hfiles
  refine ⟨_, reloaded, hload, hreload, hlevel ?_, (hothers "Menu" (by decide)).2 ?_⟩
  · intro file hfile hlt
    rw [List.mem_singleton.1 hfile] at hlt
    exact absurd hlt (by decide)
  · intro file hsource
    rw [List.mem_singleton.1 hsource.mem]
    decide

/-- The game with an old level in a file before that of the level, and with the menu in the
file of the level. -/
def muddledGame : FileTree :=
  let tree := (game.createDirectories [] "./scenes").2
  let tree := (tree.write [] "./scenes/0.scene.json" oldLevel.toText.toUTF8).2
  (tree.write [] "./scenes/Level.scene.json" menu.toText.toUTF8).2

theorem source_muddledGame : muddledGame.source [] "." =
    gameSource [(sceneFile "Level", .file menu.toText.toUTF8),
      (sceneFile "0", .file oldLevel.toText.toUTF8)] := rfl

theorem source_saveScene_muddledGame : (muddledGame.saveScene [] "." level).2.source [] "." =
    gameSource [(sceneFile "Level", .file level.toText.toUTF8),
      (sceneFile "0", .file oldLevel.toText.toUTF8)] := rfl

/-- The scenes of two files of which the second comes first. -/
theorem get?_loadScenes_pair {first second : FileName × Node} {one two : Layout}
    (hlt : second.1 < first.1) (hone : sceneOf? first = some one)
    (htwo : sceneOf? second = some two) (name : String) :
    (loadScenes [first, second]).get? name =
      if two.name = name then some two else if one.name = name then some one else none := by
  have hsorted : inOrder [first, second] = [second, first] := by
    simp [inOrder, isSceneName_of_sceneOf? hone, isSceneName_of_sceneOf? htwo, List.mergeSort, hlt]
  rw [get?_loadScenes, hsorted]
  by_cases htwoName : two.name = name <;> by_cases honeName : one.name = name <;>
    simp [named?, hone, htwo, Option.filter, htwoName, honeName]

/-- The old level hides the one that is saved, which takes the place of the menu. -/
theorem load_saveScene_of_muddledGame :
    ∃ loaded reloaded, load (muddledGame.source [] ".") = .ok loaded ∧
      Layout.ofText? level.toText = some level ∧
      (muddledGame.saveScene [] "." level).1 = .ok () ∧
      load ((muddledGame.saveScene [] "." level).2.source [] ".") = .ok reloaded ∧
      reloaded.scene? "Level" = some oldLevel ∧ oldLevel ≠ level ∧
      loaded.scene? "Menu" = some menu ∧ reloaded.scene? "Menu" = none := by
  have hmenu : sceneOf? (sceneFile "Level", .file menu.toText.toUTF8) = some menu :=
    (sceneOf?_sceneFile _ _).trans (Layout.ofText?_toText_of_le (by decide))
  have hold : sceneOf? (sceneFile "0", .file oldLevel.toText.toUTF8) = some oldLevel :=
    (sceneOf?_sceneFile _ _).trans (Layout.ofText?_toText_of_le (by decide))
  have hnew : sceneOf? (sceneFile "Level", .file level.toText.toUTF8) = some level :=
    (sceneOf?_sceneFile _ _).trans ofText?_level
  have hlt : sceneFile "0" < sceneFile "Level" := by decide
  obtain ⟨before, hload⟩ := exists_load_gameSource
    [(sceneFile "Level", .file menu.toText.toUTF8), (sceneFile "0", .file oldLevel.toText.toUTF8)]
  obtain ⟨after, hreload⟩ := exists_load_gameSource
    [(sceneFile "Level", .file level.toText.toUTF8), (sceneFile "0", .file oldLevel.toText.toUTF8)]
  rw [source_muddledGame, source_saveScene_muddledGame]
  refine ⟨_, _, hload, ofText?_level, rfl, hreload, ?_, by decide, ?_, ?_⟩
  · exact (get?_loadScenes_pair hlt hnew hold "Level").trans rfl
  · exact (get?_loadScenes_pair hlt hmenu hold "Menu").trans rfl
  · exact (get?_loadScenes_pair hlt hnew hold "Menu").trans rfl

end Project

end SceneLogic
