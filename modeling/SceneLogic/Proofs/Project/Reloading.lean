import SceneLogic.Proofs.Layout.Depth
import SceneLogic.Proofs.Layout.Text
import SceneLogic.Proofs.Project.Saving

/-!
# Scenes that were loaded are saved and loaded again

Whatever a layout is, its scene is saved if its file can be written.  It is loaded from
that file as it was, just up to the nesting limit.  The text of a layout nests at most one
level deeper than the text from which the layout was read, since lists that were missing
are written as empty; so what was read from a text that stays below the limit is always
read again, and at the limit it may be lost.

## Main definitions

* `Layout.tower` — a layout that can be read from a text at the limit and is written beyond.

## Main statements

* `FileTree.saveScene_eq_ok_iff` — when a scene is saved.
* `FileTree.reloadScene_saveScene` — what is loaded from the file of a saved scene.
* `Layout.reload_of_ofText?` — a layout that was read is read again, up to the limit.
-/

namespace SceneLogic

open Json

namespace FileTree

open Project

variable {tree saved : FileTree} {start place dir : Place} {project path : String}
  {layout : Layout} {loaded : Project} {files : List (FileName × Node)}

/-! ## When a scene is saved -/

theorem write_eq_ok_iff {content : ByteArray} :
    (tree.write start path content).1 = .ok () ↔
      ∃ place, tree.locate start path = .ok place ∧ tree.nodeAt? place ≠ some .directory := by
  unfold write
  cases tree.locate start path with
  | error _ => simp
  | ok place =>
    dsimp only
    split
    next hdirectory => simp [hdirectory]
    next hfree => exact iff_of_true rfl ⟨place, rfl, fun hnode => hfree hnode⟩

/-- **When a scene is saved** in a project that can be loaded: if neither the path nor the
name of its file is too long and no directory has that name, whatever the scene is. -/
theorem saveScene_eq_ok_iff (htree : tree.WellFormed)
    (hload : load (tree.source start project) = .ok loaded) :
    (tree.saveScene start project layout).1 = .ok () ↔
      Path.check (scenePath project layout.name) = .ok () ∧
        (sceneFile layout.name).length ≤ FileName.maxLength ∧
        tree.find? start (scenePath project layout.name) ≠ some .directory := by
  obtain ⟨hfound, manifest, hmanifest, files, hfiles, rfl⟩ := load_eq_ok.1 hload
  obtain ⟨dir, h⟩ := exists_isProject hfound (isSome_manifest hmanifest)
  have hdirectory := h.isDirectory_withDirectory hfiles
  rw [h.reachesScenes.saveScene_eq, mapError_eq_ok, write_eq_ok_iff]
  have hfile : (tree.withDirectory (scenesPlace dir)).nodeAt?
      (scenesPlace dir ++ [sceneFile layout.name]) =
        tree.nodeAt? (scenesPlace dir ++ [sceneFile layout.name]) :=
    nodeAt?_withDirectory_of_ne (by simp [scenesPlace]) (by simp)
  have hreaches := h.withDirectory.reachesScenes
  constructor
  · rintro ⟨place, hlocate, hfree⟩
    obtain ⟨hcheck, hshort, rfl⟩ := (hreaches.locate_scenePath hdirectory).1 hlocate
    refine ⟨hcheck, hshort, fun hfind => hfree (hfile.trans ?_)⟩
    exact ((h.reachesScenes.find?_scenePath_eq_some_iff htree).1 hfind).2.2
  · rintro ⟨hcheck, hshort, hfree⟩
    have hlocate := (hreaches.locate_scenePath hdirectory).2 ⟨hcheck, hshort, rfl⟩
    refine ⟨_, hlocate, fun hnode => hfree ?_⟩
    exact (h.reachesScenes.find?_scenePath_eq_some_iff htree).2
      ⟨hcheck, hshort, hfile.symm.trans hnode⟩

/-! ## What is loaded again -/

/-- The file of a saved scene holds its text. -/
theorem find?_saveScene (hsave : tree.saveScene start project layout = (.ok (), saved)) :
    saved.find? start (scenePath project layout.name) = some (.file layout.toText.toUTF8) := by
  unfold saveScene at hsave
  split at hsave
  next ready between _ =>
    split at hsave
    · cases hsave
    · obtain ⟨hok, hsaved⟩ := Prod.ext_iff.1 hsave
      dsimp only at hok hsaved
      exact find?_of_write (Prod.ext (mapError_eq_ok.1 hok) hsaved)

theorem reloadScene_of_find? {name : String} {node : Node}
    (hnode : saved.find? start (scenePath project name) = some node) :
    saved.reloadScene start project name = (loadScene node).map some := by
  unfold reloadScene
  rw [hnode]

/-- **What is loaded from the file of a saved scene**: the scene as it was saved, just up to
the nesting limit. -/
theorem reloadScene_saveScene (hsave : tree.saveScene start project layout = (.ok (), saved)) :
    saved.reloadScene start project layout.name =
      if layout.toDocument.depth ≤ nestingLimit then .ok (some layout)
      else .error .malformedScene := by
  rw [reloadScene_of_find? (find?_saveScene hsave), loadScene_toUTF8]
  by_cases hdepth : layout.toDocument.depth ≤ nestingLimit
  · rw [if_pos hdepth, Layout.ofText?_toText_of_le hdepth]
    rfl
  · rw [if_neg hdepth, Layout.ofText?_toText_of_lt (Nat.lt_of_not_le hdepth)]
    rfl

end FileTree

/-! ## Texts at the nesting limit -/

namespace Event

/-- Standard events inside each other, each with the next as its only sub-event. -/
def tower : Nat → Event
  | 0 => .branch ⟨false, false⟩ (.standard ⟨[], []⟩) []
  | n + 1 => .branch ⟨false, false⟩ (.standard ⟨[], []⟩) [tower n]

/-- The document of a tower without what may be missing. -/
def shortTower : Nat → Document
  | 0 => .object [("type", .string "Standard")]
  | n + 1 => .object [("type", .string "Standard"), ("events", .array [shortTower n])]

theorem readable_shortTower : ∀ n, (shortTower n).readable = true
  | 0 => rfl
  | n + 1 => by simp [shortTower, Document.readable, Document.readableMembers,
      Document.readableItems, readable_shortTower n]

theorem depth_shortTower : ∀ n, (shortTower n).depth = 2 * n + 1
  | 0 => rfl
  | n + 1 => by
    simp only [shortTower, Document.depth, Document.depthOfMembers, Document.depthOfItems,
      depth_shortTower n]
    omega

/-- A tower is written one level deeper, because of its empty lists of instructions. -/
theorem depth_tower : ∀ n, (tower n).toDocument.depth = 2 * n + 2
  | 0 => rfl
  | n + 1 => by
    have hwritten : (tower (n + 1)).toDocument =
        .object [("type", .string "Standard"), ("conditions", .array []), ("actions", .array []),
          ("events", .array [(tower n).toDocument])] := by
      rw [tower, toDocument, toDocuments]
      rfl
    simp only [hwritten, Document.depth, Document.depthOfMembers, Document.depthOfItems,
      depth_tower n]
    omega

theorem read?_shortTower : ∀ (n : Nat) {depth : Nat} (numbered : Bool), n < depth →
    read? depth numbered (shortTower n) = some (tower n)
  | 0, depth + 1, numbered, _ => rfl
  | n + 1, depth + 1, numbered, h => by
    have hevents : Document.list? (read? depth true) (.array [shortTower n]) = some [tower n] := by
      rw [Document.list?, List.mapM_cons, read?_shortTower n true (Nat.lt_of_succ_lt_succ h)]
      rfl
    have hread : read? (depth + 1) numbered (shortTower (n + 1)) =
        (Document.list? (read? depth true) (.array [shortTower n])).bind fun events =>
          some (.branch ⟨false, false⟩ (.standard ⟨[], []⟩) events) := rfl
    rw [hread, hevents]
    rfl

end Event

namespace Layout

/-- **A layout that was read is read again, up to the limit.**  It is written at most one
level deeper than it was read, and its text gives it again, just up to the limit; so a text
that stays below the limit is enough.  Whenever its scene is saved, the same holds of what
is loaded from the file; and in a project that can be loaded the scene is saved unless the
path or the name of its file is too long or a directory has that name. -/
theorem reload_of_ofText? {text : String} {layout : Layout}
    (hload : ofText? text = some layout) :
    (∃ document, Document.parse? text = some document ∧
      layout.toDocument.depth ≤ document.depth + 1 ∧
      (document.depth < nestingLimit → ofText? layout.toText = some layout)) ∧
    ofText? layout.toText =
      (if layout.toDocument.depth ≤ nestingLimit then some layout else none) ∧
    ∀ (tree : FileTree) (start : Place) (project : String),
      (∀ saved, tree.saveScene start project layout = (.ok (), saved) →
        saved.reloadScene start project layout.name =
          if layout.toDocument.depth ≤ nestingLimit then .ok (some layout)
          else .error .malformedScene) ∧
      (tree.WellFormed → ∀ loaded, Project.load (tree.source start project) = .ok loaded →
        ((tree.saveScene start project layout).1 = .ok () ↔
          Path.check (Project.scenePath project layout.name) = .ok () ∧
            (Project.sceneFile layout.name).length ≤ FileName.maxLength ∧
            tree.find? start (Project.scenePath project layout.name) ≠ some .directory)) := by
  obtain ⟨document, hparse, hread⟩ := Option.bind_eq_some_iff.1 hload
  have hdepth := depth_of_ofDocument? hread
  refine ⟨⟨document, hparse, hdepth, fun hbelow => ofText?_toText_of_le (by omega)⟩, ?_, ?_⟩
  · split
    next hle => exact ofText?_toText_of_le hle
    next hlt => exact ofText?_toText_of_lt (Nat.lt_of_not_le hlt)
  · exact fun tree start project => ⟨fun saved => FileTree.reloadScene_saveScene,
      fun htree loaded => FileTree.saveScene_eq_ok_iff htree⟩

/-- The document of a layout without what may be missing. -/
def shortDocument : Document := .object [("name", .string "Level")]

/-- A layout that is read from a short text is read again, also from the file of its scene. -/
theorem reload_of_ofText?_of_shortDocument :
    ofText? shortDocument.compact = some ⟨"Level", ∅, [], []⟩ ∧
      ofText? (toText ⟨"Level", ∅, [], []⟩) = some ⟨"Level", ∅, [], []⟩ ∧
      ((∅ : FileTree).saveScene [] "." ⟨"Level", ∅, [], []⟩).2.reloadScene [] "." "Level" =
        .ok (some ⟨"Level", ∅, [], []⟩) := by
  have hload : ofText? shortDocument.compact = some ⟨"Level", ∅, [], []⟩ := by
    rw [ofText?, Document.parse?_compact (by decide), Option.bind_eq_bind, Option.bind_some]
    rfl
  have hdepth : (toDocument ⟨"Level", ∅, [], []⟩).depth ≤ nestingLimit := by decide
  have hsave : ((∅ : FileTree).saveScene [] "." ⟨"Level", ∅, [], []⟩).1 = .ok () := rfl
  obtain ⟨-, hagain, hfiles⟩ := reload_of_ofText? hload
  exact ⟨hload, hagain.trans (if_pos hdepth),
    ((hfiles ∅ [] ".").1 _ (Prod.ext hsave rfl)).trans (if_pos hdepth)⟩

/-- A layout with a tower. -/
def tower (n : Nat) : Layout := ⟨"Tower", ∅, [], [Event.tower n]⟩

/-- The document of a layout with a tower, without what may be missing. -/
def shortTower (n : Nat) : Document :=
  .object [("name", .string "Tower"), ("events", .array [Event.shortTower n])]

theorem readable_shortTower (n : Nat) : (shortTower n).Readable := by
  simp [shortTower, Document.Readable, Document.readable, Document.readableMembers,
    Document.readableItems, Event.readable_shortTower]

theorem depth_shortTower (n : Nat) : (shortTower n).depth = 2 * n + 3 := by
  simp only [shortTower, Document.depth, Document.depthOfMembers, Document.depthOfItems,
    Event.depth_shortTower]
  omega

theorem depth_tower (n : Nat) : (tower n).toDocument.depth = 2 * n + 4 := by
  have hwritten : (tower n).toDocument =
      .object [("name", .string "Tower"), ("events", .array [(Event.tower n).toDocument])] := rfl
  simp only [hwritten, Document.depth, Document.depthOfMembers, Document.depthOfItems,
    Event.depth_tower]
  omega

theorem ofDocument?_shortTower (n : Nat) : ofDocument? (shortTower n) = some (tower n) := by
  have hevent : Event.ofDocument? (Event.shortTower n) = some (Event.tower n) := by
    rw [Event.ofDocument?, if_pos (Event.readable_shortTower n)]
    exact Event.read?_shortTower n false (by rw [Event.depth_shortTower]; omega)
  have hevents : EventTree.ofDocument? (.array [Event.shortTower n]) = some [Event.tower n] := by
    rw [EventTree.ofDocument?, Document.list?, List.mapM_cons, hevent]
    rfl
  have hread : ofDocument? (shortTower n) =
      (EventTree.ofDocument? (.array [Event.shortTower n])).bind fun events =>
        some ⟨"Tower", ∅, [], events⟩ := rfl
  rw [hread, hevents]
  rfl

/-- A layout that is read from a text at the limit need not be read again. -/
theorem not_reload_of_tower :
    ofText? (shortTower 62).compact = some (tower 62) ∧ ofText? (tower 62).toText = none := by
  constructor
  · rw [ofText?, Document.parse?_compact (readable_shortTower 62), Option.bind_eq_bind,
      Option.bind_some, Document.clip_eq_self (by rw [depth_shortTower]; decide),
      ofDocument?_shortTower]
  · exact ofText?_toText_of_lt (by rw [depth_tower]; decide)

end Layout

end SceneLogic
