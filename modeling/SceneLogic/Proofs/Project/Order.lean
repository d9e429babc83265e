import SceneLogic.Proofs.Project.Saving

/-!
# Scenes whatever the order of files

A directory is listed in any order, and it may hold anything: files of other names, names
that are no text, directories with the names of files, files that are no text or give no
layout.  Only scene files count, and what is loaded depends only on which there are.  Under
each name it is what the first scene file with a layout of this name holds.

## Main definitions

* `Project.SceneFile` — a file is a scene file with this layout.

## Main statements

* `FileName.exists_stem` — a name that ends in a text has a text before it.
* `Project.sceneOf?_eq_some_iff` — the files that scenes are loaded from.
* `Project.loadScenes_in_any_order` — what is loaded from a directory.
-/

namespace SceneLogic

/-! ## Names that end in a text -/

/-- No text begins within a character of another, so a name that is a text and ends in a
text has a text before it. -/
theorem FileName.exists_stem {ending spelling : String}
    (h : ofString ending <:+ ofString spelling) : ∃ stem, spelling = stem ++ ending := by
  obtain ⟨lead, hlead⟩ := h
  have hbytes : spelling.toByteArray = ⟨lead.toArray⟩ ++ ending.toByteArray := by
    apply ByteArray.ext
    apply Array.toList_inj.1
    simpa [ofString] using hlead.symm
  have hsize : spelling.utf8ByteSize = lead.length + ending.utf8ByteSize := by
    rw [← String.size_toByteArray, hbytes, ByteArray.size_append, String.size_toByteArray]
    rfl
  have hending : spelling.toByteArray.extract lead.length spelling.utf8ByteSize =
      ending.toByteArray := by
    rw [hbytes]
    exact ByteArray.extract_append_eq_right rfl hsize
  -- What follows the lead is a text, so a character of the spelling begins there.
  have hvalid : String.Pos.Raw.IsValid spelling ⟨lead.length⟩ := by
    rw [String.Pos.Raw.isValid_iff_isValidUTF8_extract_utf8ByteSize, hending]
    exact ⟨by simp [String.Pos.Raw.le_iff, hsize], ending.isValidUTF8⟩
  obtain ⟨stem, rest, rfl, hposition⟩ := String.Pos.Raw.isValid_iff_exists_append.1 hvalid
  have hlength : lead.length = (ofString stem).length := by
    simpa [ofString] using congrArg String.Pos.Raw.byteIdx hposition
  rw [ofString_append] at hlead
  exact ⟨stem, by rw [ofString_injective (List.append_inj hlead hlength).2]⟩

namespace Project

variable {files others : List (FileName × Node)} {file : FileName × Node} {name : String}
  {layout : Layout}

/-! ## Scene files -/

theorem eq_toUTF8_of_text {node : Node} {text : String} (h : node.text = .ok text) :
    node = .file text.toUTF8 := by
  cases node with
  | directory => cases h
  | file content =>
    rw [Node.text] at h
    split at h
    next spelled hspelled =>
      cases h
      simp only [String.fromUTF8?, Option.dite_none_right_eq_some, Option.some.injEq] at hspelled
      obtain ⟨hvalid, rfl⟩ := hspelled
      rfl
    next => cases h

/-- A scene file: its name is a text with the ending of such names, and its content is a text
that gives the layout. -/
inductive SceneFile (layout : Layout) : FileName × Node → Prop where
  | intro (stem text : String) (h : Layout.ofText? text = some layout) :
    SceneFile layout (FileName.ofString (stem ++ sceneEnding), .file text.toUTF8)

theorem isSceneName_iff {name : FileName} :
    isSceneName name = true ↔ ∃ stem, name = FileName.ofString (stem ++ sceneEnding) := by
  rw [isSceneName, Bool.and_eq_true, Option.isSome_iff_exists, List.isSuffixOf_iff_suffix]
  constructor
  · rintro ⟨⟨spelling, hspelling⟩, hending⟩
    rw [← FileName.ofString_of_spelling? hspelling] at hending ⊢
    obtain ⟨stem, rfl⟩ := FileName.exists_stem hending
    exact ⟨stem, rfl⟩
  · rintro ⟨stem, rfl⟩
    refine ⟨⟨_, FileName.spelling?_ofString _⟩, ?_⟩
    rw [FileName.ofString_append]
    exact List.suffix_append _ _

/-- Scenes are loaded from scene files. -/
theorem sceneOf?_eq_some_iff : sceneOf? file = some layout ↔ SceneFile layout file := by
  constructor
  · obtain ⟨name, node⟩ := file
    intro hscene
    have hname := isSceneName_of_sceneOf? hscene
    rw [sceneOf?, if_pos hname, loadScene] at hscene
    obtain ⟨stem, rfl⟩ := isSceneName_iff.1 hname
    split at hscene
    next => cases hscene
    next text htext =>
      obtain rfl := eq_toUTF8_of_text htext
      split at hscene
      next found hfound =>
        cases hscene
        exact .intro stem text hfound
      next => cases hscene
  · rintro ⟨stem, text, h⟩
    rw [sceneOf?, if_pos (isSceneName_iff.2 ⟨stem, rfl⟩), loadScene_toUTF8, h]
    rfl

theorem holds_iff_exists :
    Holds name file ↔ ∃ layout, SceneFile layout file ∧ layout.name = name := by
  simp only [Holds, sceneOf?_eq_some_iff]

/-! ## Directories with the same scene files -/

/-- A source counts in every directory with the same scene files. -/
theorem IsSource.of_same (hsource : IsSource files name file)
    (hsame : ∀ layout file, SceneFile layout file → (file ∈ files ↔ file ∈ others)) :
    IsSource others name file where
  mem := by
    obtain ⟨layout, hscene, -⟩ := holds_iff_exists.1 hsource.holds
    exact (hsame layout file hscene).1 hsource.mem
  holds := hsource.holds
  first other hother hholds := by
    obtain ⟨layout, hscene, -⟩ := holds_iff_exists.1 hholds
    exact hsource.first other ((hsame layout other hscene).2 hother) hholds

theorem loadScenes_congr (hfiles : (files.map (·.1)).Nodup) (hothers : (others.map (·.1)).Nodup)
    (hsame : ∀ layout file, SceneFile layout file → (file ∈ files ↔ file ∈ others)) :
    loadScenes files = loadScenes others := by
  refine NameMap.ext_get? fun name => get?_loadScenes_congr hfiles hothers fun file => ?_
  exact ⟨fun h => h.of_same hsame, fun h => h.of_same fun _ _ hscene => (hsame _ _ hscene).symm⟩

theorem load_congr (source : Source) (hscenes : loadScenes files = loadScenes others) :
    load { source with scenes := .ok files } = load { source with scenes := .ok others } := by
  obtain ⟨found, node, -⟩ := source
  cases found with
  | false => rfl
  | true =>
    cases node with
    | none => rfl
    | some node =>
      cases htext : node.text with
      | error error => simp only [load, htext]
      | ok text =>
        cases hmanifest : Manifest.ofText? text with
        | none => simp only [load, htext, hmanifest]
        | some manifest => simp only [load, htext, hmanifest, hscenes]

/-- **Loading does not depend on the order of files.**  A directory holds files of different
names.  In whatever order it is listed, the same scenes are loaded, and so is the project.
There is a scene of a name exactly if some scene file has a layout of this name, and the scene
is the layout of the first such file in the order of the bytes of file names.  Nothing else in
the directory matters: the same scenes are loaded from any directory with the same scene
files. -/
theorem loadScenes_in_any_order (hnodup : (files.map (·.1)).Nodup) :
    (∀ others, files.Perm others → loadScenes others = loadScenes files ∧
      ∀ source : Source, load { source with scenes := .ok others } =
        load { source with scenes := .ok files }) ∧
    (∀ name, ((loadScenes files).get? name).isSome = true ↔
      ∃ file ∈ files, ∃ layout, SceneFile layout file ∧ layout.name = name) ∧
    (∀ name layout, (loadScenes files).get? name = some layout ↔
      ∃ file ∈ files, SceneFile layout file ∧ layout.name = name ∧
        ∀ other ∈ files, ∀ found, SceneFile found other → found.name = name →
          file.1 ≤ other.1) ∧
    ∀ others : List (FileName × Node), (others.map (·.1)).Nodup →
      (∀ layout file, SceneFile layout file → (file ∈ files ↔ file ∈ others)) →
      loadScenes others = loadScenes files := by
  refine ⟨fun others hperm => ?order, fun name => ?entry, fun name layout => ?first,
    fun others hothers hsame => (loadScenes_congr hnodup hothers hsame).symm⟩
  case order =>
    have hothers := (hperm.map (·.1)).nodup_iff.1 hnodup
    have hscenes := loadScenes_congr hnodup hothers fun _ _ _ => hperm.mem_iff
    exact ⟨hscenes.symm, fun source => load_congr source hscenes.symm⟩
  case entry =>
    constructor
    · intro hsome
      obtain ⟨layout, hlayout⟩ := Option.isSome_iff_exists.1 hsome
      obtain ⟨file, hsource, -⟩ := exists_isSource hlayout
      exact ⟨file, hsource.mem, holds_iff_exists.1 hsource.holds⟩
    · rintro ⟨file, hmem, hholds⟩
      exact isSome_get?_loadScenes hmem (holds_iff_exists.2 hholds)
  case first =>
    rw [get?_loadScenes_eq_some hnodup]
    constructor
    · rintro ⟨file, hsource, hscene⟩
      refine ⟨file, hsource.mem, sceneOf?_eq_some_iff.1 hscene,
        (holds_iff hscene).1 hsource.holds, fun other hother found hfound hname => ?_⟩
      exact hsource.first other hother (holds_iff_exists.2 ⟨found, hfound, hname⟩)
    · rintro ⟨file, hmem, hscene, hname, hfirst⟩
      refine ⟨file, ⟨hmem, holds_iff_exists.2 ⟨layout, hscene, hname⟩, ?_⟩,
        sceneOf?_eq_some_iff.2 hscene⟩
      intro other hother hholds
      obtain ⟨found, hfound, hother'⟩ := holds_iff_exists.1 hholds
      exact hfirst other hother found hfound hother'

/-! ## A directory of all kinds of files -/

/-- Two files with a level. -/
def levelFiles : List (FileName × Node) :=
  [(sceneFile "b", .file level.toText.toUTF8), (sceneFile "a", .file oldLevel.toText.toUTF8)]

/-- A file that is no layout, a directory, a file of another name, and one whose name is no
text. -/
def strayFiles : List (FileName × Node) :=
  [(sceneFile "0", .file "[".toUTF8), (sceneFile "00", .directory),
    (FileName.ofString "README", .file level.toText.toUTF8),
    (255 :: sceneFile "0", .file level.toText.toUTF8)]

/-- The level is loaded from the file that comes first by its name, though it is listed last.
The same is loaded if the files are listed the other way round, and if the stray files are not
there. -/
theorem loadScenes_in_any_order_of_strayFiles :
    let files := strayFiles ++ levelFiles
    (files.map (·.1)).Nodup ∧ loadScenes files.reverse = loadScenes files ∧
      (loadScenes files).get? "Level" = some oldLevel ∧
      loadScenes levelFiles = loadScenes files := by
  intro files
  have hnodup : (files.map (·.1)).Nodup := by decide +kernel
  obtain ⟨horder, -, hfirst, hothers⟩ := loadScenes_in_any_order hnodup
  have hstray : ∀ file ∈ strayFiles, sceneOf? file = none := by decide +kernel
  have hscene (layout : Layout) (file : FileName × Node) (h : SceneFile layout file) :
      file ∈ files ↔ file ∈ levelFiles := by
    rw [List.mem_append, or_iff_right]
    intro hmem
    rw [← sceneOf?_eq_some_iff, hstray file hmem] at h
    cases h
  have hlast : (sceneFile "a", .file oldLevel.toText.toUTF8) ∈ levelFiles :=
    List.mem_cons_of_mem _ (List.mem_singleton_self _)
  have hlevel : Layout.ofText? oldLevel.toText = some oldLevel :=
    Layout.ofText?_toText_of_le (by decide)
  have hleast : ∀ other ∈ levelFiles, sceneFile "a" ≤ other.1 := by decide +kernel
  refine ⟨hnodup, (horder _ files.reverse_perm.symm).1, (hfirst "Level" oldLevel).2 ?_,
    hothers levelFiles (by decide +kernel) hscene⟩
  refine ⟨_, List.mem_append_right _ hlast, .intro _ _ hlevel, rfl, ?_⟩
  intro other hmem found hfound hname
  exact hleast other ((hscene found other hfound).1 hmem)

end Project

end SceneLogic
