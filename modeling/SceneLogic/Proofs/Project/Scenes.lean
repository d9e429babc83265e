import SceneLogic.Project.Basic

/-!
# Which file a scene is loaded from

A file holds a scene if its name is that of a scene file and its text gives a layout.  Of
the files that hold a scene of one name the first in the order of the file names counts,
in whatever order the directory is listed.  So replacing one file changes the scene whose
name it held and the scene whose name it holds now, and no other.

## Main definitions

* `Project.sceneOf?` — the scene that a file holds.
* `Project.Holds`, `Project.IsSource` — a file holds a scene of a name, and is the one
  that counts for it.

## Main statements

* `Project.get?_loadScenes_eq_some` — a scene is loaded from its source.
* `Project.get?_loadScenes_replace_self`, `Project.get?_loadScenes_replace` — what is
  loaded after one file was replaced.
-/

namespace SceneLogic

namespace Project

variable {files : List (FileName × Node)} {file : FileName × Node} {name : String}

/-- The scene that a file holds. -/
def sceneOf? (file : FileName × Node) : Option Layout :=
  if isSceneName file.1 then (loadScene file.2).toOption else none

/-- The file holds a scene of this name. -/
def Holds (name : String) (file : FileName × Node) : Prop :=
  ∃ layout, sceneOf? file = some layout ∧ layout.name = name

/-- The file that counts for the scene of a name: of those that hold one it is the first in
the order of the file names. -/
structure IsSource (files : List (FileName × Node)) (name : String)
    (file : FileName × Node) : Prop where
  mem : file ∈ files
  holds : Holds name file
  first : ∀ other ∈ files, Holds name other → file.1 ≤ other.1

theorem holds_iff {layout : Layout} (hscene : sceneOf? file = some layout) :
    Holds name file ↔ layout.name = name := by
  simp [Holds, hscene]

/-! ## Loading -/

theorem isSceneName_of_sceneOf? {layout : Layout} (hscene : sceneOf? file = some layout) :
    isSceneName file.1 = true := by
  by_cases hname : isSceneName file.1 = true
  · exact hname
  · rw [sceneOf?, if_neg hname] at hscene
    cases hscene

/-- Of the scenes that are added the first of each name stays. -/
theorem get?_foldl_addScene (scenes : NameMap Layout) (layouts : List Layout) (name : String) :
    (layouts.foldl addScene scenes).get? name =
      (scenes.get? name).or (layouts.find? fun layout => layout.name = name) := by
  induction layouts generalizing scenes with
  | nil => simp
  | cons layout layouts ih =>
    have hadded : (addScene scenes layout).get? name =
        (scenes.get? name).or (if layout.name = name then some layout else none) := by
      unfold addScene
      split
      next hold =>
        by_cases hname : layout.name = name
        · subst hname
          obtain ⟨kept, hkept⟩ := Option.isSome_iff_exists.1 hold
          simp [hkept]
        · simp [hname]
      next hnew =>
        by_cases hname : layout.name = name
        · subst hname
          simp only [NameMap.contains, Bool.not_eq_true, Option.isSome_eq_false_iff,
            Option.isNone_iff_eq_none] at hnew
          simp [hnew]
        · simp [hname, Ne.symm hname]
    rw [List.foldl_cons, ih, hadded, Option.or_assoc]
    congr 1
    by_cases hname : layout.name = name <;> simp [hname]

/-- The scene files in the order in which they are loaded. -/
def inOrder (files : List (FileName × Node)) : List (FileName × Node) :=
  (files.filter fun file => isSceneName file.1).mergeSort fun a b => decide (a.1 ≤ b.1)

theorem mem_inOrder : file ∈ inOrder files ↔ file ∈ files ∧ isSceneName file.1 = true := by
  rw [inOrder, List.mem_mergeSort, List.mem_filter]

theorem pairwise_inOrder (files : List (FileName × Node)) :
    (inOrder files).Pairwise fun a b => a.1 ≤ b.1 := by
  have hsorted : (inOrder files).Pairwise fun a b => decide (a.1 ≤ b.1) = true :=
    List.pairwise_mergeSort
      (fun a b c hab hbc => by
        simpa using List.le_trans (of_decide_eq_true hab) (of_decide_eq_true hbc))
      (fun a b => by simpa using List.le_total a.1 b.1)
      (files.filter fun file => isSceneName file.1)
  exact hsorted.imp fun h => of_decide_eq_true h

/-- A scene of the name, if the file holds one. -/
def named? (name : String) (file : FileName × Node) : Option Layout :=
  (sceneOf? file).filter fun layout => layout.name = name

theorem named?_eq_some {layout : Layout} :
    named? name file = some layout ↔ sceneOf? file = some layout ∧ layout.name = name := by
  simp [named?, Option.filter_eq_some_iff]

theorem get?_loadScenes (files : List (FileName × Node)) (name : String) :
    (loadScenes files).get? name = (inOrder files).findSome? (named? name) := by
  have hload : loadScenes files =
      ((inOrder files).filterMap fun file => (loadScene file.2).toOption).foldl addScene ∅ := rfl
  have hempty : (∅ : NameMap Layout).get? name = none := rfl
  rw [hload, get?_foldl_addScene, hempty, Option.none_or]
  have hscene : ∀ file ∈ inOrder files, sceneOf? file = (loadScene file.2).toOption := by
    intro file hfile
    rw [sceneOf?, if_pos (mem_inOrder.1 hfile).2]
  generalize inOrder files = sorted at hscene ⊢
  induction sorted with
  | nil => rfl
  | cons file rest ih =>
    rw [List.forall_mem_cons] at hscene
    rw [List.filterMap_cons, List.findSome?_cons, named?, ← hscene.1]
    cases hfile : sceneOf? file with
    | none => simpa using ih hscene.2
    | some layout =>
      by_cases hname : layout.name = name
      · simp [hname, Option.filter]
      · simpa [hname, Option.filter] using ih hscene.2

/-- What is loaded under a name comes from a source. -/
theorem exists_isSource {layout : Layout} (hlayout : (loadScenes files).get? name = some layout) :
    ∃ file, IsSource files name file ∧ sceneOf? file = some layout := by
  rw [get?_loadScenes, List.findSome?_eq_some_iff] at hlayout
  obtain ⟨before, file, after, hsplit, hnamed, hbefore⟩ := hlayout
  obtain ⟨hscene, hname⟩ := named?_eq_some.1 hnamed
  have hsorted := pairwise_inOrder files
  rw [hsplit, List.pairwise_append, List.pairwise_cons] at hsorted
  have hfile : file ∈ inOrder files := by simp [hsplit]
  refine ⟨file, ⟨(mem_inOrder.1 hfile).1, ⟨layout, hscene, hname⟩, ?_⟩, hscene⟩
  rintro other hother ⟨scene, hotherScene, hotherName⟩
  have hmem : other ∈ before ++ file :: after :=
    hsplit ▸ mem_inOrder.2 ⟨hother, isSceneName_of_sceneOf? hotherScene⟩
  rcases List.mem_append.1 hmem with hmem | hmem
  · have hskipped := hbefore other hmem
    rw [named?_eq_some.2 ⟨hotherScene, hotherName⟩] at hskipped
    cases hskipped
  · rcases List.mem_cons.1 hmem with rfl | hmem
    · exact List.le_refl _
    · exact hsorted.2.1.1 other hmem

/-- A name that some file holds a scene of is loaded. -/
theorem isSome_get?_loadScenes (hmem : file ∈ files) (hholds : Holds name file) :
    ((loadScenes files).get? name).isSome = true := by
  obtain ⟨layout, hscene, hname⟩ := hholds
  have hfile := mem_inOrder.2 ⟨hmem, isSceneName_of_sceneOf? hscene⟩
  rw [get?_loadScenes, List.findSome?_isSome_iff]
  exact ⟨file, hfile, by rw [named?_eq_some.2 ⟨hscene, hname⟩]; rfl⟩

/-- The files of a directory have different names, so there is one source at most. -/
theorem IsSource.unique (hnodup : (files.map (·.1)).Nodup) {other : FileName × Node}
    (hfile : IsSource files name file) (hother : IsSource files name other) : file = other := by
  have hname : file.1 = other.1 :=
    List.le_antisymm (hfile.first other hother.mem hother.holds)
      (hother.first file hfile.mem hfile.holds)
  have hnode := (lookup_eq_some_iff_mem hnodup).2 hfile.mem
  rw [hname, (lookup_eq_some_iff_mem hnodup).2 hother.mem, Option.some.injEq] at hnode
  exact Prod.ext hname hnode.symm

/-- **A scene is loaded from its source.** -/
theorem get?_loadScenes_eq_some (hnodup : (files.map (·.1)).Nodup) {layout : Layout} :
    (loadScenes files).get? name = some layout ↔
      ∃ file, IsSource files name file ∧ sceneOf? file = some layout := by
  refine ⟨exists_isSource, ?_⟩
  rintro ⟨file, hsource, hscene⟩
  obtain ⟨found, hfound⟩ :=
    Option.isSome_iff_exists.1 (isSome_get?_loadScenes hsource.mem hsource.holds)
  obtain ⟨other, hother, hotherScene⟩ := exists_isSource hfound
  rw [hsource.unique hnodup hother, hotherScene] at hscene
  rw [hfound, hscene]

/-- Directories in which a name has the same source give it the same scene. -/
theorem get?_loadScenes_congr {others : List (FileName × Node)}
    (hfiles : (files.map (·.1)).Nodup) (hothers : (others.map (·.1)).Nodup)
    (hsource : ∀ file, IsSource files name file ↔ IsSource others name file) :
    (loadScenes files).get? name = (loadScenes others).get? name := by
  ext layout
  rw [get?_loadScenes_eq_some hfiles, get?_loadScenes_eq_some hothers]
  simp only [hsource]

/-! ## Projects -/

/-- The manifest that is found. -/
def manifest? (source : Source) : Option Manifest :=
  source.manifest.bind fun node => node.text.toOption.bind Manifest.ofText?

theorem isSome_manifest {source : Source} {manifest : Manifest}
    (hmanifest : manifest? source = some manifest) : source.manifest.isSome = true := by
  obtain ⟨node, hnode, -⟩ := Option.bind_eq_some_iff.1 hmanifest
  rw [hnode, Option.isSome_some]

theorem load_eq_ok {source : Source} {project : Project} :
    load source = .ok project ↔
      source.found = true ∧ ∃ manifest, manifest? source = some manifest ∧
        ∃ files, source.scenes = .ok files ∧ ⟨manifest, loadScenes files⟩ = project := by
  obtain ⟨found, node, scenes⟩ := source
  cases found with
  | false => simp [load]
  | true =>
    cases node with
    | none => simp [load, manifest?]
    | some node =>
      cases htext : node.text with
      | error _ => simp [load, manifest?, htext, Except.toOption]
      | ok text =>
        cases hmanifest : Manifest.ofText? text <;> cases scenes <;>
          simp [load, manifest?, htext, hmanifest, Except.toOption]

/-! ## Replacing a file -/

/-- A directory after a file was written: it takes the place of the one of its name. -/
def replace (file : FileName × Node) (files : List (FileName × Node)) :
    List (FileName × Node) :=
  file :: files.filter (·.1 ≠ file.1)

theorem nodup_filter (hnodup : (files.map (·.1)).Nodup) (keep : FileName × Node → Bool) :
    ((files.filter keep).map (·.1)).Nodup :=
  hnodup.sublist (List.filter_sublist.map _)

theorem nodup_replace (hnodup : (files.map (·.1)).Nodup) (file : FileName × Node) :
    ((replace file files).map (·.1)).Nodup := by
  rw [replace, List.map_cons, List.nodup_cons]
  refine ⟨?_, nodup_filter hnodup _⟩
  simp

theorem mem_replace {other : FileName × Node} :
    other ∈ replace file files ↔ other = file ∨ other ∈ files ∧ other.1 ≠ file.1 := by
  simp [replace]

/-- The scene in the new file is loaded, unless a file before it holds one of its name. -/
theorem get?_loadScenes_replace_self (hnodup : (files.map (·.1)).Nodup) {layout : Layout}
    (hscene : sceneOf? file = some layout)
    (hfirst : ∀ other ∈ files, other.1 < file.1 → ¬ Holds layout.name other) :
    (loadScenes (replace file files)).get? layout.name = some layout := by
  rw [get?_loadScenes_eq_some (nodup_replace hnodup file)]
  refine ⟨file, ⟨mem_replace.2 (.inl rfl), ⟨layout, hscene, rfl⟩, ?_⟩, hscene⟩
  intro other hother hholds
  rcases mem_replace.1 hother with rfl | ⟨hold, -⟩
  · exact List.le_refl _
  · exact List.not_lt.1 fun hlt => hfirst other hold hlt hholds

/-- A scene that a file before the new one holds is loaded as it was. -/
theorem get?_loadScenes_replace_of_lt (hnodup : (files.map (·.1)).Nodup)
    {earlier : FileName × Node} (hmem : earlier ∈ files) (hlt : earlier.1 < file.1)
    (hholds : Holds name earlier) :
    (loadScenes (replace file files)).get? name = (loadScenes files).get? name := by
  have hne : earlier.1 ≠ file.1 := fun heq => List.lt_irrefl _ (heq ▸ hlt)
  apply get?_loadScenes_congr (nodup_replace hnodup file) hnodup
  intro source
  constructor
  · intro hsource
    have hle : source.1 ≤ earlier.1 :=
      hsource.first earlier (mem_replace.2 (.inr ⟨hmem, hne⟩)) hholds
    have hsourceLt := List.lt_of_le_of_lt hle hlt
    refine ⟨?_, hsource.holds, fun other hother hotherHolds => ?_⟩
    · rcases mem_replace.1 hsource.mem with rfl | ⟨hold, -⟩
      · exact absurd hsourceLt (List.lt_irrefl _)
      · exact hold
    · by_cases hname : other.1 = file.1
      · rw [hname]
        exact List.le_of_lt hsourceLt
      · exact hsource.first other (mem_replace.2 (.inr ⟨hother, hname⟩)) hotherHolds
  · intro hsource
    have hsourceLt := List.lt_of_le_of_lt (hsource.first earlier hmem hholds) hlt
    have hkept : source.1 ≠ file.1 := fun heq => List.lt_irrefl _ (heq ▸ hsourceLt)
    refine ⟨mem_replace.2 (.inr ⟨hsource.mem, hkept⟩), hsource.holds, ?_⟩
    intro other hother hotherHolds
    rcases mem_replace.1 hother with rfl | ⟨hold, -⟩
    · exact List.le_of_lt hsourceLt
    · exact hsource.first other hold hotherHolds

/-- The scene of another name is loaded as if the new file were not there. -/
theorem get?_loadScenes_replace (hnodup : (files.map (·.1)).Nodup)
    (hother : ¬ Holds name file) :
    (loadScenes (replace file files)).get? name =
      (loadScenes (files.filter (·.1 ≠ file.1))).get? name := by
  apply get?_loadScenes_congr (nodup_replace hnodup file) (nodup_filter hnodup _)
  intro source
  constructor
  · intro hsource
    refine ⟨?_, hsource.holds, fun other hmem hholds => ?_⟩
    · rcases List.mem_cons.1 hsource.mem with rfl | hmem
      · exact absurd hsource.holds hother
      · exact hmem
    · exact hsource.first other (List.mem_cons_of_mem _ hmem) hholds
  · intro hsource
    refine ⟨List.mem_cons_of_mem _ hsource.mem, hsource.holds, fun other hmem hholds => ?_⟩
    rcases List.mem_cons.1 hmem with rfl | hmem
    · exact absurd hholds hother
    · exact hsource.first other hmem hholds

/-- A file that is not the source of a scene can be left out. -/
theorem get?_loadScenes_filter (hnodup : (files.map (·.1)).Nodup) {dropped : FileName}
    (hsource : ∀ file, IsSource files name file → file.1 ≠ dropped) :
    (loadScenes (files.filter (·.1 ≠ dropped))).get? name = (loadScenes files).get? name := by
  apply get?_loadScenes_congr (nodup_filter hnodup _) hnodup
  intro source
  constructor
  · intro hkept
    refine ⟨(List.mem_filter.1 hkept.mem).1, hkept.holds, fun other hother hholds => ?_⟩
    -- A dropped file before the source would be a source itself.
    refine List.not_lt.1 fun hlt => ?_
    have hdropped : other.1 = dropped := by
      refine Decidable.byContradiction fun hne => ?_
      have hle := hkept.first other (List.mem_filter.2 ⟨hother, decide_eq_true hne⟩) hholds
      exact List.not_lt.2 hle hlt
    refine hsource other ⟨hother, hholds, fun third hthird hthirdHolds => ?_⟩ hdropped
    by_cases hname : third.1 = dropped
    · rw [hdropped, hname]
      exact List.le_refl _
    · have hle := hkept.first third (List.mem_filter.2 ⟨hthird, decide_eq_true hname⟩) hthirdHolds
      exact List.le_trans (List.le_of_lt hlt) hle
  · intro hwhole
    have hname := hsource source hwhole
    refine ⟨List.mem_filter.2 ⟨hwhole.mem, decide_eq_true hname⟩, hwhole.holds, ?_⟩
    intro other hother
    exact hwhole.first other ((List.mem_filter.1 hother).1)

end Project

end SceneLogic
