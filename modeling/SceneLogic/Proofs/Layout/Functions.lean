import SceneLogic.Layout
import SceneLogic.Proofs.Event.Paths
import SceneLogic.Proofs.Event.Symbol

/-!
# The functions of a layout

A layout is asked for a function by name, and it is asked for all of them with their symbols.
The two questions are answered by recursions of their own.  Both are compared here with the
paths of the events: each list has one entry for every path that leads to a function, in the
order of the paths, and a name finds what stands at its first entry.

Functions of one name are entries of their own, with one symbol; calls find the first.

## Main definitions

* `FirstAt` — the first item of a list that passes a test.

## Main statements

* `find?_eq_some_iff_firstAt` — what is found is the first item that passes.
* `Layout.look_up_agrees_with_listing` — functions are found where they are listed first.
-/

namespace SceneLogic

/-! ## First items -/

/-- The item at a position of a list passes a test, and no item before it does. -/
structure FirstAt {α : Type u} (test : α → Prop) (list : List α) (position : Nat) (item : α) :
    Prop where
  item_eq : list[position]? = some item
  passes : test item
  earlier : ∀ before < position, ∀ other, list[before]? = some other → ¬ test other

section FirstAt

variable {α : Type u} {β : Type v} {test : α → Prop} {list : List α} {position : Nat} {item : α}

theorem find?_eq_some_iff_firstAt [DecidablePred test] :
    list.find? (test ·) = some item ↔ ∃ position, FirstAt test list position item := by
  rw [List.find?_eq_some_iff_getElem]
  constructor
  · rintro ⟨hpasses, position, hlt, rfl, hearlier⟩
    refine ⟨position, List.getElem?_eq_getElem hlt, of_decide_eq_true hpasses, ?_⟩
    intro before hbefore other hother
    obtain ⟨_, rfl⟩ := List.getElem?_eq_some_iff.1 hother
    simpa using hearlier before hbefore
  · rintro ⟨position, hitem, hpasses, hearlier⟩
    obtain ⟨hlt, heq⟩ := List.getElem?_eq_some_iff.1 hitem
    refine ⟨decide_eq_true hpasses, position, hlt, heq, fun before hbefore => ?_⟩
    simpa using hearlier before hbefore _ (List.getElem?_eq_getElem (Nat.lt_trans hbefore hlt))

/-- Items keep their positions when a list is mapped. -/
theorem FirstAt.map {other : β → Prop} (h : FirstAt test list position item) (change : α → β)
    (hchange : ∀ item, other (change item) ↔ test item) :
    FirstAt other (list.map change) position (change item) where
  item_eq := by rw [List.getElem?_map, h.item_eq, Option.map_some]
  passes := (hchange item).2 h.passes
  earlier before hbefore changed hchanged := by
    rw [List.getElem?_map, Option.map_eq_some_iff] at hchanged
    obtain ⟨original, horiginal, rfl⟩ := hchanged
    exact fun hpasses => h.earlier before hbefore original horiginal ((hchange original).1 hpasses)

end FirstAt

namespace Layout

/-- **Looking functions up agrees with listing them.**  The functions of a layout and their
symbols are listed in the lexicographic order of the paths to the functions, once for every
path that leads to one.  Nothing is found under a name exactly if no listed function has it;
what is found is the first listed function of the name, and at its position stands the first
entry of the name among the symbols.  Two entries have one symbol exactly if they have one
name. -/
theorem look_up_agrees_with_listing (layout : Layout) :
    let functions := EventTree.functions layout.events
    (∃ paths : List (List Nat), paths.Pairwise (· < ·) ∧
      (∀ path, path ∈ paths ↔ ∃ function, layout.events.functionAt? path = some function) ∧
      List.Forall₂ (fun path function => layout.events.functionAt? path = some function)
        paths functions ∧
      List.Forall₂ (fun path entry => ∃ function,
        layout.events.functionAt? path = some function ∧ entry =
          (function.signature.name, functionSymbol layout.name function.signature.name))
        paths layout.functionSymbols) ∧
    (∀ name, layout.findFunction? name = none ↔
      ∀ function ∈ functions, function.signature.name ≠ name) ∧
    (∀ name function, layout.findFunction? name = some function ↔ ∃ position,
      FirstAt (·.signature.name = name) functions position function ∧
      FirstAt (·.1 = name) layout.functionSymbols position
        (name, functionSymbol layout.name name)) ∧
    ∀ entry ∈ layout.functionSymbols, ∀ other ∈ layout.functionSymbols,
      entry.2 = other.2 ↔ entry.1 = other.1 := by
  intro functions
  have hfind (name : String) : layout.findFunction? name =
      functions.find? (·.signature.name = name) := EventTree.findFunction?_eq_find? name _
  have hpaths : List.Forall₂ (fun path function => layout.events.functionAt? path = some function)
      layout.events.functionPaths functions := by
    have hfunctions := layout.events.map_functionAt?
    rwa [← List.forall₂_eq_eq_eq, List.forall₂_map_left_iff, List.forall₂_map_right_iff]
      at hfunctions
  refine ⟨⟨layout.events.functionPaths, layout.events.pairwise_functionPaths,
    fun path => EventTree.mem_functionPaths, hpaths, ?symbols⟩, fun name => ?none,
    fun name function => ?some, ?names⟩
  case symbols =>
    exact List.forall₂_map_right_iff.2 (hpaths.imp fun path function h => ⟨function, h, rfl⟩)
  case none =>
    rw [hfind, List.find?_eq_none]
    simp only [decide_eq_true_eq, ne_eq]
  case some =>
    rw [hfind, find?_eq_some_iff_firstAt]
    refine exists_congr fun position => ⟨fun hfirst => ⟨hfirst, ?_⟩, And.left⟩
    have hentry : FirstAt (·.1 = name) layout.functionSymbols position
        (function.signature.name, functionSymbol layout.name function.signature.name) :=
      hfirst.map _ fun _ => Iff.rfl
    rwa [hfirst.passes] at hentry
  case names =>
    intro entry hentry other hother
    obtain ⟨first, -, rfl⟩ := List.mem_map.1 hentry
    obtain ⟨second, -, rfl⟩ := List.mem_map.1 hother
    rw [functionSymbol_inj]
    exact and_iff_right rfl

/-- A function without instructions. -/
def bareFunction (name : String) (events : EventTree) : Event :=
  .branch ⟨false, false⟩ (.function ⟨name, ""⟩ ⟨[], []⟩) events

/-- A function in a disabled group, one of another name below it, and the first name again. -/
def doubledLayout : Layout :=
  ⟨"Level", ∅, [], [
    .branch ⟨true, false⟩ (.group ⟨"Open", "", 0, [], .group⟩)
      [.comment ⟨false, false⟩ ⟨"", .comment, .commentText⟩,
        bareFunction "Open" [bareFunction "Close" []]],
    bareFunction "Open" []]⟩

/-- The first of the two functions is found, which has another below it and is in the group.
All three are listed, in the order of their paths, and the two have one symbol. -/
theorem look_up_agrees_with_listing_of_doubledLayout :
    let found : Function := ⟨⟨false, false⟩, ⟨"Open", ""⟩, ⟨[], []⟩, [bareFunction "Close" []]⟩
    doubledLayout.functionSymbols =
        [("Open", "evfn__Level__Open"), ("Close", "evfn__Level__Close"),
          ("Open", "evfn__Level__Open")] ∧
      doubledLayout.findFunction? "Missing" = none ∧
      doubledLayout.findFunction? "Open" = some found ∧
      ∃ position, FirstAt (·.1 = "Open") doubledLayout.functionSymbols position
        ("Open", "evfn__Level__Open") := by
  intro found
  obtain ⟨-, hnone, hsome, -⟩ := look_up_agrees_with_listing doubledLayout
  have hfound : doubledLayout.findFunction? "Open" = some found := rfl
  obtain ⟨position, -, hentry⟩ := (hsome "Open" found).1 hfound
  exact ⟨by decide +kernel, (hnone "Missing").2 (by decide +kernel), hfound, position, hentry⟩

end Layout

end SceneLogic
