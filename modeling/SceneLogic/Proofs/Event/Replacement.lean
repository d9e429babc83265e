import Mathlib.Data.List.Forall2
import SceneLogic.Proofs.Event.Alike

/-!
# Replacing an event

An event somewhere in a tree is replaced by another one.  Where a path says where it is,
this is the setter of that path; the proofs follow the tree down to it instead.

An event may be replaced by one of the same outline, which has other conditions and
actions in it and below it.  The functions of the tree then keep their headings and their
order.  If the event is disabled, nothing of it runs where it stands, before and after; what
may change are the functions below it.

## Main definitions

* `Event.outline` — an event without any conditions and actions.
* `EventTree.Replaces` — trees that differ in an event.
* `EventTree.LeadsTo` — the event that a path leads to, along the path.

## Main statements

* `EventTree.replaces_setEventAt` — replacing the event that a path leads to.
* `EventTree.alike_of_replaces` — replacing a disabled event by one of the same outline.
-/

namespace SceneLogic

/-! ## Outlines -/

/-- The header of an event without its conditions and actions. -/
def Header.outline : Header → Header
  | .standard _ => .standard ⟨[], []⟩
  | .group info => .group info
  | .function signature _ => .function signature ⟨[], []⟩

mutual

/-- An event without its conditions and actions and those of all events below it. -/
def Event.outline : Event → Event
  | .branch flags header events => .branch flags header.outline (EventTree.outline events)
  | .comment flags note => .comment flags note

/-- A tree without conditions and actions. -/
def EventTree.outline : List Event → List Event
  | [] => []
  | event :: events => event.outline :: EventTree.outline events

end

theorem Event.flags_outline (event : Event) : event.outline.flags = event.flags := by
  cases event <;> rfl

/-- What an outline tells of a function. -/
def Function.heading (function : Function) : Flags × Signature :=
  (function.flags, function.signature)

mutual

theorem Event.headings_outline :
    ∀ event : Event, (EventTree.functions [event.outline]).map Function.heading =
      (EventTree.functions [event]).map Function.heading
  | .comment _ _ => rfl
  | .branch flags header events => by
    rw [Event.outline, EventTree.functions_branch, EventTree.functions_branch, List.map_append,
      List.map_append, EventTree.headings_outline events]
    cases header <;> rfl

/-- The functions of an outline are those of the tree, by their headings. -/
theorem EventTree.headings_outline :
    ∀ events : List Event, (EventTree.functions (EventTree.outline events)).map Function.heading =
      (EventTree.functions events).map Function.heading
  | [] => rfl
  | event :: events => by
    rw [EventTree.outline, EventTree.functions_cons event.outline, EventTree.functions_cons event,
      List.map_append, List.map_append, Event.headings_outline event,
      EventTree.headings_outline events]

end

namespace EventTree

/-! ## Trees that differ in an event -/

/-- The second tree has a replacement in the place of an event of the first. -/
inductive Replaces (event replacement : Event) : List Event → List Event → Prop where
  | here (rest : List Event) : Replaces event replacement (event :: rest) (replacement :: rest)
  | later (first : Event) {events others : List Event} (h : Replaces event replacement events others) :
    Replaces event replacement (first :: events) (first :: others)
  | deeper (flags : Flags) (header : Header) (rest : List Event) {events others : List Event}
    (h : Replaces event replacement events others) :
    Replaces event replacement (.branch flags header events :: rest)
      (.branch flags header others :: rest)

variable {event replacement : Event}

/-- Changing one event of a list replaces what the change replaces. -/
theorem replaces_modify {tree : EventTree} {index : Nat} {found : Event} {change : Event → Event}
    (hfound : tree[index]? = some found)
    (hchange : ∀ rest, Replaces event replacement (found :: rest) (change found :: rest)) :
    Replaces event replacement tree (tree.modify index change) := by
  induction tree generalizing index with
  | nil => cases hfound
  | cons first rest ih =>
    cases index with
    | zero =>
      cases hfound
      exact hchange rest
    | succ index => exact .later first (ih hfound)

/-- The path leads to the event: the event is at its last position, in the tree that the
positions before it lead to. -/
inductive LeadsTo (event : Event) : List Nat → List Event → Prop where
  | here {index : Nat} {tree : List Event} (found : tree[index]? = some event) :
    LeadsTo event [index] tree
  | inside {index next : Nat} {path : List Nat} {tree events : List Event} {flags : Flags}
    {header : Header} (found : tree[index]? = some (.branch flags header events))
    (rest : LeadsTo event (next :: path) events) : LeadsTo event (index :: next :: path) tree

theorem leadsTo_of_eventAt {path : List Nat} {tree : EventTree}
    (h : tree.eventAt path = .ok event) : LeadsTo event path tree := by
  induction path generalizing tree with
  | nil => cases h
  | cons index path ih =>
    cases path with
    | nil =>
      simp only [eventAt] at h
      split at h
      · cases h
      next found hfound =>
        cases h
        exact .here hfound
    | cons next path =>
      simp only [eventAt] at h
      split at h
      · cases h
      next found hfound =>
        cases found with
        | comment flags note => cases h
        | branch flags header events => exact .inside hfound (ih h)

/-- The setter of a path replaces the event that the path leads to. -/
theorem LeadsTo.replaces {path : List Nat} {tree : EventTree} (h : LeadsTo event path tree) :
    Replaces event replacement tree (tree.setEventAt path replacement) := by
  induction h with
  | here found => exact replaces_modify found .here
  | inside found _ ih => exact replaces_modify found fun rest => .deeper _ _ rest ih

theorem replaces_setEventAt {path : List Nat} {tree : EventTree}
    (h : tree.eventAt path = .ok event) :
    Replaces event replacement tree (tree.setEventAt path replacement) :=
  (leadsTo_of_eventAt h).replaces

/-- Where an idle event is replaced by an idle one, events run alike. -/
theorem Replaces.runsLike {tree other : EventTree} (h : Replaces event replacement tree other)
    (hevent : event.IsIdle) (hreplacement : replacement.IsIdle) :
    EventTree.RunsLike tree other := by
  induction h with
  | here rest => exact .cons (.idle hevent hreplacement) (.refl rest)
  | later first _ ih => exact .cons (.refl first) ih
  | deeper flags header rest _ ih =>
    refine .cons ?_ (.refl rest)
    cases header with
    | standard body => exact .standard rfl body ih
    | group info => exact .group rfl info info ih
    | function signature body => exact .idle (.inr (.inl rfl)) (.inr (.inl rfl))

/-! ## The functions of trees that differ in an event -/

/-- A function in the place of another: it has the same heading, and its calls do the same
unless the other is one of a list. -/
structure Stands (below : List Function) (function other : Function) : Prop where
  heading : function.heading = other.heading
  runsLike_or_mem : function.RunsLike other ∨ function ∈ below

theorem stands_refl (below functions : List Function) :
    List.Forall₂ (Stands below) functions functions :=
  List.forall₂_same.2 fun function _ => ⟨rfl, .inl (.refl function)⟩

/-- An event that keeps its header stands for itself as a function, if what runs of its
sub-events does the same. -/
theorem stands_function? (below : List Function) (flags : Flags) (header : Header)
    {events others : List Event} (h : EventTree.RunsLike events others) :
    List.Forall₂ (Stands below) (Event.branch flags header events).function?.toList
      (Event.branch flags header others).function?.toList := by
  cases header with
  | standard body | group info => exact .nil
  | function signature body =>
    exact .cons ⟨rfl, .inl ⟨rfl, fun _ => rfl, fun _ => rfl, fun _ => h⟩⟩ .nil

theorem stands_of_headings {functions others : List Function}
    (h : functions.map Function.heading = others.map Function.heading) :
    List.Forall₂ (Stands functions) functions others := by
  have hheadings : List.Forall₂ (fun function other : Function =>
      function.heading = other.heading) functions others := by
    rw [← List.forall₂_eq_eq_eq, List.forall₂_map_left_iff, List.forall₂_map_right_iff] at h
    exact h
  have hmem := (List.forall₂_and_left _ _).2
    ⟨fun function (h : function ∈ functions) => h, hheadings⟩
  exact hmem.imp fun function other ⟨hmem, hheading⟩ => ⟨hheading, .inr hmem⟩

/-- A disabled event and one of the same outline have functions of the same headings, of
which only those below the event may do something else. -/
theorem stands_of_outline (hdisabled : event.flags.disabled = true)
    (houtline : replacement.outline = event.outline) :
    List.Forall₂ (Stands (functions event.children)) (functions [event])
      (functions [replacement]) := by
  cases event with
  | comment flags note =>
    cases replacement with
    | comment other otherNote => exact .nil
    | branch other header events => cases houtline
  | branch flags header events =>
    cases replacement with
    | comment other note => cases houtline
    | branch other otherHeader others =>
      simp only [Event.outline, Event.branch.injEq] at houtline
      obtain ⟨rfl, hheader, hevents⟩ := houtline
      have hbelow : (functions events).map Function.heading =
          (functions others).map Function.heading := by
        rw [← headings_outline events, ← headings_outline others, hevents]
      rw [functions_branch, functions_branch]
      refine List.rel_append ?_ (stands_of_headings hbelow)
      cases header <;> cases otherHeader <;> cases hheader
      case function.function.refl signature body otherBody =>
        exact .cons ⟨rfl, .inl (.of_disabled hdisabled hdisabled)⟩ .nil
      all_goals exact .nil

/-- Replacing a disabled event by one of the same outline keeps the headings and the order
of all functions; the functions that are not below it keep what their calls do. -/
theorem Replaces.functions {tree other : EventTree} (h : Replaces event replacement tree other)
    (hdisabled : event.flags.disabled = true) (houtline : replacement.outline = event.outline) :
    List.Forall₂ (Stands (functions event.children)) (functions tree) (functions other) := by
  have hreplacement : replacement.flags.disabled = true := by
    rw [← Event.flags_outline, houtline, Event.flags_outline, hdisabled]
  induction h with
  | here rest =>
    rw [functions_cons event, functions_cons replacement]
    exact List.rel_append (stands_of_outline hdisabled houtline) (stands_refl _ _)
  | @later first events others _ ih =>
    rw [functions_cons first events, functions_cons first others]
    exact List.rel_append (stands_refl _ _) ih
  | @deeper flags header rest events others hbelow ih =>
    rw [functions_cons _ rest, functions_cons _ rest, functions_branch, functions_branch]
    have hlike := hbelow.runsLike (.inl hdisabled) (.inl hreplacement)
    exact List.rel_append (List.rel_append (stands_function? _ flags header hlike) ih)
      (stands_refl _ _)

/-- In lists that correspond to each other, first matches do. -/
theorem rel_find?_of_forall₂ {α : Type} {related : α → α → Prop} {test : α → Bool}
    (htest : ∀ first second, related first second → test first = test second)
    {list others : List α} (h : List.Forall₂ related list others) :
    Option.Rel related (list.find? test) (others.find? test) := by
  induction h with
  | nil => exact .none
  | @cons first second list others hhead _ ih =>
    rw [List.find?_cons, List.find?_cons, ← htest first second hhead]
    cases test first with
    | true => exact .some hhead
    | false => exact ih

/-- Functions that stand for each other are found for each other. -/
theorem rel_find?_of_stands {below functions others : List Function}
    (h : List.Forall₂ (Stands below) functions others) (name : String) :
    Option.Rel (Stands below) (functions.find? (·.signature.name = name))
      (others.find? (·.signature.name = name)) := by
  refine rel_find?_of_forall₂ ?_ h
  intro first second hstands
  have hsignature : first.signature = second.signature := (Prod.ext_iff.1 hstands.heading).2
  rw [hsignature]

/-- **Replacing a disabled event.**  A tree runs like the tree in which a disabled event is
replaced by one of the same outline, if every enabled function below the event that a call
finds keeps its body and what runs of its sub-events. -/
theorem alike_of_replaces {tree other : EventTree} (h : Replaces event replacement tree other)
    (hdisabled : event.flags.disabled = true) (houtline : replacement.outline = event.outline)
    (hcallable : ∀ function ∈ EventTree.functions event.children,
      function.flags.disabled = false → ∀ found,
      findFunction? function.signature.name tree = some function →
      findFunction? function.signature.name other = some found →
      function.body = found.body ∧ RunsLike function.events found.events) :
    Alike tree other where
  events := by
    have hreplacement : replacement.flags.disabled = true := by
      rw [← Event.flags_outline, houtline, Event.flags_outline, hdisabled]
    exact h.runsLike (.inl hdisabled) (.inl hreplacement)
  functions name := by
    have hfound := rel_find?_of_stands (h.functions hdisabled houtline) name
    rw [← findFunction?_eq_find?, ← findFunction?_eq_find?] at hfound
    generalize hfirst : findFunction? name tree = first at hfound ⊢
    generalize hsecond : findFunction? name other = second at hfound ⊢
    cases hfound with
    | none => exact .none
    | @some function found hstands =>
      obtain ⟨hflags, hsignature⟩ := Prod.ext_iff.1 hstands.heading
      have hname : function.signature.name = name := by
        rw [findFunction?_eq_find?] at hfirst
        simpa using List.find?_some hfirst
      have hkept : function ∈ EventTree.functions event.children →
          function.flags.disabled = false →
          function.body = found.body ∧ RunsLike function.events found.events :=
        fun hmem henabled =>
          hcallable function hmem henabled found (hname ▸ hfirst) (hname ▸ hsecond)
      refine .some (hstands.runsLike_or_mem.elim id fun hmem => ?_)
      exact ⟨congrArg Flags.disabled hflags, fun _ => congrArg Signature.argument hsignature,
        fun henabled => (hkept hmem henabled).1, fun henabled => (hkept hmem henabled).2⟩

end EventTree

end SceneLogic
