import SceneLogic.Proofs.Event.Paths

/-!
# Functions behind others of their name

A walk visits an event before its sub-events and siblings in order, so it visits an event
before another exactly when the path to the first is the lesser in the lexicographic order.
A function behind another one of its name is therefore found by no call: the earlier one is.
It does nothing where it stands either, so only the functions below it and its name are left.

## Main definitions

* `EventTree.functionsBefore` — the functions that a walk meets before an event.

## Main statements

* `EventTree.LeadsTo.functions_setEventAt` — the functions of a tree around an event.
* `EventTree.LeadsTo.mem_functionsBefore` — the functions at lesser paths are met before.
* `EventTree.alike_of_shadowed` — replacing a function behind another one of its name.
-/

namespace SceneLogic

namespace EventTree

/-- The functions that a walk meets before the event that a path leads to. -/
def functionsBefore (tree : EventTree) : List Nat → List Function
  | [] => []
  | [index] => functions (tree.take index)
  | index :: path =>
    functions (tree.take index) ++
      match tree[index]? with
      | none => []
      | some event => event.function?.toList ++ functionsBefore event.children path

variable {tree : EventTree} {event replacement : Event}

/-! ## The functions around an event -/

/-- Changing one event of a list keeps the functions on both sides. -/
theorem functions_modify {index : Nat} {found : Event} (hfound : tree[index]? = some found)
    (change : Event → Event) :
    functions (tree.modify index change) =
      functions (tree.take index) ++ functions [change found] ++
        functions (tree.drop (index + 1)) := by
  obtain ⟨hindex, rfl⟩ := List.getElem?_eq_some_iff.1 hfound
  rw [List.modify_eq_take_cons_drop hindex, functions_append, functions_cons, List.append_assoc]

theorem functions_of_getElem? {index : Nat} {found : Event} (hfound : tree[index]? = some found) :
    functions tree =
      functions (tree.take index) ++ functions [found] ++ functions (tree.drop (index + 1)) := by
  have hsplit := functions_modify hfound id
  rwa [List.modify_id] at hsplit

/-- Where an idle event is replaced by an idle one, the functions before it keep their headings
and what their calls do, and the functions behind it stay as they are. -/
theorem LeadsTo.functions_setEventAt {path : List Nat} (h : LeadsTo event path tree)
    (hevent : event.IsIdle) (hreplacement : replacement.IsIdle) :
    ∃ before after,
      functions tree = tree.functionsBefore path ++ (functions [event] ++ after) ∧
      functions (tree.setEventAt path replacement) =
        before ++ (functions [replacement] ++ after) ∧
      List.Forall₂ (Stands []) (tree.functionsBefore path) before := by
  induction h with
  | @here index tree found =>
    refine ⟨functions (tree.take index), functions (tree.drop (index + 1)), ?_, ?_, ?_⟩
    · rw [functions_of_getElem? found, functionsBefore, List.append_assoc]
    · rw [setEventAt, functions_modify found, List.append_assoc]
    · exact stands_refl [] _
  | @inside index next path tree events flags header found rest ih =>
    obtain ⟨before, after, hfirst, hsecond, hstands⟩ := ih
    have hlike : RunsLike events (setEventAt events (next :: path) replacement) :=
      rest.replaces.runsLike hevent hreplacement
    let changed := Event.branch flags header (setEventAt events (next :: path) replacement)
    refine ⟨functions (tree.take index) ++ (changed.function?.toList ++ before),
      after ++ functions (tree.drop (index + 1)), ?_, ?_, ?_⟩
    · simp only [functions_of_getElem? found, functions_branch, hfirst, functionsBefore, found,
        Event.children, List.append_assoc]
    · have hchanged : functions (setEventAt tree (index :: next :: path) replacement) = _ :=
        functions_modify found _
      rw [hchanged]
      simp only [Event.withChildren, Event.children, functions_branch, hsecond, changed,
        List.append_assoc]
    · simp only [functionsBefore, found, Event.children]
      exact List.rel_append (stands_refl [] _)
        (List.rel_append (stands_function? [] flags header hlike) hstands)

/-! ## Lesser paths -/

theorem functions_of_function? {function : Function} (hfunction : event.function? = some function) :
    functions [event] = function :: functions event.children := by
  cases event with
  | comment flags note => cases hfunction
  | branch flags header events =>
    rw [functions_branch, hfunction]
    rfl

theorem kind_of_function? {function : Function} (hfunction : event.function? = some function) :
    event.kind = .function := by
  cases event with
  | comment flags note => cases hfunction
  | branch flags header events => cases header <;> first | rfl | cases hfunction

/-- The function that a path leads to is a function of the tree. -/
theorem LeadsTo.mem_functions {path : List Nat} {function : Function} (h : LeadsTo event path tree)
    (hfunction : event.function? = some function) : function ∈ functions tree := by
  induction h with
  | here found => simp [functions_of_getElem? found, functions_of_function? hfunction]
  | inside found _ ih => simp [functions_of_getElem? found, functions_branch, ih]

/-- A path that turns off before another leads to what is met before. -/
theorem LeadsTo.mem_functionsBefore_of_lt {index position : Nat} {inner path : List Nat}
    {function : Function} (h : LeadsTo event (index :: inner) tree)
    (hfunction : event.function? = some function) (hlt : index < position) :
    function ∈ tree.functionsBefore (position :: path) := by
  have htaken : LeadsTo event (index :: inner) (tree.take position) :=
    h.of_getElem? fun _ => (List.getElem?_take_of_lt hlt).trans
  have hmem := htaken.mem_functions hfunction
  cases path with
  | nil => exact hmem
  | cons next path => exact List.mem_append_left _ hmem

/-- A function at a lesser path is met before. -/
theorem LeadsTo.mem_functionsBefore {earlier path : List Nat} {function : Function}
    (h : LeadsTo event earlier tree) (hfunction : event.function? = some function)
    (hlt : earlier < path) : function ∈ tree.functionsBefore path := by
  induction h generalizing path with
  | @here index tree found =>
    cases path with
    | nil => exact absurd hlt (List.not_lt_nil _)
    | cons position path =>
      rcases List.cons_lt_cons_iff.1 hlt with hindex | ⟨rfl, hinner⟩
      · exact (LeadsTo.here found).mem_functionsBefore_of_lt hfunction hindex
      · -- The path goes on below the function itself.
        cases path with
        | nil => exact absurd hinner (List.not_lt_nil _)
        | cons next path => simp [functionsBefore, found, hfunction]
  | @inside index next inner tree events flags header found rest ih =>
    cases path with
    | nil => exact absurd hlt (List.not_lt_nil _)
    | cons position path =>
      rcases List.cons_lt_cons_iff.1 hlt with hindex | ⟨rfl, hinner⟩
      · exact (LeadsTo.inside found rest).mem_functionsBefore_of_lt hfunction hindex
      · cases path with
        | nil => exact absurd hinner (List.not_lt_nil _)
        | cons position path => simp [functionsBefore, found, Event.children, ih hinner]

/-! ## Functions behind others of their name -/

/-- The function that a call finds in one of two lists is found in the other, if functions stand
for each other up to a function whose name occurs before. -/
theorem rel_find?_of_shadowed {before others rest : List Function} {function replacement : Function}
    (hstands : List.Forall₂ (Stands []) before others)
    (hsame : replacement.signature.name = function.signature.name)
    (hshadowed : ∃ earlier ∈ before, earlier.signature.name = function.signature.name)
    (name : String) :
    Option.Rel Function.RunsLike
      ((before ++ function :: rest).find? (·.signature.name = name))
      ((others ++ replacement :: rest).find? (·.signature.name = name)) := by
  have hfound := rel_find?_of_stands hstands name
  rw [List.find?_append, List.find?_append]
  generalize hfirst : before.find? (·.signature.name = name) = first at hfound ⊢
  generalize others.find? (·.signature.name = name) = second at hfound ⊢
  cases hfound with
  | some hstands => exact .some (hstands.runsLike_or_mem.resolve_right List.not_mem_nil)
  | none =>
    -- The name is not met before, so it is not that of the function.
    obtain ⟨earlier, hmem, hname⟩ := hshadowed
    have hother : ¬ function.signature.name = name := by
      rw [List.find?_eq_none] at hfirst
      simpa [hname] using hfirst earlier hmem
    have hother' : ¬ replacement.signature.name = name := hsame ▸ hother
    simp only [Option.none_or, List.find?_cons, hother, hother', decide_false]
    cases rest.find? (·.signature.name = name) with
    | none => exact .none
    | some found => exact .some (.refl found)

/-- **Shadowed functions are found by no call.**  A tree runs like the tree in which a function
at a greater path than another function of its name is replaced by any function of that name
with the same sub-events. -/
theorem alike_of_shadowed {path earlier : List Nat} {first : Event}
    {function changed shadowing : Function} (h : LeadsTo event path tree)
    (hfunction : event.function? = some function) (hchanged : replacement.function? = some changed)
    (hname : changed.signature.name = function.signature.name)
    (hevents : replacement.children = event.children) (hearlier : LeadsTo first earlier tree)
    (hshadowing : first.function? = some shadowing)
    (hshadowed : shadowing.signature.name = function.signature.name) (hlt : earlier < path) :
    Alike tree (tree.setEventAt path replacement) := by
  have hidle : event.IsIdle := .inr (.inl (kind_of_function? hfunction))
  have hidle' : replacement.IsIdle := .inr (.inl (kind_of_function? hchanged))
  refine ⟨h.replaces.runsLike hidle hidle', fun name => ?_⟩
  obtain ⟨before, after, htree, hother, hstands⟩ := h.functions_setEventAt hidle hidle'
  have hmem := hearlier.mem_functionsBefore hshadowing hlt
  rw [findFunction?_eq_find?, findFunction?_eq_find?, htree, hother,
    functions_of_function? hfunction, functions_of_function? hchanged, hevents]
  exact rel_find?_of_shadowed hstands hname ⟨shadowing, hmem, hshadowed⟩ name

end EventTree

end SceneLogic
