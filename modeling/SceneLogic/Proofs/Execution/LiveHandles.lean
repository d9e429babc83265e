import SceneLogic.Proofs.Execution.Isolation

/-!
# Live handles and what taking them does

Most instructions on instances begin by taking the live handles of a list, or the first of
them.  Either way the list is filled if it was not there, and keeps its live handles only.
Taking those of one list does not change what is live on another.

## Main definitions

* `Context.refresh` — a list is filled, and its dead handles are dropped.

## Main statements

* `Context.picked_eq`, `Context.firstPicked?_eq` — what is taken, and what it does.
* `Context.liveHandles_refresh` — the same handles are live before and after.
-/

namespace SceneLogic

namespace Context

/-- Fill the list of an object, if it is not there, and drop its dead handles. -/
def refresh (context : Context) (object : String) : Context :=
  { context with picking := context.picking.insert object (context.liveHandles object) }

variable (context : Context)

theorem picked_eq (object : String) :
    context.picked object = (context.liveHandles object, context.refresh object) := by
  simp only [picked, Picking.picked_eq]
  rfl

theorem firstPicked?_eq (object : String) :
    context.firstPicked? object =
      ((context.liveHandles object).head?, context.refresh object) := by
  simp only [firstPicked?, Picking.firstPicked?, Picking.picked_eq]
  rfl

theorem get?_refresh (object name : String) :
    (context.refresh object).picking.get? name =
      if name = object then some (context.liveHandles object) else context.picking.get? name :=
  NameMap.get?_insert _ _ _ _

variable {context}

theorem mem_liveHandles_iff {object : String} {handle : Handle} :
    handle ∈ context.liveHandles object ↔
      handle ∈ context.picking.filled object context.scene.objects ∧
        context.scene.objects.isAlive handle = true :=
  List.mem_filter

theorem isAlive_of_mem_liveHandles {object : String} {handle : Handle}
    (hmem : handle ∈ context.liveHandles object) : context.scene.objects.isAlive handle = true :=
  (mem_liveHandles_iff.1 hmem).2

/-- A list that holds the live handles keeps them as long as the same handles are alive. -/
theorem liveHandles_of_get? {before after : Context} {object : String}
    (hlist : after.picking.get? object = some (before.liveHandles object))
    (halive : after.scene.objects.isAlive = before.scene.objects.isAlive) :
    after.liveHandles object = before.liveHandles object := by
  rw [liveHandles, hlist, Option.getD_some, halive, liveHandles, List.filter_filter]
  simp only [Bool.and_self]

variable (context)

/-- Taking the live handles of one list leaves the same live handles of every list. -/
@[simp] theorem liveHandles_refresh (other object : String) :
    (context.refresh other).liveHandles object = context.liveHandles object := by
  by_cases hobject : object = other
  · subst hobject
    exact liveHandles_of_get? ((context.get?_refresh _ _).trans (if_pos rfl)) rfl
  · simp [liveHandles, refresh, hobject]

/-- Several lists are filled by filling one after another. -/
theorem get?_foldr_refresh (names : List String) (name : String) :
    (names.foldr (fun name context => context.refresh name) context).picking.get? name =
      if name ∈ names then some (context.liveHandles name) else context.picking.get? name := by
  have hlive : ∀ rest : List String, (rest.foldr (fun name context => context.refresh name)
      context).liveHandles name = context.liveHandles name := by
    intro rest
    induction rest with
    | nil => rfl
    | cons other rest ih => rw [List.foldr_cons, liveHandles_refresh, ih]
  induction names with
  | nil => rfl
  | cons other rest ih =>
    rw [List.foldr_cons, get?_refresh, ih]
    by_cases hname : name = other
    · subst hname
      rw [if_pos rfl, hlive, if_pos List.mem_cons_self]
    · simp only [hname, if_false, List.mem_cons, false_or]

end Context

end SceneLogic
