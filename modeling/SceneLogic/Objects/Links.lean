import SceneLogic.Lookup
import SceneLogic.Objects.Store

/-!
# Links between instances

A link joins two handles and has no direction; no handle is linked with itself.
For each handle that has links, its partners are listed in the order in which the
links were made.  Links join handles, not instances: a link stays when an instance
is destroyed, until it is removed or pruned.

## Main definitions

* `Links` — the partners of each handle that has any.
* `Links.link`, `Links.unlink`, `Links.unlinkAll`, `Links.prune` — the updates.
* `Links.partners`, `Links.count` — the views.

## Main statements

* `Links.partners_setPartners` — what an update of one handle does to each view.
-/

namespace SceneLogic

/-- The links of a scene.  A handle without links has no entry. -/
structure Links where
  entries : List (Handle × List Handle)
deriving DecidableEq

namespace Links

/-- No links. -/
def empty : Links := ⟨[]⟩

instance : EmptyCollection Links := ⟨empty⟩
instance : Inhabited Links := ⟨empty⟩

/-- The handles linked with a handle, in the order of the links. -/
def partners (links : Links) (handle : Handle) : List Handle :=
  (links.entries.lookup handle).getD []

/-- Whether two handles are linked. -/
def areLinked (links : Links) (a b : Handle) : Bool := (links.partners a).contains b

/-- Replace the partners of one handle. -/
def setPartners (links : Links) (handle : Handle) (partners : List Handle) : Links :=
  let others := links.entries.filter (·.1 ≠ handle)
  if partners.isEmpty then ⟨others⟩ else ⟨(handle, partners) :: others⟩

/-- Add a handle to the partners of another, behind the partners it has. -/
def attach (links : Links) (handle partner : Handle) : Links :=
  if links.areLinked handle partner then links
  else links.setPartners handle (links.partners handle ++ [partner])

/-- Drop a handle from the partners of another. -/
def detach (links : Links) (handle partner : Handle) : Links :=
  links.setPartners handle ((links.partners handle).filter (· ≠ partner))

/-- Link two handles, unless they are linked or the same. -/
def link (links : Links) (a b : Handle) : Links :=
  if a = b then links else (links.attach a b).attach b a

/-- Remove the link between two handles. -/
def unlink (links : Links) (a b : Handle) : Links := (links.detach a b).detach b a

/-- Remove every link of a handle. -/
def unlinkAll (links : Links) (handle : Handle) : Links :=
  (links.partners handle).foldl (fun links partner => links.detach partner handle)
    (links.setPartners handle [])

/-- The number of links; each is listed by both of its ends. -/
def count (links : Links) : Nat := (links.entries.flatMap (·.2)).length / 2

/-- Whether there are no links. -/
def isEmpty (links : Links) : Bool := links.entries.isEmpty

/-- The handles with links that name no instance of a store. -/
def stale (links : Links) (store : Store) : List Handle :=
  (links.entries.map (·.1)).filter fun handle => !store.isAlive handle

/-- Remove the links of all stale handles. -/
def prune (links : Links) (store : Store) : Links :=
  (links.stale store).foldl unlinkAll links

/-- Replacing the partners of one handle leaves those of every other. -/
@[simp] theorem partners_setPartners (links : Links) (handle other : Handle)
    (list : List Handle) :
    (links.setPartners handle list).partners other =
      if other = handle then list else links.partners other := by
  unfold setPartners partners
  by_cases empty : list.isEmpty
  · rw [List.isEmpty_iff] at empty
    subst empty
    simp only [List.isEmpty_nil, if_true, lookup_erase]
    split <;> simp
  · simp only [empty, Bool.false_eq_true, if_false, lookup_entry, lookup_erase]
    split <;> simp

end Links

end SceneLogic
