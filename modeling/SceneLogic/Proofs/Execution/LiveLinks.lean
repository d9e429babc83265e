import SceneLogic.Execution.Host
import SceneLogic.Proofs.Execution.Builtin
import SceneLogic.Proofs.Execution.Contract
import SceneLogic.Proofs.Objects.LinkRefinement
import SceneLogic.Proofs.Objects.StoreBalance

/-!
# Links join live instances

As long as instances end only by being deleted from their scene, no link is ever left
dangling: the scene drops the links of an instance before it ends, and the link tools
link live instances only.  This holds between any two instructions, so it also holds when
a run stops halfway.

## Main definitions

* `Scene.LiveLinks` — both ends of every link name an instance.
* `SceneUpdate` — what the owner of a scene can do with it.
* `Scene.Reachable` — the scenes that come about in this way.

## Main statements

* `Builtin.keepsLiveLinks` — every built-in operation keeps the links live.
* `Scene.LiveLinks.run`, `Scene.LiveLinks.apply` — so do runs, and all updates.
* `Scene.Reachable.links_never_dangle` — what follows for the scenes that can be reached.
-/

namespace SceneLogic

namespace Scene

variable {scene : Scene}

theorem live?_eq_some {handle : Option Handle} {found : Handle} :
    scene.live? handle = some found ↔
      handle = some found ∧ scene.objects.isAlive found = true := by
  rw [live?, Option.filter_eq_some_iff]

/-! ## The invariant -/

/-- Both ends of every link name an instance, and the store is in balance. -/
structure LiveLinks (scene : Scene) : Prop where
  ends_alive : ∃ pairs, scene.links.Represents pairs ∧
    ∀ pair ∈ pairs, ∀ handle ∈ pair, scene.objects.isAlive handle = true
  balanced : scene.objects.Balanced

namespace LiveLinks

/-- The store may change if no instance ends. -/
theorem withObjects (hscene : scene.LiveLinks) {objects : Store} (hobjects : objects.Balanced)
    (halive : ∀ handle, scene.objects.isAlive handle = true → objects.isAlive handle = true) :
    ({ scene with objects } : Scene).LiveLinks := by
  obtain ⟨pairs, hlinks, hends⟩ := hscene.ends_alive
  exact ⟨⟨pairs, hlinks, fun pair hpair handle hmem => halive handle (hends pair hpair handle hmem)⟩,
    hobjects⟩

/-- The links may change if they are some of those before. -/
theorem withLinks (hscene : scene.LiveLinks) {links : Links} {keep : Sym2 Handle → Bool}
    (hlinks : ∀ pairs, scene.links.Represents pairs → links.Represents (pairs.filter keep)) :
    ({ scene with links } : Scene).LiveLinks := by
  obtain ⟨pairs, hpairs, hends⟩ := hscene.ends_alive
  refine ⟨⟨pairs.filter keep, hlinks pairs hpairs, fun pair hpair => ?_⟩, hscene.balanced⟩
  exact hends pair (List.mem_of_mem_filter hpair)

theorem insertObject (hscene : scene.LiveLinks) (item : Instance) :
    (scene.insertObject item).2.LiveLinks :=
  hscene.withObjects (hscene.balanced.insert item) fun _ => Store.isAlive_insert item

theorem modifyObject (hscene : scene.LiveLinks) (handle : Handle)
    (change : Instance → Instance) :
    ({ scene with objects := scene.objects.modify handle change } : Scene).LiveLinks := by
  refine hscene.withObjects (hscene.balanced.modify handle change) fun other halive => ?_
  rwa [Store.isAlive_modify]

/-- An instance ends after its links: those that are left have other ends. -/
theorem deleteObject (hscene : scene.LiveLinks) (handle : Handle) :
    (scene.deleteObject handle).2.LiveLinks := by
  obtain ⟨pairs, hlinks, hends⟩ := hscene.ends_alive
  refine ⟨⟨_, hlinks.unlinkAll handle, fun pair hpair other hother => ?_⟩,
    hscene.balanced.destroy handle⟩
  obtain ⟨hpair, hkept⟩ := List.mem_filter.1 hpair
  have hne : other ≠ handle := by
    rintro rfl
    exact of_decide_eq_true hkept hother
  simp only [Scene.deleteObject, Store.isAlive_destroy, hends pair hpair other hother, hne,
    ne_eq, not_false_eq_true, decide_true, Bool.and_self]

/-- Only live instances are linked. -/
theorem joinObjects (hscene : scene.LiveLinks) (a b : Option Handle) :
    (scene.joinObjects a b).LiveLinks := by
  unfold Scene.joinObjects
  split
  next first second hfirst hsecond =>
    obtain ⟨pairs, hlinks, hends⟩ := hscene.ends_alive
    refine ⟨⟨_, hlinks.link first second, fun pair hpair handle hmem => ?_⟩, hscene.balanced⟩
    have hcases : pair ∈ pairs ∨ pair = s(first, second) := by
      split at hpair
      · simpa using hpair
      · exact .inl hpair
    rcases hcases with hold | rfl
    · exact hends pair hold handle hmem
    · rcases Sym2.mem_iff.1 hmem with rfl | rfl
      · exact (live?_eq_some.1 hfirst).2
      · exact (live?_eq_some.1 hsecond).2
  next => exact hscene

theorem partObjects (hscene : scene.LiveLinks) (a b : Option Handle) :
    (scene.partObjects a b).LiveLinks := by
  unfold Scene.partObjects
  split
  next a b => exact hscene.withLinks fun _ hlinks => hlinks.unlink a b
  next => exact hscene

theorem isolateObject (hscene : scene.LiveLinks) (handle : Option Handle) :
    (scene.isolateObject handle).LiveLinks := by
  unfold Scene.isolateObject
  split
  next handle => exact hscene.withLinks fun _ hlinks => hlinks.unlinkAll handle
  next => exact hscene

theorem pruneLinks (hscene : scene.LiveLinks) : scene.pruneLinks.LiveLinks :=
  hscene.withLinks fun _ hlinks => hlinks.prune scene.objects

/-- A change that keeps the links live keeps them when it is done for one handle after
another. -/
theorem forEach {context : Context} (hcontext : context.scene.LiveLinks)
    {change : Scene → Handle → Scene}
    (hchange : ∀ (scene : Scene) handle, scene.LiveLinks → (change scene handle).LiveLinks)
    (handles : List Handle) : (context.forEach handles change).scene.LiveLinks := by
  simp only [Context.forEach, Context.updateScene]
  generalize context.scene = scene at hcontext
  induction handles generalizing scene with
  | nil => exact hcontext
  | cons handle rest ih => exact ih _ (hchange scene handle hcontext)

end LiveLinks

end Scene

/-! ## Instructions -/

/-- Carrying out the operation keeps the links of a scene live, whatever the instruction
and whatever is picked. -/
def Operation.KeepsLiveLinks (operation : Operation) : Prop :=
  ∀ instruction context, context.scene.LiveLinks →
    (operation.execute instruction context).2.scene.LiveLinks

namespace Builtin

/-- An instruction that lacks a name has no effect. -/
theorem liveLinks_withName {instruction : Instruction} {index : Nat} {what : String}
    {context : Context} {next : String → Output × Context}
    (hcontext : context.scene.LiveLinks) (hnext : ∀ name, (next name).2.scene.LiveLinks) :
    (withName instruction index what context next).2.scene.LiveLinks :=
  withName_cases (motive := (·.scene.LiveLinks)) hcontext hnext

theorem keepsLiveLinks_forEachWith {id name category description : String}
    {parameters : List Parameter} {change : Scene → Option Handle → Option Handle → Scene}
    (hchange : ∀ (scene : Scene) a b, scene.LiveLinks → (change scene a b).LiveLinks) :
    (operation .action id name category description parameters
      (forEachWith change)).KeepsLiveLinks := by
  intro instruction context hcontext
  refine liveLinks_withName hcontext fun object => ?_
  refine liveLinks_withName hcontext fun other => ?_
  exact Scene.LiveLinks.forEach hcontext (fun scene handle => hchange scene (some handle) _) _

/-- Every built-in operation keeps the links live. -/
theorem keepsLiveLinks : ∀ entry ∈ operations, entry.KeepsLiveLinks := by
  simp only [operations, List.forall_mem_cons]
  refine ⟨?isTrue, ?compareVariable, ?variableExists, ?setVariable, ?pickByVariable,
    ?countObjects, ?createObject, ?deleteObjects, ?setObjectVariable, ?pickLinked,
    ?linkObjects, ?unlinkObjects, ?unlinkAllOfObject, ?callFunction, List.forall_mem_nil _⟩
  case linkObjects => exact keepsLiveLinks_forEachWith fun _ a b h => h.joinObjects a b
  case unlinkObjects => exact keepsLiveLinks_forEachWith fun _ a b h => h.partObjects a b
  all_goals intro instruction context hcontext
  case isTrue => exact hcontext
  -- All others read a name first.
  all_goals refine liveLinks_withName hcontext fun object => ?_
  case variableExists => exact hcontext
  case callFunction => exact hcontext
  case setVariable => exact ⟨hcontext.ends_alive, hcontext.balanced⟩
  case createObject => exact hcontext.insertObject (.ofObject object)
  case deleteObjects =>
    exact Scene.LiveLinks.forEach hcontext (fun _ handle h => h.deleteObject handle) _
  case unlinkAllOfObject =>
    exact Scene.LiveLinks.forEach hcontext (fun _ handle h => h.isolateObject (some handle)) _
  -- The other five read a second name.
  all_goals refine liveLinks_withName hcontext fun second => ?_
  case compareVariable => split <;> exact hcontext
  case pickByVariable => exact hcontext
  case countObjects => exact hcontext
  case pickLinked => exact hcontext
  case setObjectVariable =>
    exact Scene.LiveLinks.forEach hcontext (fun _ handle h => h.modifyObject handle _) _

end Builtin

/-- An instruction keeps the links live, also one that is refused or fails. -/
theorem Registry.execute_builtin_liveLinks (instruction : Instruction) (kind : InstructionKind)
    {context : Context} (hcontext : context.scene.LiveLinks) :
    (builtin.execute instruction kind context).2.scene.LiveLinks := by
  rcases execute_builtin_snd instruction kind context with heq | ⟨operation, hmem, -, heq⟩
  · rwa [heq]
  · rw [heq]
    exact Builtin.keepsLiveLinks operation hmem instruction context hcontext

/-! ## Runs and steps -/

/-- The contract of runs that keep the links live; they may end with any error. -/
def liveLinksContract : Contract where
  later start final := start.LiveLinks → final.LiveLinks
  fault _ := True
  asked _ := True

theorem respected_liveLinksContract (uses : List (InstructionKind × Instruction)) :
    liveLinksContract.Respected .builtin uses where
  refl _ := id
  trans hfirst hsecond := hsecond ∘ hfirst
  execute _ _ := ⟨Registry.execute_builtin_liveLinks _ _, fun _ _ => trivial⟩
  truth _ _ _ := trivial
  call _ _ := trivial

namespace Scene

variable {scene : Scene}

theorem LiveLinks.run (hscene : scene.LiveLinks) (limit : Nat) (tree : EventTree) :
    (EventTree.run .builtin limit tree scene).2.LiveLinks :=
  ((respected_liveLinksContract tree.uses).run trivial (fun _ _ => trivial) scene).1 hscene

theorem LiveLinks.step (hscene : scene.LiveLinks) (timeStep : Seconds) :
    (scene.step .builtin timeStep).2.LiveLinks := by
  have hrun := hscene.pruneLinks.run defaultCallLimit scene.events
  unfold Scene.step
  split
  next final heq =>
    rw [heq] at hrun
    exact ⟨hrun.ends_alive, hrun.balanced⟩
  next error final heq => rwa [heq] at hrun

end Scene

/-! ## Histories of a scene -/

/-- What the owner of a scene can do with it.  Handles may be missing or name nothing. -/
inductive SceneUpdate where
  /-- Give the scene other events. -/
  | setEvents (events : EventTree)
  /-- Make a step, which may fail. -/
  | step (timeStep : Seconds)
  /-- Create an instance of an object. -/
  | createObject (object : String)
  /-- Delete the instance that a handle names. -/
  | deleteObject (handle : Handle)
  /-- Link two instances. -/
  | joinObjects (a b : Option Handle)
  /-- Remove the link between two instances. -/
  | partObjects (a b : Option Handle)
  /-- Remove the links of an instance. -/
  | isolateObject (handle : Option Handle)

/-- Make an update. -/
def SceneUpdate.apply (scene : Scene) : SceneUpdate → Scene
  | setEvents events => { scene with events }
  | step timeStep => (scene.step .builtin timeStep).2
  | createObject object => (scene.createObject object).2
  | deleteObject handle => (scene.deleteObject handle).2
  | joinObjects a b => scene.joinObjects a b
  | partObjects a b => scene.partObjects a b
  | isolateObject handle => scene.isolateObject handle

namespace Scene

/-- The scenes that come about from an empty one or from a layout by updates. -/
inductive Reachable : Scene → Prop where
  | named (name : String) : Reachable (named name)
  | ofLayout (layout : Layout) : Reachable (ofLayout layout)
  | update {scene : Scene} (hscene : Reachable scene) (update : SceneUpdate) :
    Reachable (update.apply scene)

variable {scene : Scene}

/-- Without links nothing dangles. -/
theorem liveLinks_of_unlinked (hlinks : scene.links = ∅) (hstore : scene.objects.Balanced) :
    scene.LiveLinks where
  ends_alive := ⟨[], hlinks ▸ Links.represents_empty, fun _ hpair => absurd hpair List.not_mem_nil⟩
  balanced := hstore

theorem balanced_foldl_insert {store : Store} (hstore : store.Balanced) (items : List Instance) :
    (items.foldl (fun store item => (store.insert item).2) store).Balanced := by
  induction items generalizing store with
  | nil => exact hstore
  | cons item items ih => exact ih (hstore.insert item)

/-- One update keeps the links live. -/
theorem LiveLinks.apply (hscene : scene.LiveLinks) (update : SceneUpdate) :
    (update.apply scene).LiveLinks := by
  cases update with
  | setEvents events => exact ⟨hscene.ends_alive, hscene.balanced⟩
  | step timeStep => exact hscene.step timeStep
  | createObject object => exact hscene.insertObject (.ofObject object)
  | deleteObject handle => exact hscene.deleteObject handle
  | joinObjects a b => exact hscene.joinObjects a b
  | partObjects a b => exact hscene.partObjects a b
  | isolateObject handle => exact hscene.isolateObject handle

/-- Along any history the links are live. -/
theorem Reachable.liveLinks (hscene : scene.Reachable) : scene.LiveLinks := by
  induction hscene with
  | named name => exact liveLinks_of_unlinked rfl Store.balanced_empty
  | ofLayout layout =>
    exact liveLinks_of_unlinked rfl
      (balanced_foldl_insert Store.balanced_empty layout.instances)
  | update _ update ih => exact ih.apply update

/-! ## What follows -/

theorem LiveLinks.isAlive_of_mem_partners (hscene : scene.LiveLinks) {handle partner : Handle}
    (hmem : partner ∈ scene.links.partners handle) :
    scene.objects.isAlive handle = true ∧ scene.objects.isAlive partner = true := by
  obtain ⟨pairs, hlinks, hends⟩ := hscene.ends_alive
  have hpair := hlinks.mem_partners.1 hmem
  exact ⟨hends _ hpair handle (Sym2.mem_mk_left _ _), hends _ hpair partner (Sym2.mem_mk_right _ _)⟩

/-- No handle is stale. -/
theorem LiveLinks.stale_eq_nil (hscene : scene.LiveLinks) :
    scene.links.stale scene.objects = [] := by
  obtain ⟨pairs, hlinks, hends⟩ := hscene.ends_alive
  rw [List.eq_nil_iff_forall_not_mem]
  intro handle hstale
  obtain ⟨⟨pair, hpair, hmem⟩, hdead⟩ := hlinks.mem_stale_iff.1 hstale
  rw [hends pair hpair handle hmem] at hdead
  cases hdead

theorem LiveLinks.pruneLinks_eq (hscene : scene.LiveLinks) : scene.pruneLinks = scene := by
  rw [Scene.pruneLinks, Links.prune, hscene.stale_eq_nil, List.foldl_nil]

/-- Removing the links of a handle takes it from the partners of all others. -/
theorem LiveLinks.partners_deleteObject (hscene : scene.LiveLinks) (handle other : Handle) :
    (scene.deleteObject handle).2.links.partners other =
      if other = handle then [] else (scene.links.partners other).filter (· ≠ handle) := by
  obtain ⟨pairs, hlinks, -⟩ := hscene.ends_alive
  simp only [Scene.deleteObject, (hlinks.unlinkAll handle).partners_eq, hlinks.partners_eq,
    partnersIn_filter]
  split
  next heq => simp [heq]
  next hne =>
    apply List.filter_congr
    intro partner _
    rw [decide_eq_decide, Sym2.mem_iff, not_or]
    exact ⟨fun h => Ne.symm h.2, fun h => ⟨Ne.symm hne, Ne.symm h⟩⟩

/-- The handle of a new instance named nothing before, so it has no links. -/
theorem LiveLinks.partners_createObject (hscene : scene.LiveLinks) (object : String)
    (hroom : (scene.createObject object).2.objects.occupied ≤ UInt32.size) :
    (scene.createObject object).2.links.partners (scene.createObject object).1 = [] ∧
      ∀ other, (scene.createObject object).1 ∉
        (scene.createObject object).2.links.partners other := by
  have hoccupied : (scene.createObject object).2.objects.occupied = scene.objects.occupied + 1 :=
    hscene.balanced.occupied_insert (.ofObject object)
  have hfresh : scene.objects.isAlive (scene.createObject object).1 = false := by
    rw [Store.isAlive, Option.isSome_eq_false_iff, Option.isNone_iff_eq_none]
    exact hscene.balanced.get?_fresh (by omega) (.ofObject object)
  constructor
  · rw [List.eq_nil_iff_forall_not_mem]
    intro partner hmem
    have halive := (hscene.isAlive_of_mem_partners hmem).1
    rw [hfresh] at halive
    cases halive
  · intro other hmem
    have halive := (hscene.isAlive_of_mem_partners hmem).2
    rw [hfresh] at halive
    cases halive

/-- **Links never dangle.**  In every scene that comes about from an empty one or from a
layout by steps, by creating and deleting instances and by the link tools, whatever the
events are, however the steps end and whatever the handles name, both ends of every link
name an instance.  So no handle is stale and the pruning before a step changes nothing;
deleting an instance removes the links that it is in and no other; and a new instance has
no links, also in a slot that is used again, as long as no more than 2³² instances are
alive. -/
theorem Reachable.links_never_dangle (hscene : scene.Reachable) :
    (∀ a b, scene.links.areLinked a b = true →
      scene.objects.isAlive a = true ∧ scene.objects.isAlive b = true) ∧
    (scene.links.stale scene.objects = [] ∧ scene.pruneLinks = scene) ∧
    (∀ handle other, (scene.deleteObject handle).2.links.partners other =
      if other = handle then [] else (scene.links.partners other).filter (· ≠ handle)) ∧
    ∀ object, (scene.createObject object).2.objects.occupied ≤ UInt32.size →
      (scene.createObject object).2.links.partners (scene.createObject object).1 = [] ∧
        ∀ other, (scene.createObject object).1 ∉
          (scene.createObject object).2.links.partners other := by
  have hlive := hscene.liveLinks
  refine ⟨fun a b hlinked => ?_, ⟨hlive.stale_eq_nil, hlive.pruneLinks_eq⟩,
    hlive.partners_deleteObject, hlive.partners_createObject⟩
  rw [Links.areLinked, List.contains_iff_mem] at hlinked
  exact hlive.isAlive_of_mem_partners hlinked

/-- Two coins and a player, and an event that links every coin with the player before it
fails. -/
def coinLayout : Layout where
  name := "Coins"
  bindings := ∅
  instances := [.ofObject "Coin", .ofObject "Coin", .ofObject "Player"]
  events :=
    [.branch ⟨false, false⟩
      (.standard ⟨[], [⟨"linked/LinkObjects", ["Coin", "Player"], false⟩, ⟨"missing", [], false⟩]⟩)
      []]

/-- The scene of `coinLayout` after the step that fails. -/
def linkedCoins : Scene := (SceneUpdate.step .zero).apply (Scene.ofLayout coinLayout)

/-- The scene after one of the linked coins was deleted. -/
def spentCoin : Scene := (SceneUpdate.deleteObject ⟨0, 0⟩).apply linkedCoins

/-- The links of the failed step join live instances; those of a deleted coin go with it,
and the coin that takes its slot has none. -/
theorem Reachable.links_never_dangle_of_coins :
    linkedCoins.links.areLinked ⟨0, 0⟩ ⟨2, 0⟩ = true ∧
      linkedCoins.objects.isAlive ⟨2, 0⟩ = true ∧
      spentCoin.links.partners ⟨2, 0⟩ = [⟨1, 0⟩] ∧
      (spentCoin.createObject "Coin").1 = ⟨0, 1⟩ ∧
      (spentCoin.createObject "Coin").2.links.partners ⟨0, 1⟩ = [] := by
  have hlinked : linkedCoins.Reachable := (Reachable.ofLayout coinLayout).update (.step .zero)
  have hspent : spentCoin.Reachable := hlinked.update (.deleteObject ⟨0, 0⟩)
  have hjoined : linkedCoins.links.areLinked ⟨0, 0⟩ ⟨2, 0⟩ = true := by decide +kernel
  have hbefore := hlinked.links_never_dangle
  have hpartners : linkedCoins.links.partners ⟨2, 0⟩ = [⟨0, 0⟩, ⟨1, 0⟩] := by decide +kernel
  have hhandle : (spentCoin.createObject "Coin").1 = ⟨0, 1⟩ := by decide +kernel
  refine ⟨hjoined, (hbefore.1 _ _ hjoined).2, ?_, hhandle, ?_⟩
  · refine (hbefore.2.2.1 ⟨0, 0⟩ ⟨2, 0⟩).trans ?_
    rw [hpartners]
    decide
  · have hcreated := (hspent.links_never_dangle.2.2.2 "Coin" (by decide +kernel)).1
    rwa [hhandle] at hcreated

end Scene

end SceneLogic
