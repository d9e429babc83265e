import SceneLogic.Proofs.Execution.Guarded
import SceneLogic.Proofs.Execution.LiveLinks
import SceneLogic.Proofs.Objects.LinkAgreement
import SceneLogic.Proofs.Objects.LinkHistory

/-!
# Pruning is invisible to events

Before a step the links of dead handles are pruned.  To events that makes no difference:
they see links between live instances only, a link that is made joins live instances, and a
new handle differs from all that are still linked.  So a run does the same with and without
the stale links, as long as handles do not run out.

The two runs are compared instruction by instruction.  Their scenes differ in links alone,
and the links agree on live instances.

## Main definitions

* `Scene.Agrees` — a scene could have other links, which agree with its own.
* `Operation.IgnoresDeadLinks` — an operation that does the same with such links.

## Main statements

* `Builtin.ignoresDeadLinks` — every built-in operation ignores dead links.
* `run_pruneLinks` — runs with and without the links of dead handles are the same.
-/

namespace SceneLogic

/-! ## Scenes that differ in links -/

/-- Other links for a scene, which agree with its own on live instances. -/
structure Scene.Agrees (scene : Scene) (links : Links) : Prop where
  wellFormed : scene.objects.WellFormed
  links : Links.AgreeOn scene.objects scene.links links

/-- Exchange the links of a scene. -/
def Scene.withLinks (scene : Scene) (links : Links) : Scene := { scene with links }

/-- Exchange the links of the scene. -/
def Context.withLinks (context : Context) (links : Links) : Context :=
  context.updateScene (·.withLinks links)

namespace Scene.Agrees

variable {scene : Scene} {links : Links}

/-- Links between live instances are all that is seen. -/
theorem linkedWith_eq (hscene : scene.Agrees links) (handle : Handle) :
    (scene.withLinks links).linkedWith handle = scene.linkedWith handle := by
  by_cases halive : scene.objects.isAlive handle = true
  · rw [linkedWith, linkedWith, if_pos halive]
    exact (if_pos halive).trans (hscene.links.partners_eq halive).symm
  · rw [linkedWith, linkedWith, if_neg halive]
    exact if_neg halive

theorem pickLinked_eq (hscene : scene.Agrees links) (picking : Picking) (handle : Option Handle) :
    (scene.withLinks links).pickLinked picking handle = scene.pickLinked picking handle := by
  have hlive : (scene.withLinks links).live? handle = scene.live? handle := rfl
  simp only [pickLinked, hlive, hscene.linkedWith_eq]

theorem insertObject (hscene : scene.Agrees links) {item : Instance}
    (hkept : scene.objects.KeepsApart (scene.insertObject item).2.objects) :
    (scene.insertObject item).2.Agrees links := by
  have hroom := hscene.wellFormed.live_lt hkept.length_le
  exact ⟨hscene.wellFormed.insert hroom item, hscene.links.insert hscene.wellFormed hroom item⟩

theorem modifyObject (hscene : scene.Agrees links) (handle : Handle)
    (change : Instance → Instance) :
    ({ scene with objects := scene.objects.modify handle change } : Scene).Agrees links :=
  ⟨hscene.wellFormed.modify handle change, hscene.links.modify handle change⟩

theorem deleteObject (hscene : scene.Agrees links) {handle : Handle}
    (hkept : scene.objects.KeepsApart (scene.objects.destroy handle).2) :
    (scene.deleteObject handle).2.Agrees (links.unlinkAll handle) :=
  ⟨hscene.wellFormed.destroy handle, hscene.links.destroy hkept⟩

end Scene.Agrees

/-! ## Changes of scenes that differ in links -/

/-- A change that does the same to scenes that differ in links. -/
def ChangesAlike (change : Scene → Scene) : Prop :=
  ∀ (scene : Scene) links, scene.Agrees links →
    ∃ links', change (scene.withLinks links) = (change scene).withLinks links' ∧
      (change scene).Agrees links'

namespace ChangesAlike

theorem modifyObject (handle : Handle) (change : Instance → Instance) :
    ChangesAlike fun scene =>
      { scene with objects := scene.objects.modify handle change } :=
  fun _ links hscene => ⟨links, rfl, hscene.modifyObject handle change⟩

theorem joinObjects (a b : Option Handle) : ChangesAlike (·.joinObjects a b) := by
  intro scene links hscene
  have hlive : ∀ handle, (scene.withLinks links).live? handle = scene.live? handle :=
    fun _ => rfl
  simp only [Scene.joinObjects, hlive]
  split
  next first second hfirst hsecond =>
    have hfirst := (Scene.live?_eq_some.1 hfirst).2
    have hsecond := (Scene.live?_eq_some.1 hsecond).2
    exact ⟨links.link first second, rfl, hscene.wellFormed, hscene.links.link hfirst hsecond⟩
  next => exact ⟨links, rfl, hscene⟩

theorem partObjects (a b : Option Handle) : ChangesAlike (·.partObjects a b) := by
  intro scene links hscene
  simp only [Scene.partObjects]
  split
  next a b => exact ⟨links.unlink a b, rfl, hscene.wellFormed, hscene.links.unlink a b⟩
  next => exact ⟨links, rfl, hscene⟩

theorem isolateObject (handle : Option Handle) : ChangesAlike (·.isolateObject handle) := by
  intro scene links hscene
  simp only [Scene.isolateObject]
  split
  next handle =>
    exact ⟨links.unlinkAll handle, rfl, hscene.wellFormed, hscene.links.unlinkAll handle⟩
  next => exact ⟨links, rfl, hscene⟩

/-- Changes that do the same for each handle do so for one handle after another. -/
theorem forEach {change : Scene → Handle → Scene}
    (hchange : ∀ handle, ChangesAlike (change · handle)) (handles : List Handle) :
    ChangesAlike (handles.foldl change) := by
  induction handles with
  | nil => exact fun _ links hscene => ⟨links, rfl, hscene⟩
  | cons handle rest ih =>
    intro scene links hscene
    obtain ⟨links', hfirst, hnext⟩ := hchange handle scene links hscene
    simp only [List.foldl_cons, hfirst]
    exact ih (change scene handle) links' hnext

end ChangesAlike

namespace Scene

/-- Delete one instance after another. -/
def deleteAll (scene : Scene) (handles : List Handle) : Scene :=
  handles.foldl (fun scene handle => (scene.deleteObject handle).2) scene

/-- Instances and links are all that changes. -/
theorem deleteAll_eq (scene : Scene) (handles : List Handle) :
    scene.deleteAll handles = { scene with
      objects := scene.objects.destroyAll handles
      links := handles.foldl Links.unlinkAll scene.links } := by
  induction handles generalizing scene with
  | nil => rfl
  | cons handle rest ih => exact ih (scene.deleteObject handle).2

theorem objects_deleteAll (scene : Scene) (handles : List Handle) :
    (scene.deleteAll handles).objects = scene.objects.destroyAll handles := by
  rw [deleteAll_eq]

/-- Instances are deleted alike, if that keeps handles apart from the first to the last. -/
theorem Agrees.deleteAll {scene : Scene} {links : Links} (hscene : scene.Agrees links)
    {handles : List Handle}
    (hkept : scene.objects.KeepsApart (scene.objects.destroyAll handles)) :
    ∃ links', (scene.withLinks links).deleteAll handles =
        (scene.deleteAll handles).withLinks links' ∧
      (scene.deleteAll handles).Agrees links' := by
  induction handles generalizing scene links with
  | nil => exact ⟨links, rfl, hscene⟩
  | cons handle rest ih =>
    obtain ⟨hfirst, hrest⟩ := hkept.of_destroyAll
    exact ih (hscene.deleteObject hfirst) hrest

end Scene

/-! ## Instructions -/

/-- Two outcomes of an instruction in contexts that differ in links: unless handles ran
out, the answers are the same, and the contexts differ in links again. -/
def AnswersAlike (start : Context) (outcome other : Output × Context) : Prop :=
  start.scene.objects.KeepsApart outcome.2.scene.objects →
    ∃ links, other = (outcome.1, outcome.2.withLinks links) ∧ outcome.2.scene.Agrees links

/-- An operation that does the same with links that agree on live instances, whatever the
instruction and whatever is picked. -/
def Operation.IgnoresDeadLinks (operation : Operation) : Prop :=
  ∀ instruction (context : Context) links, context.scene.Agrees links →
    AnswersAlike context (operation.execute instruction context)
      (operation.execute instruction (context.withLinks links))

namespace Builtin

variable {context : Context} {links : Links}

/-- An instruction that lacks a name has no effect. -/
theorem answersAlike_withName {instruction : Instruction} {index : Nat} {what : String}
    {next next' : String → Output × Context} (hcontext : context.scene.Agrees links)
    (hnext : ∀ name, AnswersAlike context (next name) (next' name)) :
    AnswersAlike context (withName instruction index what context next)
      (withName instruction index what (context.withLinks links) next') := by
  unfold withName
  split
  next name _ => exact hnext name
  next => exact fun _ => ⟨links, rfl, hcontext⟩

/-- An answer after a change of the scene. -/
theorem answersAlike_updateScene {start : Context} (output : Output) (context : Context)
    {change : Scene → Scene} (hchange : ChangesAlike change)
    (hcontext : context.scene.Agrees links) :
    AnswersAlike start (output, context.updateScene change)
      (output, (context.withLinks links).updateScene change) := by
  intro _
  obtain ⟨links', heq, hagrees⟩ := hchange context.scene links hcontext
  refine ⟨links', ?_, hagrees⟩
  simp only [Context.updateScene, Context.withLinks, heq]

theorem ignoresDeadLinks_forEachWith {id name category description : String}
    {parameters : List Parameter} {change : Scene → Option Handle → Option Handle → Scene}
    (hchange : ∀ a b, ChangesAlike (change · a b)) :
    (operation .action id name category description parameters
      (forEachWith change)).IgnoresDeadLinks := by
  intro instruction context links hcontext
  refine answersAlike_withName hcontext fun object => ?_
  refine answersAlike_withName hcontext fun other => ?_
  have hforEach := ChangesAlike.forEach (fun handle => hchange (some handle)
    (context.firstPicked? other).1) ((context.firstPicked? other).2.picked object).1
  exact answersAlike_updateScene .done ((context.firstPicked? other).2.picked object).2 hforEach
    hcontext

/-- Every built-in operation ignores dead links. -/
theorem ignoresDeadLinks : ∀ entry ∈ operations, entry.IgnoresDeadLinks := by
  simp only [operations, List.forall_mem_cons]
  refine ⟨?isTrue, ?compareVariable, ?variableExists, ?setVariable, ?pickByVariable,
    ?countObjects, ?createObject, ?deleteObjects, ?setObjectVariable, ?pickLinked,
    ?linkObjects, ?unlinkObjects, ?unlinkAllOfObject, ?callFunction, List.forall_mem_nil _⟩
  case linkObjects => exact ignoresDeadLinks_forEachWith ChangesAlike.joinObjects
  case unlinkObjects => exact ignoresDeadLinks_forEachWith ChangesAlike.partObjects
  all_goals intro instruction context links hcontext
  case isTrue => exact fun _ => ⟨links, rfl, hcontext⟩
  -- All others read a name first.
  all_goals refine answersAlike_withName hcontext fun object => ?_
  case variableExists => exact fun _ => ⟨links, rfl, hcontext⟩
  case callFunction => exact fun _ => ⟨links, rfl, hcontext⟩
  case setVariable => exact fun _ => ⟨links, rfl, hcontext.wellFormed, hcontext.links⟩
  case createObject => exact fun hkept => ⟨links, rfl, hcontext.insertObject hkept⟩
  case deleteObjects =>
    intro hkept
    have hobjects := Scene.objects_deleteAll context.scene (context.picked object).1
    obtain ⟨links', heq, hagrees⟩ := hcontext.deleteAll (hobjects ▸ hkept)
    refine ⟨links', ?_, hagrees⟩
    exact congrArg (fun scene : Scene => (Output.done,
      Context.mk scene ((context.picked object).2.picking.retainLive scene.objects))) heq
  case unlinkAllOfObject =>
    have hforEach := ChangesAlike.forEach (fun handle => ChangesAlike.isolateObject (some handle))
      (context.picked object).1
    exact answersAlike_updateScene .done (context.picked object).2 hforEach hcontext
  -- The other five read a second name.
  all_goals refine answersAlike_withName hcontext fun second => ?_
  case compareVariable =>
    have hvalue : (context.withLinks links).scene.valueOf? object =
        context.scene.valueOf? object := rfl
    simp only [hvalue]
    split <;> exact fun _ => ⟨links, rfl, hcontext⟩
  case pickByVariable => exact fun _ => ⟨links, rfl, hcontext⟩
  case countObjects => exact fun _ => ⟨links, rfl, hcontext⟩
  case pickLinked =>
    refine fun _ => ⟨links, ?_, hcontext⟩
    let parts := ((context.firstPicked? second).2.picked object).2.picking.splitOff [object]
    exact congrArg (fun answer : Bool × Picking => (Output.truth answer.1,
      Context.mk (context.scene.withLinks links) (parts.2.merge answer.2)))
      (hcontext.pickLinked_eq parts.1 (context.firstPicked? second).1)
  case setObjectVariable =>
    have hforEach := ChangesAlike.forEach
      (fun handle => ChangesAlike.modifyObject handle
        (·.setVariable second (valueAt instruction 2))) (context.picked object).1
    exact answersAlike_updateScene .done (context.picked object).2 hforEach hcontext

end Builtin

/-! ## Runs -/

/-- The simulation of a run by one with other links, until handles run out. -/
def otherLinks : Simulation where
  alike scene other := ∃ links, other = scene.withLinks links ∧ scene.Agrees links
  cut := ExecutionError.IsRunOut

theorem respected_otherLinks : otherLinks.Respected Registry.builtin.guarded .builtin where
  objects := fun ⟨_, hother, _⟩ => (congrArg Scene.objects hother).symm
  execute instruction kind first second h := by
    obtain ⟨links, hscene, hagrees⟩ := h.scene
    obtain rfl : first.withLinks links = second := by
      obtain ⟨scene, picking⟩ := second
      exact congrArg₂ Context.mk hscene.symm h.picking
    refine Registry.follows_guarded h fun operation hget hkept => ?_
    have hmem := (Registry.mem_operations_of_get?_builtin hget).1
    obtain ⟨links', heq, hfinal⟩ :=
      Builtin.ignoresDeadLinks operation hmem instruction first links hagrees hkept
    rw [heq]
    exact ⟨rfl, rfl, links', rfl, hfinal⟩

/-- **Pruning is invisible to events.**  Take a scene whose store gave out some handles and
kept them apart ever since, and whose links, whatever updates they come from, join such
handles, of instances that may have ended.  If handles do not run out while the events of a
tree run, then the run is the same after the links of dead handles are pruned: it gives the
same result, it leaves the same scene up to links, and each handle is linked with the same
live instances in the same order. -/
theorem run_pruneLinks {scene : Scene} {handles : List Handle} {updates : List LinkUpdate}
    (hstore : Store.IssuedBy handles scene.objects)
    (hlinks : Links.ReachedBy updates scene.links)
    (hends : ∀ entry ∈ scene.links.entries, entry.1 ∈ handles) (limit : Nat) (tree : EventTree)
    (hapart : ∀ error,
      (EventTree.run Registry.builtin.guarded limit tree scene).1 = .error error →
        ¬ error.IsRunOut) :
    let kept := EventTree.run .builtin limit tree scene
    let pruned := EventTree.run .builtin limit tree scene.pruneLinks
    pruned.1 = kept.1 ∧ pruned.2 = { kept.2 with links := pruned.2.links } ∧
      ∀ handle, pruned.2.linkedWith handle = kept.2.linkedWith handle := by
  intro kept pruned
  have hpairs := hlinks.represents
  have hissued : ∀ pair ∈ LinkUpdate.pairsAfter updates, ∀ handle ∈ pair,
      scene.objects.HasIssued handle := by
    intro pair hpair handle hmem
    obtain ⟨entry, hentry, rfl⟩ := List.mem_map.1 (hpairs.mem_keys_iff.2 ⟨pair, hpair, hmem⟩)
    exact hstore.hasIssued entry.1 (hends entry hentry)
  have hstart : otherLinks.alike scene scene.pruneLinks :=
    ⟨_, rfl, hstore.wellFormed, Links.agreeOn_prune hpairs hissued⟩
  have hrun := respected_otherLinks.run (.refl tree) (Nat.le_refl limit) (.inr rfl) hstart
  obtain ⟨hresult, links, hscene, hagrees⟩ := hrun.of_not_cut hapart
  rw [run_guarded hapart] at hresult hscene hagrees
  refine ⟨hresult.symm, ?_, fun handle => ?_⟩
  · exact hscene.trans (by rw [hscene]; rfl)
  · exact (congrArg (·.linkedWith handle) hscene).trans (hagrees.linkedWith_eq handle)

/-- Two coins that were linked with a player, of which one ended without its links. -/
def strayCoin : Scene :=
  { Scene.named "scene" with
    objects := Store.after [.create "Coin", .create "Coin", .create "Player", .destroy ⟨0, 0⟩]
    links := ((∅ : Links).link ⟨0, 0⟩ ⟨2, 0⟩).link ⟨1, 0⟩ ⟨2, 0⟩ }

/-- An event that links a new coin with the player, and one for the coins of the player. -/
def coinTree : EventTree :=
  [.branch ⟨false, false⟩ (.standard ⟨[], [⟨"objects/Create", ["Coin"], false⟩,
      ⟨"linked/LinkObjects", ["Coin", "Player"], false⟩]⟩) [],
    .branch ⟨false, false⟩ (.standard ⟨[⟨"linked/PickObjectsLinkedTo", ["Coin", "Player"], false⟩],
      [⟨"objects/SetVar", ["Coin", "owned", "true"], false⟩]⟩) []]

/-- The new coin takes the slot of the one that ended.  In one run the player is also linked
with the latter, in the other not, and nothing tells them apart. -/
theorem run_pruneLinks_of_strayCoin :
    (EventTree.run .builtin 64 coinTree strayCoin).2.links.count = 3 ∧
      (EventTree.run .builtin 64 coinTree strayCoin.pruneLinks).2.links.count = 2 ∧
      (EventTree.run .builtin 64 coinTree strayCoin).1 = .ok () ∧
      (EventTree.run .builtin 64 coinTree strayCoin.pruneLinks).1 = .ok () ∧
      (EventTree.run .builtin 64 coinTree strayCoin).2.linkedWith ⟨2, 0⟩ = [⟨1, 0⟩, ⟨0, 1⟩] ∧
      (EventTree.run .builtin 64 coinTree strayCoin.pruneLinks).2.linkedWith ⟨2, 0⟩ =
        [⟨1, 0⟩, ⟨0, 1⟩] := by
  have hissued : Store.IssuedBy [⟨0, 0⟩, ⟨1, 0⟩, ⟨2, 0⟩] strayCoin.objects :=
    (((Store.IssuedBy.start.update (.create "Coin") (by decide)).update
      (.create "Coin") (by decide)).update (.create "Player") (by decide)).update
      (.destroy ⟨0, 0⟩) (by decide)
  have hreached : Links.ReachedBy [.link ⟨0, 0⟩ ⟨2, 0⟩, .link ⟨1, 0⟩ ⟨2, 0⟩] strayCoin.links :=
    (Links.ReachedBy.start.update (.link ⟨0, 0⟩ ⟨2, 0⟩)).update (.link ⟨1, 0⟩ ⟨2, 0⟩)
  have hguarded : (EventTree.run Registry.builtin.guarded 64 coinTree strayCoin).1 = .ok () := by
    decide +kernel
  have hrun : (EventTree.run .builtin 64 coinTree strayCoin).1 = .ok () := by decide +kernel
  have hlinked : (EventTree.run .builtin 64 coinTree strayCoin).2.linkedWith ⟨2, 0⟩ =
      [⟨1, 0⟩, ⟨0, 1⟩] := by decide +kernel
  obtain ⟨hresult, -, hsame⟩ := run_pruneLinks hissued hreached (by decide +kernel) 64
    coinTree fun error herror => by rw [hguarded] at herror; cases herror
  refine ⟨by decide +kernel, by decide +kernel, hrun, hresult.trans hrun, hlinked, ?_⟩
  exact (hsame ⟨2, 0⟩).trans hlinked

end SceneLogic
