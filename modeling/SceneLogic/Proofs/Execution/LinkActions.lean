import SceneLogic.Proofs.Execution.Builtin
import SceneLogic.Proofs.Execution.LiveHandles
import SceneLogic.Proofs.Execution.LiveLinks
import SceneLogic.Proofs.Objects.LinkSet

/-!
# Linking and unlinking picked instances

Three actions change links: one links the picked instances of an object with the first of
another, one removes these links, and one removes all links of the picked instances.  Each of
them goes from one instance to the next, and each of its rounds changes the links of two handles
or more.  What comes of all rounds is one operation on the set of linked pairs: a union or a
difference.  For this the links need only join handles in both directions and none with itself.

## Main definitions

* `pairsWith` — the pairs of some handles with a target, which may be missing.
* `Context.Relinked` — the links are changed, and some lists hold their live handles.

## Main statements

* `Scene.foldl_joinObjects`, `Scene.foldl_partObjects`, `Scene.foldl_isolateObject` — what comes
  of all rounds.
* `Registry.execute_linkActions` — what the actions do to a context.
-/

namespace SceneLogic

/-- The pairs of some handles with a target; there are none if there is no target. -/
def pairsWith (handles : List Handle) (target : Option Handle) : Set (Sym2 Handle) :=
  {pair | ∃ handle ∈ handles, ∃ found ∈ target, pair = s(handle, found)}

/-! ## Scenes -/

namespace Scene

variable {scene : Scene} {handles : List Handle}

/-- Rounds that change the links alone come to the same change of the links. -/
theorem foldl_links {change : Scene → Handle → Scene} {update : Links → Handle → Links}
    (hchange : ∀ links, ∀ handle ∈ handles,
      change { scene with links } handle = { scene with links := update links handle }) :
    handles.foldl change scene = { scene with links := handles.foldl update scene.links } := by
  suffices hfold : ∀ links, handles.foldl change { scene with links } =
      { scene with links := handles.foldl update links } from hfold scene.links
  intro links
  induction handles generalizing links with
  | nil => rfl
  | cons handle rest ih =>
    rw [List.foldl_cons, List.foldl_cons, hchange links handle List.mem_cons_self]
    exact ih (fun links other hmem => hchange links other (List.mem_cons_of_mem _ hmem)) _

theorem joinObjects_none (scene : Scene) (handle : Option Handle) :
    scene.joinObjects handle none = scene := by
  unfold joinObjects
  split
  next htarget => cases htarget
  next => rfl

/-- Linking live instances with a live target adds the pairs of those that are not the target. -/
theorem foldl_joinObjects (hlinks : scene.links.Undirected)
    (hhandles : ∀ handle ∈ handles, scene.objects.isAlive handle = true) {target : Option Handle}
    (htarget : ∀ found ∈ target, scene.objects.isAlive found = true) :
    ∃ links : Links,
      handles.foldl (fun scene handle => scene.joinObjects (some handle) target) scene =
        { scene with links } ∧
      links.Undirected ∧
      links.joined = scene.links.joined ∪ {pair ∈ pairsWith handles target | ¬ pair.IsDiag} := by
  cases target with
  | none =>
    refine ⟨scene.links, ?_, hlinks, by simp [pairsWith]⟩
    exact List.foldl_fixed' (fun handle => joinObjects_none scene (some handle)) handles
  | some found =>
    have hfound : ∀ links, live? { scene with links } (some found) = some found :=
      fun _ => live?_eq_some.2 ⟨rfl, htarget found rfl⟩
    obtain ⟨hafter, hjoined⟩ := hlinks.foldl_link handles found
    refine ⟨_, foldl_links fun links handle hmem => ?_, hafter, hjoined.trans ?_⟩
    · have hhandle : live? { scene with links } (some handle) = some handle :=
        live?_eq_some.2 ⟨rfl, hhandles handle hmem⟩
      simp only [joinObjects, hhandle, hfound]
    · congr 1
      ext pair
      simp only [pairsWith, Option.mem_some_iff, exists_eq_left', Set.mem_ofPred_eq]
      constructor
      · rintro ⟨handle, hmem, hne, rfl⟩
        exact ⟨⟨handle, hmem, rfl⟩, Sym2.mk_isDiag_iff.not.2 hne⟩
      · rintro ⟨⟨handle, hmem, rfl⟩, hdiag⟩
        exact ⟨handle, hmem, Sym2.mk_isDiag_iff.not.1 hdiag, rfl⟩

/-- Unlinking handles from a target takes their pairs with it away. -/
theorem foldl_partObjects (hlinks : scene.links.Undirected) (handles : List Handle)
    (target : Option Handle) :
    ∃ links : Links,
      handles.foldl (fun scene handle => scene.partObjects (some handle) target) scene =
        { scene with links } ∧
      links.Undirected ∧ links.joined = scene.links.joined \ pairsWith handles target := by
  cases target with
  | none =>
    refine ⟨scene.links, ?_, hlinks, by simp [pairsWith]⟩
    exact List.foldl_fixed' (fun _ => rfl) handles
  | some found =>
    obtain ⟨hafter, hjoined⟩ := hlinks.foldl_unlink handles found
    refine ⟨_, foldl_links fun links handle _ => rfl, hafter, hjoined.trans ?_⟩
    simp [pairsWith]

/-- Removing the links of handles takes all pairs away that one of them is in. -/
theorem foldl_isolateObject (hlinks : scene.links.Undirected) (handles : List Handle) :
    ∃ links : Links,
      handles.foldl (fun scene handle => scene.isolateObject (some handle)) scene =
        { scene with links } ∧
      links.Undirected ∧
      links.joined = scene.links.joined \ {pair | ∃ handle ∈ handles, handle ∈ pair} :=
  ⟨_, foldl_links fun _ _ _ => rfl, hlinks.foldl_unlinkAll handles⟩

end Scene

/-! ## Contexts -/

/-- The links join some pairs, in both directions, and nothing else has changed in the scene.
The lists of some names are filled and hold their live handles, and all others are as they
were. -/
structure Context.Relinked (before after : Context) (names : List String)
    (pairs : Set (Sym2 Handle)) : Prop where
  undirected : after.scene.links.Undirected
  joined : after.scene.links.joined = pairs
  scene_eq : after.scene = { before.scene with links := after.scene.links }
  get?_picking : ∀ name, after.picking.get? name =
    if name ∈ names then some (before.liveHandles name) else before.picking.get? name

namespace Context

variable {before middle after : Context} {names : List String} {pairs : Set (Sym2 Handle)}

/-- Other links come with lists that were filled. -/
theorem relinked_foldr_refresh {links : Links} (hlinks : links.Undirected) (context : Context)
    (names : List String) :
    context.Relinked ⟨{ context.scene with links },
      (names.foldr (fun name context => context.refresh name) context).picking⟩ names
      links.joined where
  undirected := hlinks
  joined := rfl
  scene_eq := rfl
  get?_picking := context.get?_foldr_refresh names

/-- The same handles are live afterwards. -/
theorem Relinked.liveHandles (h : before.Relinked after names pairs) (object : String) :
    after.liveHandles object = before.liveHandles object := by
  have hobjects : after.scene.objects = before.scene.objects := by rw [h.scene_eq]
  by_cases hname : object ∈ names
  · have hlist : after.picking.get? object = some (before.liveHandles object) := by
      rw [h.get?_picking, if_pos hname]
    exact liveHandles_of_get? hlist (by rw [hobjects])
  · rw [Context.liveHandles, h.get?_picking, if_neg hname, hobjects, Context.liveHandles]

/-- Of two changes of links the second counts. -/
theorem Relinked.trans {others : Set (Sym2 Handle)} (h : before.Relinked middle names others)
    (hnext : middle.Relinked after names pairs) : before.Relinked after names pairs where
  undirected := hnext.undirected
  joined := hnext.joined
  scene_eq := by rw [hnext.scene_eq, h.scene_eq]
  get?_picking name := by
    rw [hnext.get?_picking, h.get?_picking, h.liveHandles]
    split <;> rfl

end Context

/-! ## Instructions -/

namespace Builtin

variable {instruction : Instruction} {object other : String}

/-- The rounds are made for the live handles of an object, with the first of another. -/
theorem forEachWith_eq (hobject : instruction.name? 0 = some object)
    (hother : instruction.name? 1 = some other)
    (change : Scene → Option Handle → Option Handle → Scene) (context : Context) :
    forEachWith change instruction context = (.done,
      ⟨(context.liveHandles object).foldl
          (fun scene handle => change scene (some handle) (context.liveHandles other).head?)
          context.scene,
        ((context.refresh other).refresh object).picking⟩) := by
  simp only [forEachWith, withName, hobject, hother, Context.firstPicked?_eq, Context.picked_eq,
    Context.liveHandles_refresh]
  rfl

/-- Removing all links is done for the live handles of an object. -/
theorem unlinkAllOfObject_eq (hobject : instruction.name? 0 = some object) (context : Context) :
    unlinkAllOfObject instruction context = (.done,
      ⟨(context.liveHandles object).foldl
          (fun scene handle => scene.isolateObject (some handle)) context.scene,
        (context.refresh object).picking⟩) := by
  simp only [unlinkAllOfObject, withName, hobject, Context.picked_eq]
  rfl

end Builtin

namespace Registry

variable {context : Context}

/-- Linking joins the live handles of an object with the first of another. -/
theorem execute_linkObjects (hlinks : context.scene.links.Undirected) (x y : String)
    (inverted : Bool) :
    let object := Expression.resolveName x
    let other := Expression.resolveName y
    let added := pairsWith (context.liveHandles object) (context.liveHandles other).head?
    ∃ after, builtin.execute ⟨"linked/LinkObjects", [x, y], inverted⟩ .action context =
        (.ok .done, after) ∧
      context.Relinked after [object, other]
        (context.scene.links.joined ∪ {pair ∈ added | ¬ pair.IsDiag}) := by
  intro object other added
  let instruction : Instruction := ⟨"linked/LinkObjects", [x, y], inverted⟩
  have hoffers : builtin.Offers instruction.operation .action 2 Builtin.linkObjects :=
    ⟨_, (get?_builtin _).trans rfl, rfl, rfl⟩
  obtain ⟨links, hfold, hafter, hjoined⟩ := Scene.foldl_joinObjects hlinks
    (fun _ => Context.isAlive_of_mem_liveHandles)
    fun _ hfound => Context.isAlive_of_mem_liveHandles (List.mem_of_head? hfound)
  rw [← hjoined]
  refine ⟨_, hoffers.execute_done rfl ?_, Context.relinked_foldr_refresh hafter context _⟩
  rw [Builtin.linkObjects, Builtin.forEachWith_eq rfl rfl, hfold]
  rfl

/-- Unlinking parts the live handles of an object from the first of another. -/
theorem execute_unlinkObjects (hlinks : context.scene.links.Undirected) (x y : String)
    (inverted : Bool) :
    let object := Expression.resolveName x
    let other := Expression.resolveName y
    let removed := pairsWith (context.liveHandles object) (context.liveHandles other).head?
    ∃ after, builtin.execute ⟨"linked/RemoveLinkBetween", [x, y], inverted⟩ .action context =
        (.ok .done, after) ∧
      context.Relinked after [object, other] (context.scene.links.joined \ removed) := by
  intro object other removed
  let instruction : Instruction := ⟨"linked/RemoveLinkBetween", [x, y], inverted⟩
  have hoffers : builtin.Offers instruction.operation .action 2 Builtin.unlinkObjects :=
    ⟨_, (get?_builtin _).trans rfl, rfl, rfl⟩
  obtain ⟨links, hfold, hafter, hjoined⟩ := Scene.foldl_partObjects hlinks
    (context.liveHandles object) (context.liveHandles other).head?
  rw [← hjoined]
  refine ⟨_, hoffers.execute_done rfl ?_, Context.relinked_foldr_refresh hafter context _⟩
  rw [Builtin.unlinkObjects, Builtin.forEachWith_eq rfl rfl, hfold]
  rfl

/-- Removing all links leaves the links that no live handle of an object has. -/
theorem execute_unlinkAllOfObject (hlinks : context.scene.links.Undirected) (x : String)
    (inverted : Bool) :
    let object := Expression.resolveName x
    let removed := {pair | ∃ handle ∈ context.liveHandles object, handle ∈ pair}
    ∃ after, builtin.execute ⟨"linked/RemoveAllLinksOf", [x], inverted⟩ .action context =
        (.ok .done, after) ∧
      context.Relinked after [object] (context.scene.links.joined \ removed) := by
  intro object removed
  let instruction : Instruction := ⟨"linked/RemoveAllLinksOf", [x], inverted⟩
  have hoffers : builtin.Offers instruction.operation .action 1 Builtin.unlinkAllOfObject :=
    ⟨_, (get?_builtin _).trans rfl, rfl, rfl⟩
  obtain ⟨links, hfold, hafter, hjoined⟩ := Scene.foldl_isolateObject hlinks
    (context.liveHandles object)
  rw [← hjoined]
  refine ⟨_, hoffers.execute_done rfl ?_, Context.relinked_foldr_refresh hafter context _⟩
  rw [Builtin.unlinkAllOfObject_eq rfl, hfold]
  rfl

/-- **Link actions are operations on the set of links.**  Let links be undirected.  Linking
adds the pairs of the live handles of an object with a target, the first live handle of another
object, save that of the target with itself; unlinking takes these pairs away; and removing all
links takes every pair away that a live handle of the object is in.  Without a target the first
two leave the set as it is.  In each case the links are undirected again, the rest of the scene
and the lists of all other objects are as they were, and the lists of the named objects are
filled and hold their live handles.  So unlinking just after linking leaves what unlinking alone
would have left: no live handle of the object is linked with the target. -/
theorem execute_linkActions (hlinks : context.scene.links.Undirected) (x y : String)
    (inverted : Bool) :
    let object := Expression.resolveName x
    let other := Expression.resolveName y
    let picked := context.liveHandles object
    let target := (context.liveHandles other).head?
    let pairs := context.scene.links.joined
    let link : Instruction := ⟨"linked/LinkObjects", [x, y], inverted⟩
    let unlink : Instruction := ⟨"linked/RemoveLinkBetween", [x, y], inverted⟩
    let isolate : Instruction := ⟨"linked/RemoveAllLinksOf", [x], inverted⟩
    (∃ unlinked, builtin.execute unlink .action context = (.ok .done, unlinked) ∧
      context.Relinked unlinked [object, other] (pairs \ pairsWith picked target)) ∧
    (∃ isolated, builtin.execute isolate .action context = (.ok .done, isolated) ∧
      context.Relinked isolated [object] (pairs \ {pair | ∃ handle ∈ picked, handle ∈ pair})) ∧
    ∃ linked, builtin.execute link .action context = (.ok .done, linked) ∧
      context.Relinked linked [object, other]
        (pairs ∪ {pair ∈ pairsWith picked target | ¬ pair.IsDiag}) ∧
      ∃ undone, builtin.execute unlink .action linked = (.ok .done, undone) ∧
        context.Relinked undone [object, other] (pairs \ pairsWith picked target) ∧
        ∀ handle ∈ picked, ∀ found ∈ target,
          undone.scene.links.areLinked handle found = false := by
  intro object other picked target pairs link unlink isolate
  obtain ⟨linked, hlink, hlinked⟩ := execute_linkObjects hlinks x y inverted
  obtain ⟨undone, hundo, hundone⟩ := execute_unlinkObjects hlinked.undirected x y inverted
  -- The same handles are live in between, and what was added is taken away again.
  have hadded : {pair ∈ pairsWith picked target | ¬ pair.IsDiag} ⊆ pairsWith picked target :=
    fun _ hpair => hpair.1
  rw [hlinked.joined, hlinked.liveHandles, hlinked.liveHandles, Set.union_sdiff_distrib,
    Set.sdiff_eq_empty.2 hadded, Set.union_empty] at hundone
  have hrelinked := hlinked.trans hundone
  refine ⟨execute_unlinkObjects hlinks x y inverted, execute_unlinkAllOfObject hlinks x inverted,
    linked, hlink, hlinked, undone, hundo, hrelinked, fun handle hhandle found hfound => ?_⟩
  have hgone : s(handle, found) ∉ undone.scene.links.joined := by
    rw [hrelinked.joined]
    exact fun hpair => hpair.2 ⟨handle, hhandle, found, hfound, rfl⟩
  rwa [hrelinked.undirected.mem_joined, Bool.not_eq_true] at hgone

/-- Three coins that are left of four, a purse and its owner.  They are linked in a chain that
the first coin is not part of. -/
def coinChain : Scene :=
  { Scene.named "scene" with
    objects := Store.after [.create "Coin", .create "Coin", .create "Coin", .create "Coin",
      .create "Purse", .create "Owner", .destroy ⟨1, 0⟩]
    links := (((∅ : Links).link ⟨2, 0⟩ ⟨3, 0⟩).link ⟨3, 0⟩ ⟨4, 0⟩).link ⟨4, 0⟩ ⟨5, 0⟩ }

/-- The coins are picked, one of them twice, and so is the one that ended. -/
def chainContext : Context :=
  ⟨coinChain, (∅ : Picking).insert "Coin" [⟨2, 0⟩, ⟨1, 0⟩, ⟨3, 0⟩, ⟨0, 0⟩, ⟨2, 0⟩]⟩

/-- The coins are linked with the first of them, which is one of them and linked with another
already, and unlinked again.  The coin outside the chain is linked in between; the target is
never linked with itself; the purse stays linked with a coin until all links of the coins are
removed, and with its owner also then. -/
theorem execute_linkActions_of_coinChain :
    chainContext.scene.links.Undirected ∧
      (∃ unlinked, builtin.execute ⟨"linked/RemoveLinkBetween", ["Coin", "Coin"], false⟩ .action
          chainContext = (.ok .done, unlinked) ∧
        s(⟨2, 0⟩, ⟨3, 0⟩) ∉ unlinked.scene.links.joined ∧
        s(⟨3, 0⟩, ⟨4, 0⟩) ∈ unlinked.scene.links.joined) ∧
      (∃ isolated, builtin.execute ⟨"linked/RemoveAllLinksOf", ["Coin"], false⟩ .action
          chainContext = (.ok .done, isolated) ∧
        s(⟨3, 0⟩, ⟨4, 0⟩) ∉ isolated.scene.links.joined ∧
        s(⟨4, 0⟩, ⟨5, 0⟩) ∈ isolated.scene.links.joined) ∧
      ∃ linked, builtin.execute ⟨"linked/LinkObjects", ["Coin", "Coin"], false⟩ .action
          chainContext = (.ok .done, linked) ∧
        s(⟨0, 0⟩, ⟨2, 0⟩) ∈ linked.scene.links.joined ∧
        s(⟨2, 0⟩, ⟨2, 0⟩) ∉ linked.scene.links.joined ∧
        linked.picking.get? "Coin" = some [⟨2, 0⟩, ⟨3, 0⟩, ⟨0, 0⟩, ⟨2, 0⟩] ∧
        ∃ undone, builtin.execute ⟨"linked/RemoveLinkBetween", ["Coin", "Coin"], false⟩ .action
            linked = (.ok .done, undone) ∧
          undone.scene.links.areLinked ⟨0, 0⟩ ⟨2, 0⟩ = false := by
  have hlinks : chainContext.scene.links.Undirected :=
    (((Links.undirected_empty.link ⟨2, 0⟩ ⟨3, 0⟩).1.link ⟨3, 0⟩ ⟨4, 0⟩).1.link ⟨4, 0⟩ ⟨5, 0⟩).1
  have hname : Expression.resolveName "Coin" = "Coin" := by decide +kernel
  have hlive : chainContext.liveHandles "Coin" = [⟨2, 0⟩, ⟨3, 0⟩, ⟨0, 0⟩, ⟨2, 0⟩] := by
    decide +kernel
  obtain ⟨⟨unlinked, hunlink, hunlinked⟩, ⟨isolated, hisolate, hisolated⟩, linked, hlink, hlinked,
    undone, hundo, -, hgone⟩ := execute_linkActions hlinks "Coin" "Coin" false
  simp only [hname, hlive] at hunlinked hisolated hlinked hgone
  refine ⟨hlinks, ⟨unlinked, hunlink, ?_, ?_⟩, ⟨isolated, hisolate, ?_, ?_⟩, linked, hlink, ?_, ?_,
    ?_, undone, hundo, ?_⟩
  · rw [hunlinked.joined]
    exact fun hpair => hpair.2 ⟨⟨3, 0⟩, by decide, ⟨2, 0⟩, rfl, Sym2.eq_swap⟩
  · rw [hunlinked.joined]
    refine ⟨hlinks.mem_joined.2 (by decide), ?_⟩
    rintro ⟨handle, -, found, hfound, hpair⟩
    obtain rfl : ⟨2, 0⟩ = found := Option.some.inj hfound
    rcases Sym2.eq_iff.1 hpair with ⟨-, h⟩ | ⟨h, -⟩ <;> exact absurd h (by decide)
  · rw [hisolated.joined]
    exact fun hpair => hpair.2 ⟨⟨3, 0⟩, by decide, Sym2.mem_mk_left _ _⟩
  · rw [hisolated.joined]
    refine ⟨hlinks.mem_joined.2 (by decide), ?_⟩
    rintro ⟨handle, hmem, hend⟩
    revert handle
    decide
  · rw [hlinked.joined]
    exact .inr ⟨⟨⟨0, 0⟩, by decide, ⟨2, 0⟩, rfl, rfl⟩, by decide⟩
  · exact hlinked.undirected.not_mem_joined_diag _
  · rw [hlinked.get?_picking, if_pos List.mem_cons_self, hlive]
  · exact hgone ⟨0, 0⟩ (by decide) ⟨2, 0⟩ rfl

end Registry

end SceneLogic
