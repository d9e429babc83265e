import SceneLogic.Scene
import SceneLogic.Proofs.Objects.LinkHistory
import SceneLogic.Proofs.Objects.StoreHistory

/-!
# The live view of the links

The store and the links of a scene are open to its owner, who can end instances without a word to
the links, link handles that name nothing, and give a slot away again while its former handle is
still linked.  What a scene reports as linked with a handle stays in order all the same: the links
themselves are a list of pairs whatever the store does, and the report keeps the pairs with both
ends alive, which are just those that pruning keeps.

## Main definitions

* `DirectUpdate` — what can be done with a scene, its store and its links.
* `Scene.ReachedDirectly` — the scenes that come about in this way.
* `Scene.LiveView` — how the linked handles that a scene reports hang together.

## Main statements

* `Scene.ReachedDirectly.represents` — the links are a list of pairs.
* `Scene.linkedWith_pruneLinks` — pruning keeps all that is reported.
* `Scene.ReachedDirectly.liveView` — the report is in order after any updates.
-/

namespace SceneLogic

/-! ## Updates behind the back of a scene -/

/-- What can be done with a scene: an instance is created, or deleted with its links, or the
store or the links are updated directly. -/
inductive DirectUpdate where
  /-- Create an instance of an object. -/
  | createObject (object : String)
  /-- Delete the instance that a handle names, and the links of the handle. -/
  | deleteObject (handle : Handle)
  /-- Update the store, without a word to the links. -/
  | objects (update : StoreUpdate)
  /-- Update the links, with handles of any kind. -/
  | links (update : LinkUpdate)
  /-- Prune the links of the scene. -/
  | pruneLinks

/-- Make an update. -/
def DirectUpdate.apply (scene : Scene) : DirectUpdate → Scene
  | createObject object => (scene.createObject object).2
  | deleteObject handle => (scene.deleteObject handle).2
  | objects update => { scene with objects := update.apply scene.objects }
  | links update => { scene with links := update.apply scene.links }
  | pruneLinks => scene.pruneLinks

namespace Scene

/-- The scenes that come about from an empty one or from a layout by direct updates.  The entries
of the links may change places at any time, as they do in a hash map. -/
inductive ReachedDirectly : Scene → Prop where
  | named (name : String) : ReachedDirectly (named name)
  | ofLayout (layout : Layout) : ReachedDirectly (ofLayout layout)
  | update {scene : Scene} (hscene : ReachedDirectly scene) (update : DirectUpdate) :
    ReachedDirectly (update.apply scene)
  | reorder {scene : Scene} {links : Links} (hscene : ReachedDirectly scene)
    (hperm : scene.links.entries.Perm links.entries) : ReachedDirectly { scene with links }

variable {scene : Scene} {pairs : List (Sym2 Handle)}

/-- One update leaves the links a list of pairs. -/
theorem exists_represents_apply (hlinks : scene.links.Represents pairs) (update : DirectUpdate) :
    ∃ pairs, (update.apply scene).links.Represents pairs := by
  cases update with
  | createObject object => exact ⟨pairs, hlinks⟩
  | deleteObject handle => exact ⟨_, hlinks.unlinkAll handle⟩
  | objects update => exact ⟨pairs, hlinks⟩
  | links update => exact ⟨_, hlinks.apply update⟩
  | pruneLinks => exact ⟨_, hlinks.prune scene.objects⟩

/-- The links are a list of pairs, by induction on the updates. -/
theorem ReachedDirectly.represents (hscene : scene.ReachedDirectly) :
    ∃ pairs, scene.links.Represents pairs := by
  induction hscene with
  | named name => exact ⟨[], Links.represents_empty⟩
  | ofLayout layout => exact ⟨[], Links.represents_empty⟩
  | update _ update ih =>
    obtain ⟨pairs, hlinks⟩ := ih
    exact exists_represents_apply hlinks update
  | reorder _ hperm ih =>
    obtain ⟨pairs, hlinks⟩ := ih
    exact ⟨pairs, hlinks.of_perm hperm⟩

/-! ## What is reported -/

/-- A handle is linked with another if they are a pair and both are alive. -/
theorem mem_linkedWith_iff (hlinks : scene.links.Represents pairs) {a b : Handle} :
    b ∈ scene.linkedWith a ↔
      s(a, b) ∈ pairs ∧ scene.objects.isAlive a = true ∧ scene.objects.isAlive b = true := by
  unfold linkedWith
  split
  next ha => rw [List.mem_filter, hlinks.mem_partners, and_iff_right ha]
  next ha => simp [ha]

theorem mem_linkedWith_comm (hlinks : scene.links.Represents pairs) (a b : Handle) :
    b ∈ scene.linkedWith a ↔ a ∈ scene.linkedWith b := by
  rw [mem_linkedWith_iff hlinks, mem_linkedWith_iff hlinks, Sym2.eq_swap]
  tauto

/-- No handle is linked with itself. -/
theorem not_mem_linkedWith_self (hlinks : scene.links.Represents pairs) (handle : Handle) :
    handle ∉ scene.linkedWith handle := by
  rw [mem_linkedWith_iff hlinks]
  rintro ⟨hpair, -⟩
  exact hlinks.not_isDiag _ hpair (Sym2.mk_isDiag_iff.2 rfl)

theorem linkedWith_of_dead {handle : Handle} (hdead : scene.objects.isAlive handle = false) :
    scene.linkedWith handle = [] := by
  rw [linkedWith, hdead]
  rfl

theorem nodup_linkedWith (hlinks : scene.links.Represents pairs) (handle : Handle) :
    (scene.linkedWith handle).Nodup := by
  unfold linkedWith
  split
  · rw [hlinks.partners_eq]
    exact (nodup_partnersIn hlinks.nodup handle).filter _
  · exact List.nodup_nil

/-- A pair with both ends alive is what pruning keeps. -/
theorem represents_pruneLinks (hlinks : scene.links.Represents pairs) :
    scene.pruneLinks.links.Represents
      (pairs.filter fun pair => ∀ handle ∈ pair.toFinset, scene.objects.isAlive handle) :=
  hlinks.prune scene.objects

/-- Pruning keeps all that is reported. -/
theorem linkedWith_pruneLinks (hlinks : scene.links.Represents pairs) (handle : Handle) :
    scene.pruneLinks.linkedWith handle = scene.linkedWith handle := by
  have hobjects : scene.pruneLinks.objects = scene.objects := rfl
  rw [linkedWith, linkedWith, hobjects]
  split
  next halive =>
    rw [(represents_pruneLinks hlinks).partners_eq, hlinks.partners_eq, partnersIn_filter,
      List.filter_filter]
    refine List.filter_congr fun partner _ => ?_
    simp [halive]
  next => rfl

/-- Pruning leaves links between live handles only. -/
theorem isAlive_of_mem_partners_pruneLinks (hlinks : scene.links.Represents pairs)
    {handle partner : Handle} (hmem : partner ∈ scene.pruneLinks.links.partners handle) :
    scene.objects.isAlive handle = true ∧ scene.objects.isAlive partner = true := by
  rw [(represents_pruneLinks hlinks).mem_partners, List.mem_filter] at hmem
  have hends := of_decide_eq_true hmem.2
  exact ⟨hends handle (by simp), hends partner (by simp)⟩

/-- Pruning leaves no stale handle. -/
theorem stale_pruneLinks (hlinks : scene.links.Represents pairs) :
    scene.pruneLinks.links.stale scene.objects = [] := by
  rw [List.eq_nil_iff_forall_not_mem]
  intro handle hstale
  obtain ⟨⟨pair, hpair, hmem⟩, hdead⟩ := (represents_pruneLinks hlinks).mem_stale_iff.1 hstale
  have hends := of_decide_eq_true (List.mem_filter.1 hpair).2
  rw [hends handle (Sym2.mem_toFinset.2 hmem)] at hdead
  cases hdead

/-- How the linked handles that a scene reports hang together, and what pruning does to them. -/
structure LiveView (scene : Scene) : Prop where
  mem_iff : ∀ a b, b ∈ scene.linkedWith a ↔ scene.links.areLinked a b = true ∧
    scene.objects.isAlive a = true ∧ scene.objects.isAlive b = true
  symm : ∀ a b, b ∈ scene.linkedWith a ↔ a ∈ scene.linkedWith b
  nodup : ∀ a, (scene.linkedWith a).Nodup
  irrefl : ∀ a, a ∉ scene.linkedWith a
  alive : ∀ a, ∀ b ∈ scene.linkedWith a, scene.objects.isAlive b = true
  dead : ∀ a, scene.objects.isAlive a = false → scene.linkedWith a = []
  pruned : ∀ a, scene.pruneLinks.linkedWith a = scene.linkedWith a
  ends_alive : ∀ a, ∀ b ∈ scene.pruneLinks.links.partners a,
    scene.objects.isAlive a = true ∧ scene.objects.isAlive b = true
  none_stale : (scene.pruneLinks.links.stale scene.objects).length = 0

/-- **The report is in order, whatever was done behind the back of the scene.**  Take any scene
that comes about from an empty one or from a layout by creating and deleting instances, by direct
updates of the store, and by direct updates of the links with handles of any kind.  Two handles
are reported as linked if they are linked and both alive, hence in both directions.  No handle is
reported twice, with itself or if it is dead, and for a dead handle none is.  Pruning changes no
report; after it every linked handle is alive, and another pruning finds nothing. -/
theorem ReachedDirectly.liveView (hscene : scene.ReachedDirectly) : scene.LiveView := by
  obtain ⟨pairs, hlinks⟩ := hscene.represents
  constructor
  case mem_iff => exact fun a b => by rw [mem_linkedWith_iff hlinks, hlinks.areLinked]
  case symm => exact mem_linkedWith_comm hlinks
  case nodup => exact nodup_linkedWith hlinks
  case irrefl => exact not_mem_linkedWith_self hlinks
  case alive => exact fun a b hb => ((mem_linkedWith_iff hlinks).1 hb).2.2
  case dead => exact fun a => linkedWith_of_dead
  case pruned => exact linkedWith_pruneLinks hlinks
  case ends_alive => exact fun a b => isAlive_of_mem_partners_pruneLinks hlinks
  case none_stale => rw [stale_pruneLinks hlinks, List.length_nil]

/-- Two coins are linked with a player.  One of them ends in the store alone, another takes its
slot, and the player is linked with a handle that names nothing. -/
def reusedSlot : Scene :=
  [DirectUpdate.createObject "Player", .createObject "Coin", .createObject "Coin",
    .links (.link ⟨0, 0⟩ ⟨1, 0⟩), .links (.link ⟨0, 0⟩ ⟨2, 0⟩), .objects (.destroy ⟨1, 0⟩),
    .createObject "Coin", .links (.link ⟨9, 9⟩ ⟨0, 0⟩)].foldl DirectUpdate.apply (named "scene")

/-- The player has three links, but is reported to be linked with the coin that is left, and the
coin with the player, also after pruning. -/
theorem ReachedDirectly.liveView_of_reusedSlot :
    reusedSlot.links.partners ⟨0, 0⟩ = [⟨1, 0⟩, ⟨2, 0⟩, ⟨9, 9⟩] ∧
      reusedSlot.linkedWith ⟨0, 0⟩ = [⟨2, 0⟩] ∧ ⟨0, 0⟩ ∈ reusedSlot.linkedWith ⟨2, 0⟩ ∧
      reusedSlot.linkedWith ⟨1, 0⟩ = [] ∧ reusedSlot.pruneLinks.linkedWith ⟨0, 0⟩ = [⟨2, 0⟩] := by
  have hreached : reusedSlot.ReachedDirectly :=
    ((((((((ReachedDirectly.named "scene").update (.createObject "Player")).update
      (.createObject "Coin")).update (.createObject "Coin")).update
      (.links (.link ⟨0, 0⟩ ⟨1, 0⟩))).update (.links (.link ⟨0, 0⟩ ⟨2, 0⟩))).update
      (.objects (.destroy ⟨1, 0⟩))).update (.createObject "Coin")).update
      (.links (.link ⟨9, 9⟩ ⟨0, 0⟩))
  have hview := hreached.liveView
  have hlinked : reusedSlot.linkedWith ⟨0, 0⟩ = [⟨2, 0⟩] := by decide +kernel
  refine ⟨by decide +kernel, hlinked, (hview.symm _ _).1 (by simp [hlinked]),
    hview.dead ⟨1, 0⟩ (by decide +kernel), (hview.pruned ⟨0, 0⟩).trans hlinked⟩

end Scene

end SceneLogic
