import SceneLogic.Proofs.Objects.LinkRefinement

/-!
# Histories of links

What a scene can know of its links is a function of the updates made to them: there is
a list of pairs that the updates determine, and all views are views of it.  A history
says nothing about the order in which the handles have their entries: between two
updates the entries may change places, as they do in a hash map.

## Main definitions

* `LinkUpdate` — an update, with its effect on links and on a list of pairs.
* `Links.ReachedBy` — the links after some updates.

## Main statements

* `Links.ReachedBy.represents` — updates of the links and of the pairs stay in step.
* `Links.views_of_reachedBy` — the views of the links after any updates.
-/

namespace SceneLogic

/-- An update of links. -/
inductive LinkUpdate where
  /-- Link two handles. -/
  | link (a b : Handle)
  /-- Remove the link between two handles. -/
  | unlink (a b : Handle)
  /-- Remove the links of a handle. -/
  | unlinkAll (handle : Handle)
  /-- Remove all links. -/
  | clear
  /-- Remove the links of handles that name no instance of a store. -/
  | prune (store : Store)

namespace LinkUpdate

/-- Make an update. -/
def apply (links : Links) : LinkUpdate → Links
  | link a b => links.link a b
  | unlink a b => links.unlink a b
  | unlinkAll handle => links.unlinkAll handle
  | clear => ∅
  | prune store => links.prune store

/-- What an update means for pairs, oldest first. -/
def onPairs (pairs : List (Sym2 Handle)) : LinkUpdate → List (Sym2 Handle)
  | link a b => if a ≠ b ∧ s(a, b) ∉ pairs then pairs ++ [s(a, b)] else pairs
  | unlink a b => pairs.filter (· ≠ s(a, b))
  | unlinkAll handle => pairs.filter (handle ∉ ·)
  | clear => []
  | prune store => pairs.filter fun pair => ∀ handle ∈ pair.toFinset, store.isAlive handle

/-- The pairs after some updates, of which there were none before. -/
def pairsAfter (updates : List LinkUpdate) : List (Sym2 Handle) := updates.foldl onPairs []

theorem pairsAfter_append (updates : List LinkUpdate) (update : LinkUpdate) :
    pairsAfter (updates ++ [update]) = update.onPairs (pairsAfter updates) := by
  simp only [pairsAfter, List.foldl_append, List.foldl_cons, List.foldl_nil]

end LinkUpdate

namespace Links

open LinkUpdate

/-- The links after some updates, of which there were none before.  The entries may
change places at any time. -/
inductive ReachedBy : List LinkUpdate → Links → Prop where
  | start : ReachedBy [] ∅
  | reorder {updates : List LinkUpdate} {links others : Links}
      (hreached : ReachedBy updates links) (hperm : links.entries.Perm others.entries) :
      ReachedBy updates others
  | update {updates : List LinkUpdate} {links : Links} (hreached : ReachedBy updates links)
      (update : LinkUpdate) : ReachedBy (updates ++ [update]) (update.apply links)

variable {updates : List LinkUpdate} {links : Links}

/-- One update of the links is one update of the pairs. -/
theorem Represents.apply {pairs : List (Sym2 Handle)} (hlinks : links.Represents pairs)
    (update : LinkUpdate) : (update.apply links).Represents (update.onPairs pairs) := by
  cases update with
  | link a b => exact hlinks.link a b
  | unlink a b => exact hlinks.unlink a b
  | unlinkAll handle => exact hlinks.unlinkAll handle
  | clear => exact represents_empty
  | prune store => exact hlinks.prune store

/-- The links after some updates represent the pairs after them. -/
theorem ReachedBy.represents (hreached : ReachedBy updates links) :
    links.Represents (pairsAfter updates) := by
  induction hreached with
  | start => exact represents_empty
  | reorder _ hperm ih => exact ih.of_perm hperm
  | update _ update ih =>
    rw [pairsAfter_append]
    exact ih.apply update

/-- **Links are a list of pairs.**  After any updates the pairs that they leave are
unordered pairs of different handles without repetition; the partners of a handle are
those in its pairs, in the order of the pairs; two handles are linked, in both
directions, when they are a pair; there are as many links as pairs; and the stale handles
that a prune finds are as many as the dead ends of the pairs. -/
theorem views_of_reachedBy (hreached : ReachedBy updates links) :
    let pairs := pairsAfter updates
    pairs.Nodup ∧ (∀ pair ∈ pairs, ¬ pair.IsDiag) ∧
      (∀ handle, links.partners handle = partnersIn pairs handle) ∧
      (∀ a b, links.areLinked a b = links.areLinked b a ∧
        (links.areLinked a b = true ↔ s(a, b) ∈ pairs)) ∧
      links.count = pairs.length ∧
      (links.isEmpty = true ↔ pairs = []) ∧
      ∀ store, (links.stale store).length = (deadEnds pairs store).card := by
  have hlinks := hreached.represents
  refine ⟨hlinks.nodup, hlinks.not_isDiag, hlinks.partners_eq, fun a b => ?_, hlinks.count,
    hlinks.isEmpty, hlinks.length_stale⟩
  exact ⟨hlinks.areLinked_comm a b, hlinks.areLinked⟩

/-- Three links with a first handle: the oldest is made again the other way round, which
changes nothing, and then removed. -/
def starUpdates : List LinkUpdate :=
  [.link ⟨0, 0⟩ ⟨1, 0⟩, .link ⟨2, 0⟩ ⟨0, 0⟩, .link ⟨1, 0⟩ ⟨0, 0⟩, .link ⟨0, 0⟩ ⟨3, 7⟩,
    .unlink ⟨1, 0⟩ ⟨0, 0⟩]

/-- The updates of `starUpdates` leave two links, in the order in which they were made. -/
theorem views_of_reachedBy_starUpdates :
    ∃ links, ReachedBy starUpdates links ∧
      links.partners ⟨0, 0⟩ = [⟨2, 0⟩, ⟨3, 7⟩] ∧ links.count = 2 ∧
      links.areLinked ⟨3, 7⟩ ⟨0, 0⟩ = true ∧ (links.stale ∅).length = 3 := by
  have hreached :=
    ((((ReachedBy.start.update (.link ⟨0, 0⟩ ⟨1, 0⟩)).update (.link ⟨2, 0⟩ ⟨0, 0⟩)).update
      (.link ⟨1, 0⟩ ⟨0, 0⟩)).update (.link ⟨0, 0⟩ ⟨3, 7⟩)).update (.unlink ⟨1, 0⟩ ⟨0, 0⟩)
  refine ⟨_, hreached, ?_⟩
  have hviews := views_of_reachedBy hreached
  obtain ⟨-, -, hpartners, hlinked, hcount, -, hstale⟩ := hviews
  refine ⟨?_, ?_, ?_, ?_⟩
  · rw [hpartners]; decide
  · rw [hcount]; decide
  · rw [(hlinked _ _).2]; decide
  · rw [hstale]; decide

end Links

end SceneLogic
