import SceneLogic.Proofs.Objects.LinkRefinement

/-!
# Links as a set of pairs

Seen from outside, links that are symmetric and join no handle with itself are a set of
unordered pairs.  Nothing more need be known of them to tell what an update does to that set:
linking adds a pair, unlinking takes one away, and unlinking a handle takes away all pairs that
it is in.  Doing this for one handle after another does it for all of them.

## Main definitions

* `Links.joined` — the pairs of linked handles.
* `Links.Undirected` — linked in both directions, and no handle with itself.

## Main statements

* `Links.undirected_of_areLinked_iff` — how links are shown to be a given set.
* `Links.Undirected.foldl_link`, `Links.Undirected.foldl_unlink`,
  `Links.Undirected.foldl_unlinkAll` — what updates for several handles do to the set.
-/

namespace SceneLogic

namespace Links

variable {links : Links}

/-- The pairs of linked handles. -/
def joined (links : Links) : Set (Sym2 Handle) :=
  {pair | ∃ a b, pair = s(a, b) ∧ links.areLinked a b = true}

/-- Two handles are linked in both directions or in none, and no handle with itself. -/
structure Undirected (links : Links) : Prop where
  symm : ∀ a b, links.areLinked a b = links.areLinked b a
  irrefl : ∀ handle, links.areLinked handle handle = false

theorem Undirected.mem_joined (hlinks : links.Undirected) {a b : Handle} :
    s(a, b) ∈ links.joined ↔ links.areLinked a b = true := by
  constructor
  · rintro ⟨first, second, hpair, hlinked⟩
    rcases Sym2.eq_iff.1 hpair with ⟨rfl, rfl⟩ | ⟨rfl, rfl⟩
    · exact hlinked
    · rwa [hlinks.symm]
  · exact fun hlinked => ⟨a, b, rfl, hlinked⟩

/-- Links that join the pairs of a set, which are of different handles, are undirected. -/
theorem undirected_of_areLinked_iff {pairs : Set (Sym2 Handle)}
    (hpairs : ∀ a b, links.areLinked a b = true ↔ s(a, b) ∈ pairs)
    (hdiag : ∀ handle, s(handle, handle) ∉ pairs) :
    links.Undirected ∧ links.joined = pairs := by
  have hlinks : links.Undirected := by
    refine ⟨fun a b => ?_, fun handle => ?_⟩
    · rw [Bool.eq_iff_iff, hpairs, hpairs, Sym2.eq_swap]
    · rw [← Bool.not_eq_true, hpairs]
      exact hdiag handle
  refine ⟨hlinks, Set.ext fun pair => ?_⟩
  induction pair using Sym2.ind with
  | _ a b => rw [hlinks.mem_joined, hpairs]

theorem areLinked_iff_mem {a b : Handle} :
    links.areLinked a b = true ↔ b ∈ links.partners a := List.contains_iff_mem

theorem undirected_empty : (∅ : Links).Undirected := ⟨fun _ _ => rfl, fun _ => rfl⟩

theorem Undirected.not_mem_joined_diag (hlinks : links.Undirected) (handle : Handle) :
    s(handle, handle) ∉ links.joined := by
  simp [hlinks.mem_joined, hlinks.irrefl]

/-! ## Linking -/

theorem areLinked_attach (handle partner a b : Handle) :
    (links.attach handle partner).areLinked a b = true ↔
      links.areLinked a b = true ∨ a = handle ∧ b = partner := by
  simp only [areLinked_iff_mem, partners_attach]
  by_cases ha : a = handle
  · subst ha
    by_cases hmem : partner ∈ links.partners a
    · simp only [hmem, not_true_eq_false, and_false, if_false, true_and]
      exact ⟨.inl, fun h => h.elim id fun hb => hb ▸ hmem⟩
    · simp [hmem]
  · simp [ha]

/-- Linking two different handles adds their pair. -/
theorem Undirected.link (hlinks : links.Undirected) (a b : Handle) :
    (links.link a b).Undirected ∧
      (links.link a b).joined = links.joined ∪ {pair | a ≠ b ∧ pair = s(a, b)} := by
  apply undirected_of_areLinked_iff
  · intro first second
    rw [Set.mem_union, hlinks.mem_joined, Set.mem_ofPred_eq, Links.link]
    by_cases heq : a = b
    · simp [heq]
    · rw [if_neg heq, areLinked_attach, areLinked_attach, Sym2.eq_iff]
      simp only [heq, ne_eq, not_false_eq_true, true_and, or_assoc]
  · rintro handle (hold | ⟨hne, hpair⟩)
    · exact hlinks.not_mem_joined_diag handle hold
    · rcases Sym2.eq_iff.1 hpair with ⟨rfl, rfl⟩ | ⟨rfl, rfl⟩ <;> exact hne rfl

/-- Linking several handles with a target adds the pairs of those that are not the target. -/
theorem Undirected.foldl_link (hlinks : links.Undirected) (handles : List Handle)
    (target : Handle) :
    let after := handles.foldl (fun links handle => links.link handle target) links
    after.Undirected ∧
      after.joined =
        links.joined ∪ {pair | ∃ handle ∈ handles, handle ≠ target ∧ pair = s(handle, target)} := by
  induction handles generalizing links with
  | nil => exact ⟨hlinks, by simp⟩
  | cons handle rest ih =>
    obtain ⟨hfirst, hjoined⟩ := hlinks.link handle target
    obtain ⟨hafter, hall⟩ := ih hfirst
    refine ⟨hafter, hall.trans ?_⟩
    rw [hjoined, Set.union_assoc]
    congr 1
    ext pair
    simp

/-! ## Unlinking -/

theorem areLinked_detach (handle partner a b : Handle) :
    (links.detach handle partner).areLinked a b = true ↔
      links.areLinked a b = true ∧ ¬ (a = handle ∧ b = partner) := by
  rw [areLinked_iff_mem, areLinked_iff_mem, partners_detach, List.mem_filter, decide_eq_true_eq]

/-- What is left of undirected links, if it is some of the pairs. -/
theorem Undirected.of_diff (hlinks : links.Undirected) {others : Links}
    {removed : Set (Sym2 Handle)}
    (hothers : ∀ a b, others.areLinked a b = true ↔
      links.areLinked a b = true ∧ s(a, b) ∉ removed) :
    others.Undirected ∧ others.joined = links.joined \ removed := by
  apply undirected_of_areLinked_iff
  · intro a b
    rw [hothers, Set.mem_sdiff, hlinks.mem_joined]
  · exact fun handle hmem => hlinks.not_mem_joined_diag handle hmem.1

/-- Unlinking two handles takes their pair away. -/
theorem Undirected.unlink (hlinks : links.Undirected) (a b : Handle) :
    (links.unlink a b).Undirected ∧ (links.unlink a b).joined = links.joined \ {s(a, b)} := by
  apply hlinks.of_diff
  intro first second
  rw [Links.unlink, areLinked_detach, areLinked_detach, Set.mem_singleton_iff, Sym2.eq_iff, not_or,
    and_assoc]

/-- Unlinking a handle takes away all pairs that it is in. -/
theorem Undirected.unlinkAll (hlinks : links.Undirected) (handle : Handle) :
    (links.unlinkAll handle).Undirected ∧
      (links.unlinkAll handle).joined = links.joined \ {pair | handle ∈ pair} := by
  apply hlinks.of_diff
  intro a b
  rw [areLinked_iff_mem, areLinked_iff_mem, Links.unlinkAll, partners_foldl_detach,
    partners_setPartners, Set.mem_ofPred_eq, Sym2.mem_iff]
  by_cases ha : a = handle
  · simp [ha]
  · rw [if_neg ha, List.mem_filter, decide_eq_true_eq, ← areLinked_iff_mem, ← areLinked_iff_mem]
    -- The handles that lose a partner are all that have it, as links are symmetric.
    rw [hlinks.symm handle a]
    constructor
    · rintro ⟨hlinked, hkept⟩
      refine ⟨hlinked, ?_⟩
      rintro (rfl | rfl)
      · exact ha rfl
      · exact hkept ⟨hlinked, rfl⟩
    · rintro ⟨hlinked, hnot⟩
      exact ⟨hlinked, fun hboth => hnot (.inr hboth.2.symm)⟩

/-- Updates that take pairs away, for several handles, take all those pairs away. -/
theorem Undirected.foldl_diff {update : Links → Handle → Links}
    {removed : Handle → Set (Sym2 Handle)}
    (hupdate : ∀ {links : Links}, links.Undirected → ∀ handle,
      (update links handle).Undirected ∧
        (update links handle).joined = links.joined \ removed handle)
    (hlinks : links.Undirected) (handles : List Handle) :
    (handles.foldl update links).Undirected ∧
      (handles.foldl update links).joined =
        links.joined \ {pair | ∃ handle ∈ handles, pair ∈ removed handle} := by
  induction handles generalizing links with
  | nil => exact ⟨hlinks, by simp⟩
  | cons handle rest ih =>
    obtain ⟨hfirst, hjoined⟩ := hupdate hlinks handle
    obtain ⟨hafter, hall⟩ := ih hfirst
    refine ⟨hafter, hall.trans ?_⟩
    rw [hjoined, Set.sdiff_sdiff]
    congr 1
    ext pair
    simp

/-- Unlinking several handles from a target takes their pairs with it away. -/
theorem Undirected.foldl_unlink (hlinks : links.Undirected) (handles : List Handle)
    (target : Handle) :
    let after := handles.foldl (fun links handle => links.unlink handle target) links
    after.Undirected ∧
      after.joined = links.joined \ {pair | ∃ handle ∈ handles, pair = s(handle, target)} :=
  foldl_diff (fun hlinks handle => hlinks.unlink handle target) hlinks handles

/-- Unlinking several handles takes away all pairs that one of them is in. -/
theorem Undirected.foldl_unlinkAll (hlinks : links.Undirected) (handles : List Handle) :
    (handles.foldl Links.unlinkAll links).Undirected ∧
      (handles.foldl Links.unlinkAll links).joined =
        links.joined \ {pair | ∃ handle ∈ handles, handle ∈ pair} :=
  foldl_diff (fun hlinks handle => hlinks.unlinkAll handle) hlinks handles

end Links

end SceneLogic
