import SceneLogic.Objects.Links
import SceneLogic.Proofs.Objects.LinkPairs

/-!
# Links represent a list of pairs

Links keep every pair twice, once with each end, and drop the entry of a handle with its
last partner.  `Links.WellFormed` is what holds of the entries alone; `Links.Represents`
adds that the partners of every handle are those in a list of pairs.  Every update of the
links is an update of that list.

## Main definitions

* `Links.WellFormed` — each handle has one entry at most, and no entry is empty.
* `Links.Represents` — the links are those of a list of pairs.

## Main statements

* `Links.Represents.link`, `Links.Represents.unlink`, `Links.Represents.unlinkAll`,
  `Links.Represents.prune` — what each update does to the pairs.
* `Links.Represents.of_perm` — the order of the entries does not count.
* `Links.Represents.count`, `Links.Represents.length_stale` — what the pairs say of the views.
-/

namespace SceneLogic

namespace Links

variable {links : Links} {pairs : List (Sym2 Handle)}

/-- Each handle has one entry at most, and every entry has a partner. -/
structure WellFormed (links : Links) : Prop where
  keys_nodup : (links.entries.map (·.1)).Nodup
  ne_nil : ∀ entry ∈ links.entries, entry.2 ≠ []

/-- The entries of well-formed links are the handles with partners. -/
theorem WellFormed.mem_entries_iff (hlinks : links.WellFormed) {handle : Handle}
    {list : List Handle} :
    (handle, list) ∈ links.entries ↔ list ≠ [] ∧ links.partners handle = list := by
  rw [← and_iff_right_of_imp (hlinks.ne_nil (handle, list)), and_congr_right_iff]
  intro hne
  have hsome : links.partners handle = list ↔ links.entries.lookup handle = some list := by
    rw [partners]
    cases links.entries.lookup handle with
    | none => simp [hne.symm]
    | some found => simp
  rw [hsome, lookup_eq_some_iff_mem hlinks.keys_nodup]

theorem WellFormed.mem_keys_iff (hlinks : links.WellFormed) {handle : Handle} :
    handle ∈ links.entries.map (·.1) ↔ links.partners handle ≠ [] := by
  simp only [List.mem_map, Prod.exists, exists_and_right, exists_eq_right, hlinks.mem_entries_iff]
  exact ⟨fun ⟨_, hne, heq⟩ => heq ▸ hne, fun hne => ⟨_, hne, rfl⟩⟩

theorem WellFormed.of_perm (hlinks : links.WellFormed) {others : Links}
    (hperm : links.entries.Perm others.entries) : others.WellFormed := by
  constructor
  · exact (hperm.map _).nodup_iff.1 hlinks.keys_nodup
  · intro entry hentry
    exact hlinks.ne_nil entry (hperm.mem_iff.2 hentry)

/-- Look-up does not depend on the order of the entries. -/
theorem WellFormed.partners_of_perm (hlinks : links.WellFormed) {others : Links}
    (hperm : links.entries.Perm others.entries) (handle : Handle) :
    others.partners handle = links.partners handle := by
  have hlookup : others.entries.lookup handle = links.entries.lookup handle := by
    ext list
    rw [lookup_eq_some_iff_mem hlinks.keys_nodup,
      lookup_eq_some_iff_mem (hlinks.of_perm hperm).keys_nodup, hperm.mem_iff]
  rw [partners, partners, hlookup]

/-- Replacing the partners of one handle keeps links well-formed. -/
theorem WellFormed.setPartners (hlinks : links.WellFormed) (handle : Handle)
    (list : List Handle) : (links.setPartners handle list).WellFormed := by
  have hothers : (⟨links.entries.filter (·.1 ≠ handle)⟩ : Links).WellFormed := by
    constructor
    · exact hlinks.keys_nodup.sublist (List.filter_sublist.map _)
    · intro entry hentry
      exact hlinks.ne_nil entry (List.mem_of_mem_filter hentry)
  simp only [Links.setPartners]
  split
  next => exact hothers
  next hne =>
    constructor
    · rw [List.map_cons, List.nodup_cons]
      refine ⟨?_, hothers.keys_nodup⟩
      simp
    · intro entry hentry
      rcases List.mem_cons.1 hentry with rfl | hentry
      · simpa using hne
      · exact hothers.ne_nil entry hentry

theorem WellFormed.attach (hlinks : links.WellFormed) (handle partner : Handle) :
    (links.attach handle partner).WellFormed := by
  rw [Links.attach]
  split
  · exact hlinks
  · exact hlinks.setPartners handle _

theorem WellFormed.detach (hlinks : links.WellFormed) (handle partner : Handle) :
    (links.detach handle partner).WellFormed :=
  hlinks.setPartners handle _

theorem WellFormed.foldl_detach {list : List Handle} (handle : Handle)
    (hlinks : links.WellFormed) :
    (list.foldl (fun links partner => links.detach partner handle) links).WellFormed := by
  induction list generalizing links with
  | nil => exact hlinks
  | cons partner list ih => exact ih (hlinks.detach partner handle)

/-- A handle becomes the last partner of another, unless it is one already. -/
theorem partners_attach (handle partner other : Handle) :
    (links.attach handle partner).partners other =
      if other = handle ∧ partner ∉ links.partners handle
      then links.partners handle ++ [partner] else links.partners other := by
  rw [attach, areLinked]
  by_cases hmem : partner ∈ links.partners handle
  · simp [hmem]
  · simp [hmem]

/-- Only one handle loses a partner. -/
theorem partners_detach (handle partner other : Handle) :
    (links.detach handle partner).partners other =
      (links.partners other).filter fun found => ¬ (other = handle ∧ found = partner) := by
  rw [detach, partners_setPartners]
  by_cases hother : other = handle
  · simp [hother]
  · simp [hother]

/-- The handles of a list lose one partner. -/
theorem partners_foldl_detach (list : List Handle) (handle other : Handle) :
    (list.foldl (fun links partner => links.detach partner handle) links).partners other =
      (links.partners other).filter fun found => ¬ (other ∈ list ∧ found = handle) := by
  induction list generalizing links with
  | nil => simp
  | cons partner list ih =>
    rw [List.foldl_cons, ih, partners_detach, List.filter_filter]
    apply List.filter_congr
    intro found _
    by_cases hfound : found = handle <;> simp [hfound, Bool.and_comm]

/-- The links are those of a list of pairs. -/
structure Represents (links : Links) (pairs : List (Sym2 Handle)) : Prop where
  nodup : pairs.Nodup
  not_isDiag : ∀ pair ∈ pairs, ¬ pair.IsDiag
  wellFormed : links.WellFormed
  partners_eq : ∀ handle, links.partners handle = partnersIn pairs handle

theorem represents_empty : (∅ : Links).Represents [] where
  nodup := List.nodup_nil
  not_isDiag := by simp
  wellFormed := ⟨List.nodup_nil, fun _ hentry => absurd hentry List.not_mem_nil⟩
  partners_eq _ := rfl

namespace Represents

theorem mem_partners (hlinks : links.Represents pairs) {handle partner : Handle} :
    partner ∈ links.partners handle ↔ s(handle, partner) ∈ pairs := by
  rw [hlinks.partners_eq, mem_partnersIn]

/-- Linking two handles appends their pair, unless it is there or they are the same. -/
theorem link (hlinks : links.Represents pairs) (a b : Handle) :
    (links.link a b).Represents
      (if a ≠ b ∧ s(a, b) ∉ pairs then pairs ++ [s(a, b)] else pairs) := by
  rw [Links.link]
  by_cases heq : a = b
  · simpa [heq] using hlinks
  have hwellFormed := (hlinks.wellFormed.attach a b).attach b a
  have hba : s(b, a) = s(a, b) := Sym2.eq_swap
  rw [if_neg heq]
  by_cases hmem : s(a, b) ∈ pairs
  · rw [if_neg fun h => h.2 hmem]
    refine ⟨hlinks.nodup, hlinks.not_isDiag, hwellFormed, fun handle => ?_⟩
    simp [partners_attach, hmem, hba, hlinks.partners_eq]
  · rw [if_pos ⟨heq, hmem⟩]
    refine ⟨?_, ?_, hwellFormed, fun handle => ?_⟩
    · exact List.nodup_append'.2 ⟨hlinks.nodup, List.nodup_singleton _, by simpa using hmem⟩
    · intro pair hpair
      rcases List.mem_append.1 hpair with hpair | hpair
      · exact hlinks.not_isDiag pair hpair
      · rw [List.mem_singleton.1 hpair, Sym2.mk_isDiag_iff]
        exact heq
    · rw [partnersIn_append, partnersIn_singleton heq]
      simp only [partners_attach, hlinks.partners_eq, mem_partnersIn]
      by_cases ha : handle = a
      · subst ha
        simp [heq, hmem]
      · by_cases hb : handle = b
        · subst hb
          simp [Ne.symm heq, hmem, hba]
        · simp [ha, hb]

/-- Links whose partners are some of those before represent some of the pairs. -/
theorem filter (hlinks : links.Represents pairs) {others : Links} {keep : Sym2 Handle → Bool}
    (hothers : others.WellFormed)
    (hpartners : ∀ handle, others.partners handle =
      (links.partners handle).filter fun partner => keep s(handle, partner)) :
    others.Represents (pairs.filter keep) where
  nodup := hlinks.nodup.filter keep
  not_isDiag pair hpair := hlinks.not_isDiag pair (List.mem_of_mem_filter hpair)
  wellFormed := hothers
  partners_eq handle := by rw [hpartners, hlinks.partners_eq, partnersIn_filter]

/-- Unlinking two handles removes their pair. -/
theorem unlink (hlinks : links.Represents pairs) (a b : Handle) :
    (links.unlink a b).Represents (pairs.filter (· ≠ s(a, b))) := by
  apply hlinks.filter ((hlinks.wellFormed.detach a b).detach b a)
  intro handle
  rw [partners_detach, partners_detach, List.filter_filter]
  apply List.filter_congr
  intro partner _
  rw [← Bool.decide_and, decide_eq_decide, Ne, Sym2.eq_iff]
  tauto

/-- Unlinking a handle removes every pair that it is in. -/
theorem unlinkAll (hlinks : links.Represents pairs) (handle : Handle) :
    (links.unlinkAll handle).Represents (pairs.filter (handle ∉ ·)) := by
  apply hlinks.filter ((hlinks.wellFormed.setPartners handle []).foldl_detach handle)
  intro other
  rw [partners_foldl_detach, partners_setPartners]
  by_cases hother : other = handle
  · simp [hother]
  · rw [if_neg hother]
    apply List.filter_congr
    intro partner hpartner
    rw [decide_eq_decide, Sym2.mem_iff, hlinks.mem_partners]
    rw [hlinks.mem_partners] at hpartner
    -- The partners that are detached are all that have the handle as a partner.
    constructor
    · rintro hkeep (rfl | rfl)
      · exact hother rfl
      · exact hkeep ⟨Sym2.eq_swap ▸ hpartner, rfl⟩
    · rintro hkeep ⟨_, rfl⟩
      exact hkeep (Or.inr rfl)

theorem foldl_unlinkAll (hlinks : links.Represents pairs) (list : List Handle) :
    (list.foldl Links.unlinkAll links).Represents
      (pairs.filter fun pair => ∀ handle ∈ list, handle ∉ pair) := by
  induction list generalizing links pairs with
  | nil => simpa using hlinks
  | cons handle list ih =>
    have hrest := ih (hlinks.unlinkAll handle)
    rw [List.filter_filter] at hrest
    simpa [List.forall_mem_cons, Bool.and_comm] using hrest

/-- A handle is a key exactly when it is in a pair. -/
theorem mem_keys_iff (hlinks : links.Represents pairs) {handle : Handle} :
    handle ∈ links.entries.map (·.1) ↔ ∃ pair ∈ pairs, handle ∈ pair := by
  rw [hlinks.wellFormed.mem_keys_iff, hlinks.partners_eq, partnersIn_ne_nil]

/-- The stale handles of links are the dead ends of their pairs. -/
theorem mem_stale_iff (hlinks : links.Represents pairs) {store : Store} {handle : Handle} :
    handle ∈ links.stale store ↔
      (∃ pair ∈ pairs, handle ∈ pair) ∧ store.isAlive handle = false := by
  rw [stale, List.mem_filter, hlinks.mem_keys_iff, Bool.not_eq_true']

/-- Pruning keeps the pairs with both ends alive. -/
theorem prune (hlinks : links.Represents pairs) (store : Store) :
    (links.prune store).Represents
      (pairs.filter fun pair => ∀ handle ∈ pair.toFinset, store.isAlive handle) := by
  have hkeep : ∀ pair ∈ pairs,
      decide (∀ handle ∈ links.stale store, handle ∉ pair) =
        decide (∀ handle ∈ pair.toFinset, store.isAlive handle) := by
    intro pair hpair
    rw [decide_eq_decide]
    simp only [Sym2.mem_toFinset, hlinks.mem_stale_iff]
    constructor
    · intro hstale handle hmem
      by_contra hdead
      exact hstale handle ⟨⟨pair, hpair, hmem⟩, Bool.eq_false_iff.2 hdead⟩ hmem
    · rintro halive handle ⟨_, hdead⟩ hmem
      rw [halive handle hmem] at hdead
      cases hdead
  rw [← List.filter_congr hkeep]
  exact hlinks.foldl_unlinkAll (links.stale store)

/-- The order of the entries does not count. -/
theorem of_perm (hlinks : links.Represents pairs) {others : Links}
    (hperm : links.entries.Perm others.entries) : others.Represents pairs where
  nodup := hlinks.nodup
  not_isDiag := hlinks.not_isDiag
  wellFormed := hlinks.wellFormed.of_perm hperm
  partners_eq handle := by
    rw [← hlinks.partners_eq, hlinks.wellFormed.partners_of_perm hperm]

/-- Handles are linked when they are a pair, in either order. -/
theorem areLinked (hlinks : links.Represents pairs) {a b : Handle} :
    links.areLinked a b = true ↔ s(a, b) ∈ pairs := by
  rw [Links.areLinked, List.contains_iff_mem, hlinks.mem_partners]

theorem areLinked_comm (hlinks : links.Represents pairs) (a b : Handle) :
    links.areLinked a b = links.areLinked b a := by
  rw [Bool.eq_iff_iff, hlinks.areLinked, hlinks.areLinked, Sym2.eq_swap]

/-- The links are as many as the pairs: both ends of a pair list it. -/
theorem count (hlinks : links.Represents pairs) : links.count = pairs.length := by
  have hentries : links.entries.flatMap (·.2) =
      (links.entries.map (·.1)).flatMap (partnersIn pairs) := by
    rw [List.flatMap_map]
    apply List.flatMap_congr
    intro entry hentry
    rw [← hlinks.partners_eq, (hlinks.wellFormed.mem_entries_iff.1 hentry).2]
  have htwice : (links.entries.flatMap (·.2)).length = 2 * pairs.length := by
    rw [hentries]
    apply length_flatMap_partnersIn hlinks.wellFormed.keys_nodup _ hlinks.not_isDiag
    intro pair hpair handle hmem
    exact hlinks.mem_keys_iff.2 ⟨pair, hpair, hmem⟩
  rw [Links.count, htwice]
  omega

theorem isEmpty (hlinks : links.Represents pairs) : links.isEmpty = true ↔ pairs = [] := by
  have hends : links.entries.map (·.1) = [] ↔ pairs = [] := by
    simp only [List.eq_nil_iff_forall_not_mem, hlinks.mem_keys_iff]
    constructor
    · intro hnone pair hpair
      exact hnone (Quot.out pair).1 ⟨pair, hpair, Sym2.out_fst_mem pair⟩
    · rintro hnone handle ⟨pair, hpair, _⟩
      exact hnone pair hpair
  rw [← hends, Links.isEmpty, List.isEmpty_iff, List.map_eq_nil_iff]

/-- Each dead end is stale once. -/
theorem length_stale (hlinks : links.Represents pairs) (store : Store) :
    (links.stale store).length = (deadEnds pairs store).card := by
  have hnodup : (links.stale store).Nodup := hlinks.wellFormed.keys_nodup.filter _
  have hfinset : (links.stale store).toFinset = deadEnds pairs store := by
    ext handle
    simp [hlinks.mem_stale_iff, deadEnds]
  rw [← hfinset, List.toFinset_card_of_nodup hnodup]

end Represents

end Links

end SceneLogic
