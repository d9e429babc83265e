import Mathlib.Data.Finset.Union
import Mathlib.Data.Sym.Sym2
import SceneLogic.Objects.Store

/-!
# Lists of pairs of handles

The specification of links is a list of unordered pairs, oldest first.  It stores every
pair once; each end of a pair sees the other as its partner, and a list of keys that
holds both ends of all pairs sees every pair twice.

## Main definitions

* `partnersIn` — the partners of a handle, in the order of the pairs.
* `deadEnds` — the ends of pairs that name no instance of a store.

## Main statements

* `mem_partnersIn`, `partnersIn_append`, `partnersIn_filter` — what the partners are.
* `length_flatMap_partnersIn` — the partners of all keys are twice as many as the pairs.
-/

namespace SceneLogic

/-- The other end of a pair, for each of its ends. -/
def partnerIn? (handle : Handle) (pair : Sym2 Handle) : Option Handle :=
  if h : handle ∈ pair then some (Sym2.Mem.other' h) else none

/-- The partners of a handle, in the order of the pairs. -/
def partnersIn (pairs : List (Sym2 Handle)) (handle : Handle) : List Handle :=
  pairs.filterMap (partnerIn? handle)

/-- The ends of pairs that name no instance of a store. -/
def deadEnds (pairs : List (Sym2 Handle)) (store : Store) : Finset Handle :=
  (pairs.toFinset.biUnion Sym2.toFinset).filter fun handle => store.isAlive handle = false

theorem partnerIn?_eq_some {handle partner : Handle} {pair : Sym2 Handle} :
    partnerIn? handle pair = some partner ↔ pair = s(handle, partner) := by
  rw [partnerIn?]
  constructor
  · intro hsome
    split at hsome
    next hmem =>
      rw [← Option.some.inj hsome, Sym2.other_spec' hmem]
    next => cases hsome
  · intro hpair
    have hmem : handle ∈ pair := by rw [hpair]; exact Sym2.mem_mk_left handle partner
    have hother : s(handle, Sym2.Mem.other' hmem) = s(handle, partner) := by
      rw [Sym2.other_spec' hmem, hpair]
    rw [dif_pos hmem, Sym2.congr_right.1 hother]

theorem partnerIn?_eq_none {handle : Handle} {pair : Sym2 Handle} :
    partnerIn? handle pair = none ↔ handle ∉ pair := by
  rw [partnerIn?]
  split <;> simp_all

@[simp] theorem mem_partnersIn {pairs : List (Sym2 Handle)} {handle partner : Handle} :
    partner ∈ partnersIn pairs handle ↔ s(handle, partner) ∈ pairs := by
  simp [partnersIn, partnerIn?_eq_some]

/-- Each handle in some pair has a partner, and only those have. -/
theorem partnersIn_ne_nil {pairs : List (Sym2 Handle)} {handle : Handle} :
    partnersIn pairs handle ≠ [] ↔ ∃ pair ∈ pairs, handle ∈ pair := by
  simp [partnersIn, List.filterMap_eq_nil_iff, partnerIn?_eq_none]

theorem partnersIn_append (pairs others : List (Sym2 Handle)) (handle : Handle) :
    partnersIn (pairs ++ others) handle = partnersIn pairs handle ++ partnersIn others handle :=
  List.filterMap_append

/-- A single pair gives its ends one partner each. -/
theorem partnersIn_singleton {a b : Handle} (hne : a ≠ b) (handle : Handle) :
    partnersIn [s(a, b)] handle =
      if handle = a then [b] else if handle = b then [a] else [] := by
  have hsome := @partnerIn?_eq_some handle
  have hnone := @partnerIn?_eq_none handle s(a, b)
  rw [partnersIn, List.filterMap_cons, List.filterMap_nil]
  split
  next h => simp_all [Sym2.mem_iff]
  next partner h =>
    rw [hsome, Sym2.eq_iff] at h
    rcases h with ⟨rfl, rfl⟩ | ⟨rfl, rfl⟩
    · simp
    · simp [hne.symm]

/-- Dropping pairs drops the partners that they give. -/
theorem partnersIn_filter (keep : Sym2 Handle → Bool) (pairs : List (Sym2 Handle))
    (handle : Handle) :
    partnersIn (pairs.filter keep) handle =
      (partnersIn pairs handle).filter fun partner => keep s(handle, partner) := by
  rw [partnersIn, partnersIn, List.filterMap_filter, List.filter_filterMap]
  apply List.filterMap_congr
  intro pair _
  cases hpartner : partnerIn? handle pair with
  | none => simp
  | some partner =>
    rw [partnerIn?_eq_some.1 hpartner]
    by_cases hkeep : keep s(handle, partner) <;> simp [hkeep, Option.filter]

/-- Each partner of a handle is listed once. -/
theorem nodup_partnersIn {pairs : List (Sym2 Handle)} (hpairs : pairs.Nodup) (handle : Handle) :
    (partnersIn pairs handle).Nodup := by
  refine hpairs.filterMap fun pair other partner hpair hother => ?_
  rw [partnerIn?_eq_some.1 hpair, partnerIn?_eq_some.1 hother]

/-- Two of the keys are ends of a pair. -/
theorem length_filter_mem_pair {keys : List Handle} {pair : Sym2 Handle} (hnodup : keys.Nodup)
    (hends : ∀ handle ∈ pair, handle ∈ keys) (hdiag : ¬ pair.IsDiag) :
    (keys.filter (· ∈ pair)).length = 2 := by
  have hfinset : (keys.filter (· ∈ pair)).toFinset = pair.toFinset := by
    ext handle
    simp only [List.mem_toFinset, List.mem_filter, decide_eq_true_eq, Sym2.mem_toFinset]
    exact ⟨And.right, fun hmem => ⟨hends handle hmem, hmem⟩⟩
  rw [← List.toFinset_card_of_nodup (hnodup.filter _), hfinset,
    Sym2.card_toFinset_of_not_isDiag pair hdiag]

/-- A further pair gives one further partner to each key in it. -/
theorem length_flatMap_partnersIn_cons (keys : List Handle) (pair : Sym2 Handle)
    (pairs : List (Sym2 Handle)) :
    (keys.flatMap (partnersIn (pair :: pairs))).length =
      (keys.filter (· ∈ pair)).length + (keys.flatMap (partnersIn pairs)).length := by
  induction keys with
  | nil => rfl
  | cons key keys ih =>
    have hhead : (partnersIn (pair :: pairs) key).length =
        (if key ∈ pair then 1 else 0) + (partnersIn pairs key).length := by
      by_cases hmem : key ∈ pair <;>
        simp [partnersIn, partnerIn?, hmem, Nat.add_comm]
    simp only [List.flatMap_cons, List.length_append, ih, hhead, List.filter_cons,
      decide_eq_true_eq]
    split
    · rw [List.length_cons]; omega
    · omega

/-- The partners of all keys are twice as many as the pairs, if both ends of each pair
are keys. -/
theorem length_flatMap_partnersIn {keys : List Handle} {pairs : List (Sym2 Handle)}
    (hnodup : keys.Nodup) (hends : ∀ pair ∈ pairs, ∀ handle ∈ pair, handle ∈ keys)
    (hdiag : ∀ pair ∈ pairs, ¬ pair.IsDiag) :
    (keys.flatMap (partnersIn pairs)).length = 2 * pairs.length := by
  induction pairs with
  | nil => simp [partnersIn]
  | cons pair pairs ih =>
    rw [List.forall_mem_cons] at hends hdiag
    rw [length_flatMap_partnersIn_cons, length_filter_mem_pair hnodup hends.1 hdiag.1,
      ih hends.2 hdiag.2, List.length_cons]
    omega

end SceneLogic
