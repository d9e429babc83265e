import SceneLogic.Proofs.Objects.Issued
import SceneLogic.Proofs.Objects.LinkRefinement
import SceneLogic.Proofs.Objects.StoreBalance

/-!
# Links that agree on live instances

Two graphs of links may differ in pairs with a dead end and still have the same links
between live instances, in the same order.  They stay so through all updates of the links
and of the store: a dead handle is not linked again, and it does not come back to life,
since a new handle differs from all that were given out.

## Main definitions

* `Store.joinsLive` — both ends of a pair are alive.
* `Links.AgreeOn` — links between handles that a store gave out, the same between live ones.

## Main statements

* `Links.AgreeOn.partners_eq` — live handles have the same live partners.
* `Links.AgreeOn.link`, `Links.AgreeOn.unlink`, `Links.AgreeOn.unlinkAll` — the links are
  updated alike.
* `Links.AgreeOn.insert`, `Links.AgreeOn.modify`, `Links.AgreeOn.destroy` — the store is
  updated.
* `Links.agreeOn_prune` — links agree with what pruning leaves of them.
-/

namespace SceneLogic

/-- Whether both ends of a pair are alive. -/
def Store.joinsLive (store : Store) (pair : Sym2 Handle) : Bool :=
  decide (∀ handle ∈ pair.toFinset, store.isAlive handle = true)

theorem Store.joinsLive_iff {store : Store} {pair : Sym2 Handle} :
    store.joinsLive pair = true ↔ ∀ handle ∈ pair, store.isAlive handle = true := by
  simp [joinsLive]

theorem Store.joinsLive_mk (store : Store) (a b : Handle) :
    store.joinsLive s(a, b) = (store.isAlive a && store.isAlive b) := by
  rw [Bool.eq_iff_iff, joinsLive_iff, Sym2.ball, Bool.and_eq_true]

/-- Pairs of handles with the same ends alive join live instances together. -/
theorem Store.joinsLive_congr {store next : Store} {pair : Sym2 Handle}
    (halive : ∀ handle ∈ pair, next.isAlive handle = store.isAlive handle) :
    next.joinsLive pair = store.joinsLive pair := by
  rw [Bool.eq_iff_iff, joinsLive_iff, joinsLive_iff]
  exact forall₂_congr fun handle hmem => by rw [halive handle hmem]

/-- Two lists of pairs of handles that a store gave out, with the same pairs of live ones. -/
structure Store.SeesAlike (store : Store) (pairs others : List (Sym2 Handle)) : Prop where
  issued : ∀ pair ∈ pairs ++ others, ∀ handle ∈ pair, store.HasIssued handle
  filter_eq : pairs.filter store.joinsLive = others.filter store.joinsLive

namespace Store.SeesAlike

variable {store : Store} {pairs others : List (Sym2 Handle)}

/-- The same pairs may be dropped. -/
theorem filter (hsees : store.SeesAlike pairs others) (keep : Sym2 Handle → Bool) :
    store.SeesAlike (pairs.filter keep) (others.filter keep) where
  issued pair hpair := by
    rw [← List.filter_append] at hpair
    exact hsees.issued pair (List.mem_of_mem_filter hpair)
  filter_eq := by
    rw [List.filter_comm, hsees.filter_eq, List.filter_comm]

theorem mem_iff (hsees : store.SeesAlike pairs others) {pair : Sym2 Handle}
    (hlive : store.joinsLive pair = true) : pair ∈ pairs ↔ pair ∈ others := by
  have hmem : pair ∈ pairs.filter store.joinsLive ↔ pair ∈ others.filter store.joinsLive := by
    rw [hsees.filter_eq]
  simpa [List.mem_filter, hlive] using hmem

/-- A pair of live handles may be added. -/
theorem append (hsees : store.SeesAlike pairs others) {pair : Sym2 Handle}
    (hlive : store.joinsLive pair = true) :
    store.SeesAlike (pairs ++ [pair]) (others ++ [pair]) where
  issued added hadded handle hmem := by
    have hcases : added ∈ pairs ++ others ∨ added = pair := by
      simp only [List.mem_append, List.mem_singleton] at hadded ⊢
      tauto
    rcases hcases with hold | rfl
    · exact hsees.issued added hold handle hmem
    · exact hasIssued_of_isAlive (joinsLive_iff.1 hlive handle hmem)
  filter_eq := by
    rw [List.filter_append, List.filter_append, hsees.filter_eq]

/-- The store may change if it remembers what it gave out, and the ends of the pairs stay
as they are. -/
theorem of_store (hsees : store.SeesAlike pairs others) {next : Store}
    (hissued : ∀ handle, store.HasIssued handle → next.HasIssued handle)
    (halive : ∀ pair ∈ pairs ++ others, ∀ handle ∈ pair,
      next.isAlive handle = store.isAlive handle) : next.SeesAlike pairs others where
  issued pair hpair handle hmem := hissued handle (hsees.issued pair hpair handle hmem)
  filter_eq := by
    have hlive : ∀ pair ∈ pairs ++ others, next.joinsLive pair = store.joinsLive pair :=
      fun pair hpair => joinsLive_congr (halive pair hpair)
    rw [List.forall_mem_append] at hlive
    rw [List.filter_congr hlive.1, List.filter_congr hlive.2, hsees.filter_eq]

end Store.SeesAlike

namespace Links

/-- Links between handles that a store gave out, the same and in the same order between
live ones. -/
def AgreeOn (store : Store) (links others : Links) : Prop :=
  ∃ pairs otherPairs, links.Represents pairs ∧ others.Represents otherPairs ∧
    store.SeesAlike pairs otherPairs

variable {store : Store} {links others : Links}

/-- Links of handles that were given out agree with what pruning leaves of them. -/
theorem agreeOn_prune {pairs : List (Sym2 Handle)} (hlinks : links.Represents pairs)
    (hissued : ∀ pair ∈ pairs, ∀ handle ∈ pair, store.HasIssued handle) :
    AgreeOn store links (links.prune store) := by
  refine ⟨pairs, pairs.filter store.joinsLive, hlinks, hlinks.prune store, ?_, ?_⟩
  · exact List.forall_mem_append.2
      ⟨hissued, fun pair hpair => hissued pair (List.mem_of_mem_filter hpair)⟩
  · simp only [List.filter_filter, Bool.and_self]

namespace AgreeOn

/-- Live handles have the same live partners, in the same order. -/
theorem partners_eq (hagree : AgreeOn store links others) {handle : Handle}
    (halive : store.isAlive handle = true) :
    (links.partners handle).filter store.isAlive =
      (others.partners handle).filter store.isAlive := by
  obtain ⟨pairs, otherPairs, hlinks, hothers, hsees⟩ := hagree
  have hpartners : ∀ list : List (Sym2 Handle),
      (partnersIn list handle).filter store.isAlive =
        partnersIn (list.filter store.joinsLive) handle := by
    intro list
    rw [partnersIn_filter]
    refine List.filter_congr fun partner _ => ?_
    rw [Store.joinsLive_mk, halive, Bool.true_and]
  rw [hlinks.partners_eq, hothers.partners_eq, hpartners, hpartners, hsees.filter_eq]

/-! ## Updates of the links -/

/-- A new link between live instances is new in both. -/
theorem link (hagree : AgreeOn store links others) {a b : Handle}
    (ha : store.isAlive a = true) (hb : store.isAlive b = true) :
    AgreeOn store (links.link a b) (others.link a b) := by
  obtain ⟨pairs, otherPairs, hlinks, hothers, hsees⟩ := hagree
  have hlive : store.joinsLive s(a, b) = true := by
    rw [Store.joinsLive_mk, ha, hb, Bool.and_self]
  refine ⟨_, _, hlinks.link a b, hothers.link a b, ?_⟩
  simp only [hsees.mem_iff hlive]
  split
  · exact hsees.append hlive
  · exact hsees

theorem unlink (hagree : AgreeOn store links others) (a b : Handle) :
    AgreeOn store (links.unlink a b) (others.unlink a b) := by
  obtain ⟨pairs, otherPairs, hlinks, hothers, hsees⟩ := hagree
  exact ⟨_, _, hlinks.unlink a b, hothers.unlink a b, hsees.filter _⟩

theorem unlinkAll (hagree : AgreeOn store links others) (handle : Handle) :
    AgreeOn store (links.unlinkAll handle) (others.unlinkAll handle) := by
  obtain ⟨pairs, otherPairs, hlinks, hothers, hsees⟩ := hagree
  exact ⟨_, _, hlinks.unlinkAll handle, hothers.unlinkAll handle, hsees.filter _⟩

/-! ## Updates of the store -/

/-- A new handle is in no pair, since those in pairs were given out before. -/
theorem insert (hagree : AgreeOn store links others) (hstore : store.WellFormed)
    (hroom : store.live < UInt32.size) (item : Instance) :
    AgreeOn (store.insert item).2 links others := by
  obtain ⟨pairs, otherPairs, hlinks, hothers, hsees⟩ := hagree
  refine ⟨pairs, otherPairs, hlinks, hothers, hsees.of_store ?_ fun pair hpair handle hmem => ?_⟩
  · exact fun handle hissued => hissued.insert hstore hroom item
  · have hne : handle ≠ (store.insert item).1 := by
      rintro rfl
      exact hstore.not_hasIssued_fresh hroom item (hsees.issued pair hpair _ hmem)
    rw [hstore.isAlive_insert hroom, decide_eq_false hne, Bool.false_or]

theorem modify (hagree : AgreeOn store links others) (handle : Handle)
    (change : Instance → Instance) : AgreeOn (store.modify handle change) links others := by
  obtain ⟨pairs, otherPairs, hlinks, hothers, hsees⟩ := hagree
  refine ⟨pairs, otherPairs, hlinks, hothers, hsees.of_store ?_ fun _ _ other _ => ?_⟩
  · exact fun other hissued => hissued.modify handle change
  · exact store.isAlive_modify handle other change

/-- An instance ends after its links. -/
theorem destroy (hagree : AgreeOn store links others) {handle : Handle}
    (hkept : store.KeepsApart (store.destroy handle).2) :
    AgreeOn (store.destroy handle).2 (links.unlinkAll handle) (others.unlinkAll handle) := by
  obtain ⟨pairs, otherPairs, hlinks, hothers, hsees⟩ := hagree
  refine ⟨_, _, hlinks.unlinkAll handle, hothers.unlinkAll handle,
    (hsees.filter _).of_store ?_ fun pair hpair other hmem => ?_⟩
  · exact fun other hissued => hissued.destroy hkept
  · have hne : other ≠ handle := by
      rintro rfl
      rw [← List.filter_append] at hpair
      exact of_decide_eq_true (List.mem_filter.1 hpair).2 hmem
    rw [Store.isAlive_destroy, decide_eq_true hne, Bool.true_and]

end AgreeOn

end Links

end SceneLogic
