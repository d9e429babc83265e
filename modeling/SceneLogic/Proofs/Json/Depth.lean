import SceneLogic.Proofs.Json.Canonical

/-!
# How deep what is read nests

The parts of a document nest less deep than the document, and a canonical form no deeper
than what it is the form of.

## Main statements

* `Document.depthOfItems_le_iff`, `Document.depthOfMembers_le_iff` — depth part by part.
* `Document.depth_of_canonical?` — a canonical form nests no deeper.
* `Document.depth_ofValueMap` — named values are written no deeper than they are read.
-/

namespace SceneLogic

namespace NameMap

variable {α : Type u}

theorem mem_entries_insertAll {map : NameMap α} {entries : List (String × α)}
    {entry : String × α} (hentry : entry ∈ (map.insertAll entries).entries) :
    entry ∈ map.entries ∨ entry ∈ entries := by
  induction entries generalizing map with
  | nil => exact .inl hentry
  | cons head rest ih =>
    rw [insertAll, List.foldl_cons, ← insertAll] at hentry
    rcases ih hentry with hmap | hrest
    · rcases mem_insertEntry hmap with rfl | hmap
      · exact .inr (List.mem_cons_self ..)
      · exact .inl hmap
    · exact .inr (List.mem_cons_of_mem _ hrest)

/-- The entries of the map of a list are among those of the list. -/
theorem mem_entries_ofList {entries : List (String × α)} {entry : String × α}
    (hentry : entry ∈ (ofList entries).entries) : entry ∈ entries :=
  (mem_entries_insertAll hentry).resolve_left List.not_mem_nil

end NameMap

namespace Json.Document

/-! ## Depth part by part -/

theorem depthOfItems_le_iff {items : List Document} {bound : Nat} :
    depthOfItems items ≤ bound ↔ ∀ item ∈ items, item.depth ≤ bound := by
  induction items with
  | nil => simp [depthOfItems]
  | cons item items ih => rw [depthOfItems, Nat.max_le, ih, List.forall_mem_cons]

theorem depthOfMembers_le_iff {members : List (String × Document)} {bound : Nat} :
    depthOfMembers members ≤ bound ↔ ∀ member ∈ members, member.2.depth ≤ bound := by
  induction members with
  | nil => simp [depthOfMembers]
  | cons member members ih => rw [depthOfMembers, Nat.max_le, ih, List.forall_mem_cons]

theorem depth_lt_array {item : Document} {items : List Document} (hitem : item ∈ items) :
    item.depth < (array items).depth := by
  rw [depth, Nat.lt_succ_iff]
  exact depthOfItems_le_iff.1 (Nat.le_refl _) item hitem

theorem depth_lt_object {member : String × Document} {members : List (String × Document)}
    (hmember : member ∈ members) : member.2.depth < (object members).depth := by
  rw [depth, Nat.lt_succ_iff]
  exact depthOfMembers_le_iff.1 (Nat.le_refl _) member hmember

theorem depthOfMembers_append_le_iff {first second : List (String × Document)} {bound : Nat} :
    depthOfMembers (first ++ second) ≤ bound ↔
      depthOfMembers first ≤ bound ∧ depthOfMembers second ≤ bound := by
  simp only [depthOfMembers_le_iff, List.forall_mem_append]

theorem depthOfMembers_member_le_iff {written : Bool} {key : String} {item : Document}
    {bound : Nat} : depthOfMembers (member written key item) ≤ bound ↔
      (written = true → item.depth ≤ bound) := by
  cases written <;> simp [member, depthOfMembers]

/-! ## Canonical forms -/

theorem depthOfMembers_insertEntry (key : String) (item : Document)
    (sorted : List (String × Document)) :
    depthOfMembers (NameMap.insertEntry key item sorted) ≤
      max item.depth (depthOfMembers sorted) := by
  rw [depthOfMembers_le_iff]
  intro member hmember
  rcases NameMap.mem_insertEntry hmember with rfl | hmember
  · exact Nat.le_max_left _ _
  · have hdepth := depthOfMembers_le_iff.1 (Nat.le_refl (depthOfMembers sorted)) member hmember
    omega

mutual

/-- A canonical form nests no deeper than what it is the form of. -/
theorem depth_of_canonical? : ∀ {document value : Document},
    document.canonical? = some value → value.depth ≤ document.depth
  | .null, _, h | .bool _, _, h | .number _, _, h | .string _, _, h => by
    simp only [canonical?, Option.some.injEq] at h
    exact Nat.le_of_eq (congrArg depth h.symm)
  | .array items, value, h => by
    simp only [canonical?, Option.map_eq_some_iff] at h
    obtain ⟨values, h, rfl⟩ := h
    rw [depth, depth]
    exact Nat.succ_le_succ (depthOfItems_of_canonicalItems? h)
  | .object members, value, h => by
    simp only [canonical?, Option.map_eq_some_iff] at h
    obtain ⟨values, h, rfl⟩ := h
    have hdepth := depthOfMembers_of_canonicalMembers? h
    rw [depthOfMembers] at hdepth
    rw [depth, depth]
    omega
  | .unreadable, _, h => by simp [canonical?] at h

theorem depthOfItems_of_canonicalItems? : ∀ {items values : List Document},
    canonicalItems? items = some values → depthOfItems values ≤ depthOfItems items
  | [], _, h => by
    simp only [canonicalItems?, Option.some.injEq] at h
    exact Nat.le_of_eq (congrArg depthOfItems h.symm)
  | item :: items, values, h => by
    simp only [canonicalItems?, bind, Option.bind_eq_some_iff, pure, Option.some.injEq] at h
    obtain ⟨value, hvalue, rest, hrest, rfl⟩ := h
    have hhead := depth_of_canonical? hvalue
    have htail := depthOfItems_of_canonicalItems? hrest
    rw [depthOfItems, depthOfItems]
    omega

theorem depthOfMembers_of_canonicalMembers? :
    ∀ {sorted members values : List (String × Document)},
    canonicalMembers? sorted members = some values →
    depthOfMembers values ≤ max (depthOfMembers sorted) (depthOfMembers members)
  | sorted, [], values, h => by
    simp only [canonicalMembers?, Option.some.injEq] at h
    subst h
    exact Nat.le_max_left _ _
  | sorted, (key, item) :: members, values, h => by
    simp only [canonicalMembers?, bind, Option.bind_eq_some_iff] at h
    obtain ⟨value, hvalue, h⟩ := h
    have hhead := depth_of_canonical? hvalue
    have hinsert := depthOfMembers_insertEntry key value sorted
    have htail := depthOfMembers_of_canonicalMembers? h
    rw [depthOfMembers]
    omega

end

theorem depth_of_valueOfDocument? {document : Document} {value : Value}
    (hvalue : Value.ofDocument? document = some value) :
    value.document.depth ≤ document.depth := by
  unfold Value.ofDocument? at hvalue
  split at hvalue
  next found hfound =>
    cases hvalue
    exact depth_of_canonical? hfound
  next => cases hvalue

/-- Named values are written no deeper than they are read. -/
theorem depth_ofValueMap {document : Document} {values : NameMap Value}
    (hvalues : document.valueMap? = some values) :
    (ofValueMap values).depth ≤ document.depth := by
  cases document with
  | object members =>
    obtain ⟨entries, hentries, rfl⟩ := Option.map_eq_some_iff.1 hvalues
    have hmembers : depthOfMembers ((NameMap.ofList entries).entries.map fun entry =>
        (entry.1, entry.2.document)) ≤ depthOfMembers members := by
      rw [depthOfMembers_le_iff]
      intro member hmember
      obtain ⟨entry, hentry, rfl⟩ := List.mem_map.1 hmember
      obtain ⟨read, hread, hentry⟩ :=
        exists_item_of_mapM_eq_some hentries (NameMap.mem_entries_ofList hentry)
      obtain ⟨value, hvalue, rfl⟩ := Option.map_eq_some_iff.1 hentry
      exact Nat.le_trans (depth_of_valueOfDocument? hvalue)
        (depthOfMembers_le_iff.1 (Nat.le_refl _) read hread)
    rw [ofValueMap, depth, depth]
    exact Nat.succ_le_succ hmembers
  | _ => cases hvalues

end Json.Document

end SceneLogic
