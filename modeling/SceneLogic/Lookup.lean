/-!
# Look-up in lists of entries

A list of entries gives each key its first value.  Two lemmas say what a new first
entry does to every look-up, and what dropping all entries of a key does; where no key
is repeated, look-up is membership.

## Main statements

* `lookup_entry`, `lookup_erase` — look-up after the two updates.
* `lookup_eq_some_iff_mem` — look-up among entries with different keys.
-/

namespace SceneLogic

variable {κ : Type u} {α : Type v} [BEq κ] [LawfulBEq κ] [DecidableEq κ]

/-- The first entry counts for its key. -/
theorem lookup_entry (key name : κ) (value : α) (rest : List (κ × α)) :
    ((name, value) :: rest).lookup key = if key = name then some value else rest.lookup key := by
  by_cases h : key = name <;> simp [List.lookup_cons, h]
  rw [beq_eq_false_iff_ne.2 h]

/-- Without the entries of a key that key has no value, and every other key keeps its own. -/
theorem lookup_erase (key name : κ) (entries : List (κ × α)) :
    (entries.filter (·.1 ≠ name)).lookup key =
      if key = name then none else entries.lookup key := by
  induction entries with
  | nil => simp
  | cons head rest ih =>
    obtain ⟨first, value⟩ := head
    by_cases hk : first = name
    · subst hk
      have dropped : ((first, value) :: rest).filter (·.1 ≠ first) =
          rest.filter (·.1 ≠ first) := by simp
      rw [dropped, ih, lookup_entry]
      by_cases ho : key = first <;> simp [ho]
    · have kept : ((first, value) :: rest).filter (·.1 ≠ name) =
          (first, value) :: rest.filter (·.1 ≠ name) := by simp [hk]
      rw [kept, lookup_entry, lookup_entry, ih]
      by_cases ho : key = first
      · subst ho; simp [hk]
      · simp [ho]

/-- Among entries with different keys a key has the value of its entry. -/
theorem lookup_eq_some_iff_mem {entries : List (κ × α)} (hnodup : (entries.map (·.1)).Nodup)
    {key : κ} {value : α} : entries.lookup key = some value ↔ (key, value) ∈ entries := by
  induction entries with
  | nil => simp
  | cons head rest ih =>
    obtain ⟨first, held⟩ := head
    rw [List.map_cons, List.nodup_cons] at hnodup
    rw [lookup_entry, List.mem_cons, Prod.mk.injEq]
    by_cases hkey : key = first
    · subst hkey
      have hrest : (key, value) ∉ rest := by
        intro hmem
        exact hnodup.1 (List.mem_map.2 ⟨(key, value), hmem, rfl⟩)
      simp [hrest, eq_comm]
    · simp [hkey, ih hnodup.2]

end SceneLogic
