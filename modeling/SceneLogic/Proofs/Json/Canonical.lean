import SceneLogic.Json.Record

/-!
# Canonical documents

A document in canonical form denotes itself, and whatever denotes a value is readable.  So
named values are read back from the object that they are written as.

## Main statements

* `Document.canonical?_of_canonical` — a canonical document denotes itself.
* `Document.readable_of_canonical?` — what denotes a value is readable.
* `Document.valueMap?_ofValueMap` — named values are read back.
-/

namespace SceneLogic

/-! ## Entries in order -/

namespace NameMap

variable {α : Type u}

/-- An entry whose name comes after all others is put behind them. -/
theorem insertEntry_of_below {name : String} {value : α} {entries : List (String × α)}
    (hbelow : ∀ entry ∈ entries, entry.1 < name) :
    insertEntry name value entries = entries ++ [(name, value)] := by
  induction entries with
  | nil => rfl
  | cons head rest ih =>
    rw [List.forall_mem_cons] at hbelow
    have hnot : ¬ name < head.1 := fun hlt => String.lt_irrefl _ (String.lt_trans hlt hbelow.1)
    have hne : name ≠ head.1 := fun heq => String.lt_irrefl _ (heq ▸ hbelow.1)
    rw [insertEntry, if_neg hnot, if_neg hne, ih hbelow.2, List.cons_append]

theorem insertEntry_append {name : String} {value : α} {sorted entries : List (String × α)}
    (hascending : Ascending (sorted ++ (name, value) :: entries)) :
    insertEntry name value sorted = sorted ++ [(name, value)] :=
  insertEntry_of_below fun entry hentry =>
    (List.pairwise_append.1 hascending).2.2 entry hentry (name, value) (List.mem_cons_self ..)

theorem entries_insertAll (map : NameMap α) (entries : List (String × α))
    (hascending : Ascending (map.entries ++ entries)) :
    (map.insertAll entries).entries = map.entries ++ entries := by
  induction entries generalizing map with
  | nil => exact (List.append_nil _).symm
  | cons entry entries ih =>
    have hinsert : (map.insert entry.1 entry.2).entries = map.entries ++ [entry] :=
      insertEntry_append hascending
    have happend : map.entries ++ entry :: entries = map.entries ++ [entry] ++ entries := by simp
    rw [happend] at hascending ⊢
    rw [insertAll, List.foldl_cons, ← insertAll, ih _ (hinsert ▸ hascending), hinsert]

/-- A map is the map of its entries. -/
@[simp] theorem ofList_entries (map : NameMap α) : ofList map.entries = map := by
  have hentries : (ofList map.entries).entries = map.entries :=
    entries_insertAll empty map.entries map.ascending
  cases hmap : ofList map.entries
  cases map
  rw [hmap] at hentries
  cases hentries
  rfl

end NameMap

namespace Json.Document

/-! ## Readable documents -/

theorem readableItems_iff {items : List Document} :
    readableItems items = true ↔ ∀ item ∈ items, item.Readable := by
  induction items with
  | nil => simp [readableItems]
  | cons item items ih => simp [readableItems, ih, Readable]

theorem readableMembers_iff {members : List (String × Document)} :
    readableMembers members = true ↔ ∀ member ∈ members, member.2.Readable := by
  induction members with
  | nil => simp [readableMembers]
  | cons member members ih => simp [readableMembers, ih, Readable]

theorem readableItems_map {write : α → Document} {items : List α}
    (hitems : ∀ item ∈ items, (write item).Readable) :
    readableItems (items.map write) = true := by
  rw [readableItems_iff]
  intro document hdocument
  obtain ⟨item, hitem, rfl⟩ := List.mem_map.1 hdocument
  exact hitems item hitem

@[simp] theorem readableMembers_append (first second : List (String × Document)) :
    readableMembers (first ++ second) = (readableMembers first && readableMembers second) := by
  induction first with
  | nil => rfl
  | cons head rest ih => rw [List.cons_append, readableMembers, readableMembers, ih, Bool.and_assoc]

@[simp] theorem readableMembers_member (written : Bool) (key : String) (item : Document) :
    readableMembers (member written key item) = (!written || item.readable) := by
  cases written <;> simp [member, readableMembers]

mutual

/-- What denotes a value is readable. -/
theorem readable_of_canonical? : ∀ {document value : Document},
    document.canonical? = some value → document.Readable
  | .null, _, _ | .bool _, _, _ | .number _, _, _ | .string _, _, _ => rfl
  | .array items, value, h => by
    simp only [canonical?, Option.map_eq_some_iff] at h
    obtain ⟨values, h, -⟩ := h
    exact readableItems_of_canonicalItems? h
  | .object members, value, h => by
    simp only [canonical?, Option.map_eq_some_iff] at h
    obtain ⟨values, h, -⟩ := h
    exact readableMembers_of_canonicalMembers? h
  | .unreadable, _, h => by simp [canonical?] at h

theorem readableItems_of_canonicalItems? : ∀ {items values : List Document},
    canonicalItems? items = some values → readableItems items = true
  | [], _, _ => rfl
  | item :: items, values, h => by
    simp only [canonicalItems?, bind, Option.bind_eq_some_iff] at h
    obtain ⟨value, hvalue, rest, hrest, -⟩ := h
    rw [readableItems, Bool.and_eq_true]
    exact ⟨readable_of_canonical? hvalue, readableItems_of_canonicalItems? hrest⟩

theorem readableMembers_of_canonicalMembers? :
    ∀ {sorted members values : List (String × Document)},
    canonicalMembers? sorted members = some values → readableMembers members = true
  | _, [], _, _ => rfl
  | sorted, (key, item) :: members, values, h => by
    simp only [canonicalMembers?, bind, Option.bind_eq_some_iff] at h
    obtain ⟨value, hvalue, h⟩ := h
    rw [readableMembers, Bool.and_eq_true]
    exact ⟨readable_of_canonical? hvalue, readableMembers_of_canonicalMembers? h⟩

end

mutual

/-- A document in canonical form denotes itself. -/
theorem canonical?_of_canonical : ∀ {document : Document},
    document.Canonical → document.canonical? = some document
  | .null, _ | .bool _, _ | .number _, _ | .string _, _ => rfl
  | .array items, h => by rw [canonical?, canonicalItems?_of_canonical h, Option.map_some]
  | .object members, h => by
    have hmembers : canonicalMembers? [] members = some ([] ++ members) :=
      canonicalMembers?_of_canonical h.1 h.2
    rw [canonical?, hmembers]
    rfl
  | .unreadable, h => h.elim

theorem canonicalItems?_of_canonical : ∀ {items : List Document},
    CanonicalItems items → canonicalItems? items = some items
  | [], _ => rfl
  | item :: items, h => by
    rw [canonicalItems?, canonical?_of_canonical h.1, canonicalItems?_of_canonical h.2]
    rfl

theorem canonicalMembers?_of_canonical : ∀ {sorted members : List (String × Document)},
    NameMap.Ascending (sorted ++ members) → CanonicalMembers members →
    canonicalMembers? sorted members = some (sorted ++ members)
  | sorted, [], _, _ => by rw [canonicalMembers?, List.append_nil]
  | sorted, (key, item) :: members, hascending, h => by
    have hinsert := NameMap.insertEntry_append hascending
    rw [List.append_cons] at hascending ⊢
    rw [canonicalMembers?, canonical?_of_canonical h.1, Option.bind_eq_bind, Option.bind_some,
      hinsert]
    exact canonicalMembers?_of_canonical hascending h.2

end

end Json.Document

namespace Json

/-! ## Values -/

@[simp] theorem Value.ofDocument?_document (value : Value) :
    Value.ofDocument? value.document = some value := by
  unfold Value.ofDocument?
  split
  next found hfound =>
    rw [Document.canonical?_of_canonical value.canonical, Option.some.injEq] at hfound
    cases value
    cases hfound
    rfl
  next hnone =>
    rw [Document.canonical?_of_canonical value.canonical] at hnone
    cases hnone

theorem Value.readable_of_ofDocument? {document : Document} {value : Value}
    (hvalue : Value.ofDocument? document = some value) : document.Readable := by
  unfold Value.ofDocument? at hvalue
  split at hvalue
  next found hfound => exact Document.readable_of_canonical? hfound
  next => cases hvalue

theorem Value.readable (value : Value) : value.document.Readable :=
  Document.readable_of_canonical? (Document.canonical?_of_canonical value.canonical)

namespace Document

/-! ## Items read one by one -/

theorem mapM_map_eq_some {read : β → Option α} {write : α → β} {items : List α}
    (hread : ∀ item ∈ items, read (write item) = some item) :
    (items.map write).mapM read = some items := by
  induction items with
  | nil => rfl
  | cons item items ih =>
    rw [List.forall_mem_cons] at hread
    rw [List.map_cons, List.mapM_cons, hread.1, ih hread.2]
    rfl

theorem mapM_cons_eq_some {read : α → Option β} {item : α} {items : List α} {results : List β} :
    (item :: items).mapM read = some results ↔
      ∃ result rest, read item = some result ∧ items.mapM read = some rest ∧
        result :: rest = results := by
  simp [List.mapM_cons, Option.bind_eq_some_iff]

theorem exists_of_mapM_eq_some {read : α → Option β} {items : List α} {results : List β}
    (hread : items.mapM read = some results) {item : α} (hitem : item ∈ items) :
    ∃ result ∈ results, read item = some result := by
  induction items generalizing results with
  | nil => cases hitem
  | cons head items ih =>
    obtain ⟨result, rest, hhead, hrest, rfl⟩ := mapM_cons_eq_some.1 hread
    rcases List.mem_cons.1 hitem with rfl | hitem
    · exact ⟨result, List.mem_cons_self .., hhead⟩
    · obtain ⟨found, hfound, hitem⟩ := ih hrest hitem
      exact ⟨found, List.mem_cons_of_mem _ hfound, hitem⟩

theorem exists_item_of_mapM_eq_some {read : α → Option β} {items : List α} {results : List β}
    (hread : items.mapM read = some results) {result : β} (hresult : result ∈ results) :
    ∃ item ∈ items, read item = some result := by
  induction items generalizing results with
  | nil =>
    cases hread
    cases hresult
  | cons head items ih =>
    obtain ⟨first, rest, hhead, hrest, rfl⟩ := mapM_cons_eq_some.1 hread
    rcases List.mem_cons.1 hresult with rfl | hresult
    · exact ⟨head, List.mem_cons_self .., hhead⟩
    · obtain ⟨item, hitem, hread⟩ := ih hrest hresult
      exact ⟨item, List.mem_cons_of_mem _ hitem, hread⟩

/-! ## Named values -/

/-- **Named values are read back.** -/
theorem valueMap?_ofValueMap (values : NameMap Value) :
    (ofValueMap values).valueMap? = some values := by
  have hmembers : (values.entries.map fun entry => (entry.1, entry.2.document)).mapM valued? =
      some values.entries := by
    apply mapM_map_eq_some
    intro entry _
    simp [valued?]
  simp [ofValueMap, valueMap?, hmembers]

theorem readable_ofValueMap (values : NameMap Value) : (ofValueMap values).Readable := by
  rw [Readable, ofValueMap, readable, readableMembers_iff]
  intro member hmember
  obtain ⟨entry, -, rfl⟩ := List.mem_map.1 hmember
  exact entry.2.readable

theorem readable_of_valueMap? {document : Document} {values : NameMap Value}
    (hvalues : document.valueMap? = some values) : document.Readable := by
  cases document with
  | object members =>
    obtain ⟨entries, hentries, -⟩ := Option.map_eq_some_iff.1 hvalues
    rw [Readable, readable, readableMembers_iff]
    intro member hmember
    obtain ⟨entry, -, hentry⟩ := exists_of_mapM_eq_some hentries hmember
    obtain ⟨value, hvalue, -⟩ := Option.map_eq_some_iff.1 hentry
    exact Value.readable_of_ofDocument? hvalue
  | _ => cases hvalues

end Document

end Json

end SceneLogic
