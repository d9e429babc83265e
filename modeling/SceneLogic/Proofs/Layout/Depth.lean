import SceneLogic.Proofs.Layout.Text

/-!
# How deep a layout that was read is written

Short forms leave out lists that are always written, such as the conditions of an event
that has none.  So a layout may be written deeper than it was read, but only by one level.

## Main statements

* `Event.depth_of_read?` — an event is written at most one level deeper than it was read.
* `Layout.depth_of_ofDocument?` — so is a layout.
-/

namespace SceneLogic

open Json

/-! ## Parts of events -/

theorem Json.Document.depthOfItems_map_string (texts : List String) :
    depthOfItems (texts.map string) = 0 := by
  rw [← Nat.le_zero, depthOfItems_le_iff]
  intro item hitem
  obtain ⟨text, -, rfl⟩ := List.mem_map.1 hitem
  exact Nat.le_refl _

/-- A list is written as much deeper than it was read as its items are. -/
theorem Json.Document.depth_list_le {read : Document → Option α} {write : α → Document}
    {document : Document} {items : List α} {more : Nat} (hread : document.list? read = some items)
    (hitem : ∀ part item, read part = some item → (write item).depth ≤ part.depth + more) :
    (array (items.map write)).depth ≤ document.depth + more := by
  cases document with
  | array documents =>
    have hitems : depthOfItems (items.map write) ≤ depthOfItems documents + more := by
      rw [depthOfItems_le_iff]
      intro written hwritten
      obtain ⟨item, hmem, rfl⟩ := List.mem_map.1 hwritten
      obtain ⟨part, hpart, hsome⟩ := exists_item_of_mapM_eq_some hread hmem
      have hdepth := depthOfItems_le_iff.1 (Nat.le_refl _) part hpart
      have hmore := hitem part item hsome
      omega
    rw [depth, depth]
    omega
  | _ => cases hread

theorem Json.Document.depth_ofNat (n : Nat) : (ofNat n).depth = 0 := by
  rw [ofNat]
  rfl

theorem Instruction.depth_toDocument (instruction : Instruction) :
    instruction.toDocument.depth ≤ 2 := by
  rw [toDocument_eq, toMembers, Document.depth]
  simp only [Document.depthOfMembers, Document.depth, Document.depthOfItems_map_string]
  have hmark : Document.depthOfMembers
      (Document.member instruction.inverted "inverted" (.bool true)) ≤ 0 :=
    Document.depthOfMembers_member_le_iff.2 fun _ => Nat.le_refl _
  omega

/-- An instruction is written at most one level deeper than it was read. -/
theorem Instruction.depth_of_ofDocument? {document : Document} {instruction : Instruction}
    (hread : ofDocument? document = some instruction) :
    instruction.toDocument.depth ≤ document.depth + 1 := by
  simp only [ofDocument?, Option.bind_eq_bind, Option.bind_eq_some_iff] at hread
  obtain ⟨record, hrecord, -⟩ := hread
  have hpos := Record.depth_pos_of_read? hrecord
  have hwritten := instruction.depth_toDocument
  omega

theorem Flags.depth_toMembers (flags : Flags) : Document.depthOfMembers flags.toMembers ≤ 0 := by
  rw [toMembers, Document.depthOfMembers_append_le_iff]
  exact ⟨Document.depthOfMembers_member_le_iff.2 fun _ => Nat.le_refl _,
    Document.depthOfMembers_member_le_iff.2 fun _ => Nat.le_refl _⟩

/-- The body of an event is written inside its event as deep as the event was read. -/
theorem Body.depth_toMembers {fields : List String} {document : Document} {record : Record}
    {body : Body} (hrecord : Record.read? fields document = some record)
    (hbody : ofRecord? record = some body) :
    Document.depthOfMembers body.toMembers ≤ document.depth := by
  have hlist : ∀ {field : String} {instructions : List Instruction},
      record.optional field (Document.list? Instruction.ofDocument?) [] = some instructions →
      (Document.array (instructions.map Instruction.toDocument)).depth ≤ document.depth := by
    intro field instructions hoptional
    rcases Record.optional_eq_some hoptional with rfl | ⟨part, hlookup, hread⟩
    · exact Record.depth_pos_of_read? hrecord
    · have hpart := Record.depth_lt_of_lookup hrecord hlookup
      have hwritten := Document.depth_list_le hread fun _ _ => Instruction.depth_of_ofDocument?
      omega
  simp only [ofRecord?, Option.bind_eq_bind, Option.bind_eq_some_iff] at hbody
  obtain ⟨conditions, hconditions, actions, hactions, hbody⟩ := hbody
  cases hbody
  have hfirst := hlist hconditions
  have hsecond := hlist hactions
  simp only [toMembers, Document.depthOfMembers]
  omega

theorem Color.depth_toDocument (color : Color) : color.toDocument.depth ≤ 1 := Nat.le_refl _

theorem GroupInfo.depth_toMembers (info : GroupInfo) :
    Document.depthOfMembers info.toMembers ≤ 1 := by
  simp [toMembers, Document.depthOfMembers_append_le_iff, Document.depthOfMembers_member_le_iff,
    Document.depthOfMembers, Document.depth, Document.depth_ofNat,
    Document.depthOfItems_map_string, Color.depth_toDocument]

theorem Signature.depth_toMembers (signature : Signature) :
    Document.depthOfMembers signature.toMembers ≤ 0 := Nat.le_refl _

theorem Note.depth_toMembers (note : Note) : Document.depthOfMembers note.toMembers ≤ 1 := by
  have hcolor := note.color.depth_toDocument
  have htextColor := note.textColor.depth_toDocument
  simp only [toMembers, Document.depthOfMembers, Document.depth]
  omega

/-! ## Events -/

theorem Json.Document.depth_of_tagged? {tag : String} {document kind fields : Document}
    (htagged : document.tagged? tag = some (kind, fields)) : fields.depth ≤ document.depth := by
  cases document with
  | object members =>
    simp only [tagged?] at htagged
    split at htagged
    next =>
      cases htagged
      rw [depth, depth, Nat.succ_le_succ_iff, depthOfMembers_le_iff]
      intro member hmember
      exact depthOfMembers_le_iff.1 (Nat.le_refl _) member (List.mem_filter.1 hmember).1
    next => cases htagged
  | array items =>
    cases items with
    | nil => cases htagged
    | cons item items =>
      cases htagged
      rw [depth, depth, depthOfItems]
      omega
  | _ => cases htagged

namespace Event

/-- The members of an event with sub-events are its header's and the list of its events. -/
theorem depth_branch_le {flags : Flags} {header : Header} {events : List Event} {bound : Nat}
    (hheader : Document.depthOfMembers header.toMembers ≤ bound)
    (hevents : (header.alwaysWritesEvents || !(toDocuments events).isEmpty) = true →
      (Document.array (toDocuments events)).depth ≤ bound) :
    (Event.branch flags header events).toDocument.depth ≤ bound + 1 := by
  have hflags := Nat.le_trans flags.depth_toMembers (Nat.zero_le bound)
  rw [toDocument_eq, Document.depth, Nat.succ_le_succ_iff, Document.depthOfMembers, Nat.max_le,
    members, Header.branchMembers, Document.depthOfMembers_append_le_iff,
    Document.depthOfMembers_append_le_iff, Document.depthOfMembers_member_le_iff]
  exact ⟨Nat.zero_le _, ⟨hflags, hheader⟩, hevents⟩

theorem depth_comment_le {flags : Flags} {note : Note} {bound : Nat} (hbound : 1 ≤ bound) :
    (Event.comment flags note).toDocument.depth ≤ bound + 1 := by
  have hflags := Nat.le_trans flags.depth_toMembers (Nat.zero_le bound)
  have hnote := Nat.le_trans note.depth_toMembers hbound
  rw [toDocument_eq, Document.depth, Nat.succ_le_succ_iff, Document.depthOfMembers, Nat.max_le,
    members, Document.depthOfMembers_append_le_iff]
  exact ⟨Nat.zero_le _, hflags, hnote⟩

/-- **An event is written at most one level deeper than it was read.** -/
theorem depth_of_read? {depth : Nat} {numbered : Bool} {document : Document} {event : Event}
    (hread : read? depth numbered document = some event) :
    event.toDocument.depth ≤ document.depth + 1 := by
  induction depth generalizing numbered document event with
  | zero =>
    rw [read?] at hread
    cases hread
  | succ depth ih =>
    simp only [read?, Option.bind_eq_bind, Option.bind_eq_some_iff, Prod.exists] at hread
    obtain ⟨tag, fields, htagged, kind, -, record, hrecord, flags, -, hread⟩ := hread
    have hfields := Document.depth_of_tagged? htagged
    have hpos := Record.depth_pos_of_read? hrecord
    have hevents : ∀ {header : Header} {events : List Event},
        record.optional "events" (Document.list? (read? depth true)) [] = some events →
        (header.alwaysWritesEvents || !(toDocuments events).isEmpty) = true →
        (Document.array (toDocuments events)).depth ≤ document.depth := by
      intro header events hoptional _
      rcases Record.optional_eq_some hoptional with rfl | ⟨part, hlookup, hpart⟩
      · exact Nat.le_trans hpos hfields
      · have hlt := Record.depth_lt_of_lookup hrecord hlookup
        have hwritten := Document.depth_list_le hpart fun _ _ => ih
        rw [← toDocuments_eq_map] at hwritten
        omega
    have hbody : ∀ {body : Body}, Body.ofRecord? record = some body →
        Document.depthOfMembers body.toMembers ≤ document.depth :=
      fun hbody => Nat.le_trans (Body.depth_toMembers hrecord hbody) hfields
    split at hread
    next =>
      obtain ⟨note, -, hread⟩ := Option.bind_eq_some_iff.1 hread
      cases hread
      exact depth_comment_le (Nat.le_trans hpos hfields)
    next =>
      simp only [Option.bind_eq_some_iff] at hread
      obtain ⟨body, hsome, events, hoptional, hread⟩ := hread
      cases hread
      exact depth_branch_le (hbody hsome) (hevents hoptional)
    next =>
      simp only [Option.bind_eq_some_iff] at hread
      obtain ⟨info, -, events, hoptional, hread⟩ := hread
      cases hread
      exact depth_branch_le
        (Nat.le_trans info.depth_toMembers (Nat.le_trans hpos hfields)) (hevents hoptional)
    next =>
      simp only [Option.bind_eq_some_iff] at hread
      obtain ⟨signature, -, body, hsome, events, hoptional, hread⟩ := hread
      cases hread
      refine depth_branch_le ?_ (hevents hoptional)
      rw [Header.toMembers, Document.depthOfMembers_append_le_iff]
      exact ⟨Nat.le_trans signature.depth_toMembers (Nat.zero_le _), hbody hsome⟩

theorem depth_of_ofDocument? {document : Document} {event : Event}
    (hread : ofDocument? document = some event) :
    event.toDocument.depth ≤ document.depth + 1 := by
  rw [ofDocument?] at hread
  split at hread
  next => exact depth_of_read? hread
  next => cases hread

end Event

/-! ## Layouts -/

/-- Variables are written where they were read, if there are any. -/
theorem Json.Record.depth_variables_lt {fields : List String} {document : Document}
    {record : Record} {values : NameMap Value} (hrecord : Record.read? fields document = some record)
    (hvalues : record.optional "variables" Document.valueMap? ∅ = some values)
    (hwritten : (!values.isEmpty) = true) :
    (Document.ofValueMap values).depth < document.depth := by
  rcases optional_eq_some hvalues with rfl | ⟨part, hlookup, hread⟩
  · cases hwritten
  · have hlt := depth_lt_of_lookup hrecord hlookup
    have hle := Document.depth_ofValueMap hread
    omega

/-- An instance is written no deeper than it was read. -/
theorem Instance.depth_of_ofDocument? {document : Document} {self : Instance}
    (hread : ofDocument? document = some self) : self.toDocument.depth ≤ document.depth := by
  simp only [ofDocument?, Option.bind_eq_bind, Option.bind_eq_some_iff] at hread
  obtain ⟨record, hrecord, object, -, bindings, hbindings, hread⟩ := hread
  have hpos := Record.depth_pos_of_read? hrecord
  have hvariables := Record.depth_variables_lt hrecord hbindings
  cases hread
  rw [toDocument_eq, Document.depth, Nat.succ_le_iff]
  obtain ⟨bound, hbound⟩ : ∃ bound, document.depth = bound + 1 := ⟨document.depth - 1, by omega⟩
  rw [hbound] at hvariables ⊢
  rw [Nat.lt_succ_iff, toMembers, Document.depthOfMembers, Nat.max_le,
    Document.depthOfMembers_member_le_iff]
  exact ⟨Nat.zero_le _, fun hwritten => Nat.lt_succ_iff.1 (hvariables hwritten)⟩

/-- **A layout is written at most one level deeper than it was read.** -/
theorem Layout.depth_of_ofDocument? {document : Document} {layout : Layout}
    (hread : ofDocument? document = some layout) :
    layout.toDocument.depth ≤ document.depth + 1 := by
  simp only [ofDocument?, Option.bind_eq_bind, Option.bind_eq_some_iff] at hread
  obtain ⟨record, hrecord, name, -, bindings, hbindings, instances, hinstances, events, hevents,
    hread⟩ := hread
  have hpos := Record.depth_pos_of_read? hrecord
  have hvariables := Record.depth_variables_lt hrecord hbindings
  have hinstances : (Document.array (instances.map Instance.toDocument)).depth ≤
      document.depth := by
    rcases Record.optional_eq_some hinstances with rfl | ⟨part, hlookup, hpart⟩
    · exact hpos
    · have hlt := Record.depth_lt_of_lookup hrecord hlookup
      have hwritten : (Document.array (instances.map Instance.toDocument)).depth ≤
          part.depth + 0 :=
        Document.depth_list_le hpart fun _ _ => Instance.depth_of_ofDocument?
      omega
  have hevents : (EventTree.toDocument events).depth ≤ document.depth := by
    rcases Record.optional_eq_some hevents with rfl | ⟨part, hlookup, hpart⟩
    · exact hpos
    · have hlt := Record.depth_lt_of_lookup hrecord hlookup
      have hwritten := Document.depth_list_le hpart fun _ _ => Event.depth_of_ofDocument?
      rw [EventTree.toDocument, Event.toDocuments_eq_map]
      omega
  cases hread
  rw [toDocument_eq, Document.depth, Nat.succ_le_succ_iff]
  simp only [toMembers, Document.depthOfMembers_append_le_iff, Document.depthOfMembers, Nat.max_le,
    Document.depthOfMembers_member_le_iff]
  exact ⟨⟨⟨Nat.zero_le _, fun hwritten => Nat.le_of_lt (hvariables hwritten)⟩,
    fun _ => hinstances⟩, hevents, Nat.zero_le _⟩

end SceneLogic
