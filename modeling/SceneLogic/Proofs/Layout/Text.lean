import SceneLogic.Layout
import SceneLogic.Proofs.Event.Codec
import SceneLogic.Proofs.Json.RoundTrip

/-!
# Written layouts are read back

A layout is read back from its text as long as its document nests no deeper than the limit;
beyond that the text gives no layout, since whatever is part of a layout is read.

## Main statements

* `Layout.ofDocument?_toDocument` — a layout is read back from its document.
* `Layout.ofText?_toText` — a layout is read back from its text just up to the limit.
-/

namespace SceneLogic

open Json

theorem NameMap.eq_empty_of_not_isEmpty {map : NameMap α} (hempty : (!map.isEmpty) = false) :
    map = ∅ := by
  obtain ⟨entries, ascending⟩ := map
  cases entries with
  | nil => rfl
  | cons entry entries => cases hempty

/-! ## Instances -/

namespace Instance

/-- The members that an instance is written as. -/
def toMembers (self : Instance) : List (String × Document) :=
  ("object", .string self.object) ::
    Document.member (!self.bindings.isEmpty) "variables" (.ofValueMap self.bindings)

theorem toDocument_eq (self : Instance) : self.toDocument = .object self.toMembers := rfl

theorem keys_toMembers (self : Instance) : (self.toMembers.map (·.1)).Sublist ["object", "variables"] :=
  (Document.keys_member_sublist _ _ _).cons_cons _

theorem lookup_variables (self : Instance) : self.toMembers.lookup "variables" =
    if (!self.bindings.isEmpty) = true then some (.ofValueMap self.bindings) else none := by
  simp [toMembers, lookup_entry, Document.lookup_member]

theorem ofDocument?_toDocument (self : Instance) : ofDocument? self.toDocument = some self := by
  have hobject : Record.required self.toMembers "object" Document.string? = some self.object :=
    Record.required_of_lookup rfl (Document.string?_string _)
  have hvariables : Record.optional self.toMembers "variables" Document.valueMap? ∅ =
      some self.bindings :=
    Record.optional_of_member self.lookup_variables
      (fun _ => Document.valueMap?_ofValueMap self.bindings) NameMap.eq_empty_of_not_isEmpty
  rw [ofDocument?, toDocument_eq, Record.read?_object self.keys_toMembers (by decide),
    Option.bind_eq_bind, Option.bind_some, hobject, hvariables]
  rfl

@[simp] theorem readable_toDocument (self : Instance) : self.toDocument.readable = true := by
  have hvariables : (Document.ofValueMap self.bindings).readable = true :=
    Document.readable_ofValueMap self.bindings
  simp [toDocument_eq, toMembers, Document.readable, Document.readableMembers, hvariables]

/-- All that an instance is written as is read with it. -/
theorem readable_of_ofDocument?_clip {self found : Instance} {level : Nat}
    (hfound : ofDocument? (self.toDocument.clip level) = some found) :
    (self.toDocument.clip level).Readable := by
  rw [toDocument_eq, Document.clip] at hfound ⊢
  split at hfound
  next =>
    rw [if_pos ‹_›]
    simp only [ofDocument?, Option.bind_eq_bind, Option.bind_eq_some_iff] at hfound
    obtain ⟨record, hrecord, object, hobject, bindings, hbindings, -⟩ := hfound
    refine Record.readable_of_read? ?_ hrecord ?_
    · intro member hmember
      have hkey := List.mem_map_of_mem (f := (·.1)) hmember
      rw [Document.keys_clipMembers] at hkey
      exact self.keys_toMembers.mem hkey
    · intro field hfield document hlookup
      simp only [List.mem_cons, List.not_mem_nil, or_false] at hfield
      rcases hfield with rfl | rfl
      · exact Record.readable_of_required hobject hlookup Document.readable_of_string?
      · exact Record.readable_of_optional hbindings hlookup Document.readable_of_valueMap?
  next => cases hfound

end Instance

/-! ## Layouts -/

namespace Layout

/-- The members that a layout is written as. -/
def toMembers (layout : Layout) : List (String × Document) :=
  ("name", .string layout.name) ::
    Document.member (!layout.bindings.isEmpty) "variables" (.ofValueMap layout.bindings) ++
    Document.member (!layout.instances.isEmpty) "instances"
      (.array (layout.instances.map Instance.toDocument)) ++
    [("events", EventTree.toDocument layout.events)]

theorem toDocument_eq (layout : Layout) : layout.toDocument = .object layout.toMembers := rfl

theorem keys_toMembers (layout : Layout) : (layout.toMembers.map (·.1)).Sublist fields := by
  simp only [toMembers, List.map_append, List.map_cons, List.map_nil]
  exact (((Document.keys_member_sublist _ _ _).cons_cons _).append
    (Document.keys_member_sublist _ _ _)).append (List.Sublist.refl _)

theorem lookup_variables (layout : Layout) : layout.toMembers.lookup "variables" =
    if (!layout.bindings.isEmpty) = true then some (.ofValueMap layout.bindings) else none := by
  simp [toMembers, List.lookup_append, lookup_entry, Document.lookup_member]

theorem lookup_instances (layout : Layout) : layout.toMembers.lookup "instances" =
    if (!layout.instances.isEmpty) = true then
      some (.array (layout.instances.map Instance.toDocument))
    else none := by
  simp [toMembers, List.lookup_append, lookup_entry, Document.lookup_member]

theorem lookup_events (layout : Layout) :
    layout.toMembers.lookup "events" = some (EventTree.toDocument layout.events) := by
  simp [toMembers, List.lookup_append, lookup_entry, Document.lookup_member]

/-- **A layout is read back from its document.** -/
theorem ofDocument?_toDocument (layout : Layout) :
    ofDocument? layout.toDocument = some layout := by
  have hname : Record.required layout.toMembers "name" Document.string? = some layout.name :=
    Record.required_of_lookup rfl (Document.string?_string _)
  have hvariables : Record.optional layout.toMembers "variables" Document.valueMap? ∅ =
      some layout.bindings :=
    Record.optional_of_member layout.lookup_variables
      (fun _ => Document.valueMap?_ofValueMap layout.bindings) NameMap.eq_empty_of_not_isEmpty
  have hinstances : Record.optional layout.toMembers "instances"
      (Document.list? Instance.ofDocument?) [] = some layout.instances :=
    Record.optional_of_member layout.lookup_instances
      (fun _ => Document.list?_map_eq_some fun self _ => self.ofDocument?_toDocument) (by simp)
  have hevents : Record.optional layout.toMembers "events" EventTree.ofDocument? [] =
      some layout.events :=
    Record.optional_of_lookup layout.lookup_events (EventTree.ofDocument?_toDocument _) _
  rw [ofDocument?, toDocument_eq, Record.read?_object layout.keys_toMembers (by decide),
    Option.bind_eq_bind, Option.bind_some, hname, hvariables, hinstances, hevents]
  rfl

theorem readable_toDocument (layout : Layout) : layout.toDocument.Readable := by
  have hvariables : (Document.ofValueMap layout.bindings).readable = true :=
    Document.readable_ofValueMap layout.bindings
  have hinstances : Document.readableItems (layout.instances.map Instance.toDocument) = true :=
    Document.readableItems_map fun self _ => self.readable_toDocument
  have hevents := Event.readableItems_toDocuments layout.events
  simp [Document.Readable, toDocument_eq, toMembers, EventTree.toDocument, Document.readable,
    Document.readableMembers, hvariables, hinstances, hevents]

/-- All that a layout is written as is read with it. -/
theorem readable_of_ofDocument?_clip {layout found : Layout}
    (hfound : ofDocument? (layout.toDocument.clip 0) = some found) :
    (layout.toDocument.clip 0).Readable := by
  rw [toDocument_eq, Document.clip, if_pos (by decide)] at hfound ⊢
  simp only [ofDocument?, Option.bind_eq_bind, Option.bind_eq_some_iff] at hfound
  obtain ⟨record, hrecord, name, hname, bindings, hbindings, instances, hinstances, events,
    hevents, -⟩ := hfound
  have hkeys : ((Document.clipMembers 1 layout.toMembers).map (·.1)).Sublist fields := by
    rw [Document.keys_clipMembers]
    exact layout.keys_toMembers
  have hmembers : Document.clipMembers 1 layout.toMembers = record :=
    Option.some.inj ((Record.read?_object hkeys (by decide)).symm.trans hrecord)
  refine Record.readable_of_read?
    (fun member hmember => hkeys.mem (List.mem_map_of_mem hmember)) hrecord ?_
  intro field hfield document hlookup
  simp only [fields, List.mem_cons, List.not_mem_nil, or_false] at hfield
  rcases hfield with rfl | rfl | rfl | rfl
  · exact Record.readable_of_required hname hlookup Document.readable_of_string?
  · exact Record.readable_of_optional hbindings hlookup Document.readable_of_valueMap?
  · refine Record.readable_of_optional hinstances hlookup fun hread => ?_
    rw [← hmembers, Document.lookup_clipMembers, layout.lookup_instances] at hlookup
    split at hlookup
    next =>
      cases hlookup
      rw [Document.clip, if_pos (by decide), Document.clipItems_eq_map, List.map_map] at hread ⊢
      apply Document.readable_of_list? hread
      intro document hdocument found hfound
      obtain ⟨self, -, rfl⟩ := List.mem_map.1 hdocument
      exact Instance.readable_of_ofDocument?_clip hfound
    next => cases hlookup
  · exact Record.readable_of_optional hevents hlookup EventTree.readable_of_ofDocument?

/-! ## Texts -/

theorem parse?_toText (layout : Layout) :
    Document.parse? layout.toText = some (layout.toDocument.clip 0) :=
  Document.parse?_pretty layout.readable_toDocument

/-- Up to the limit the text of a layout gives the layout. -/
theorem ofText?_toText_of_le {layout : Layout} (hdepth : layout.toDocument.depth ≤ nestingLimit) :
    ofText? layout.toText = some layout := by
  have hclip : layout.toDocument.clip 0 = layout.toDocument := Document.clip_eq_self (by omega)
  rw [ofText?, layout.parse?_toText, Option.bind_eq_bind, Option.bind_some, hclip,
    layout.ofDocument?_toDocument]

/-- Beyond the limit the text of a layout gives no layout. -/
theorem ofText?_toText_of_lt {layout : Layout} (hdepth : nestingLimit < layout.toDocument.depth) :
    ofText? layout.toText = none := by
  rw [ofText?, layout.parse?_toText, Option.bind_eq_bind, Option.bind_some,
    Option.eq_none_iff_forall_ne_some]
  intro found hfound
  have hreadable := readable_of_ofDocument?_clip hfound
  have hle := Document.depth_of_readable_clip (by decide) hreadable
  omega

/-- **A layout is read back from its text just up to the nesting limit.** -/
theorem ofText?_toText (layout : Layout) :
    ofText? layout.toText =
      if layout.toDocument.depth ≤ nestingLimit then some layout else none := by
  split
  next hdepth => exact ofText?_toText_of_le hdepth
  next hdepth => exact ofText?_toText_of_lt (by omega)

end Layout

end SceneLogic
