import SceneLogic.Proofs.Event.Codec
import SceneLogic.Proofs.Json.Denotation

/-!
# What events are read from

An event is read from the record of its fields, its tag among them: every part of it from
the part's own fields and the sub-events from the items of a list.  So what is read depends
on nothing but what stands under the fields, and how deep the document nests does not
matter as long as the reader may go that deep.

## Main definitions

* `Event.FromRecord` — an event is read from the record of its fields.
* `Event.ReadFrom` — an event is read from a document, however deep that nests.

## Main statements

* `Event.read?_succ_eq_some_iff`, `Event.readFrom_iff` — what is read from a document.
* `Event.read?_of_depth_le` — the bound on the depth does not matter.
* `Event.FromRecord.withChildren` — a record that is alike but for the sub-events.
-/

namespace SceneLogic

open Json

/-! ## Parts field by field -/

namespace Instruction

/-- The instruction that a record gives. -/
def ofRecord? (record : Record) : Option Instruction := do
  return {
    operation := ← record.required "type" Document.string?
    parameters := ← record.optional "parameters" (Document.list? Document.string?) []
    inverted := ← record.lenient "inverted" Document.bool? false }

theorem ofRecord?_eq_some_iff {record : Record} {instruction : Instruction} :
    ofRecord? record = some instruction ↔
      record.required "type" Document.string? = some instruction.operation ∧
      record.optional "parameters" (Document.list? Document.string?) [] =
        some instruction.parameters ∧
      record.lenient "inverted" Document.bool? false = some instruction.inverted := by
  cases instruction
  simp [ofRecord?, Option.bind_eq_some_iff, -Bool.exists_bool]

theorem ofRecord?_of_alike {record other : Record} {instruction : Instruction}
    (halike : ∀ field ∈ fields, record.AlikeAt other field)
    (hread : ofRecord? record = some instruction) : ofRecord? other = some instruction := by
  rw [ofRecord?_eq_some_iff] at hread ⊢
  obtain ⟨hoperation, hparameters, hinverted⟩ := hread
  refine ⟨(halike "type" (by decide)).required Document.steady_string? hoperation,
    (halike "parameters" (by decide)).optional Document.steady_string?.list? hparameters, ?_⟩
  rw [(halike "inverted" (by decide)).lenient, hinverted]

/-- What instruction is read from a document. -/
theorem ofDocument?_eq_some_iff {document : Document} {instruction : Instruction} :
    ofDocument? document = some instruction ↔
      ∃ record, document.Gives fields record ∧ ofRecord? record = some instruction := by
  have hread : ofDocument? document = (Record.read? fields document).bind ofRecord? := rfl
  rw [hread, Option.bind_eq_some_iff]
  constructor
  · rintro ⟨found, hfound, hinstruction⟩
    exact ⟨found, .of_read? hfound, hinstruction⟩
  · rintro ⟨record, ⟨found, hfound, hlookup⟩, hinstruction⟩
    exact ⟨found, hfound, ofRecord?_of_alike
      (fun field hfield => .of_lookup (hlookup field hfield)) hinstruction⟩

theorem steady_ofDocument? :
    Document.Steady fun document instruction => ofDocument? document = some instruction := by
  intro document value instruction hvalue hread
  rw [ofDocument?_eq_some_iff] at hread ⊢
  obtain ⟨record, hgives, hinstruction⟩ := hread
  obtain ⟨other, hother, halike⟩ := hgives.of_canonical? hvalue
  exact ⟨other, hother, ofRecord?_of_alike halike hinstruction⟩

end Instruction

namespace Flags

theorem ofRecord?_of_alike {record other : Record}
    (halike : ∀ field ∈ ["disabled", "folded"], record.AlikeAt other field) :
    ofRecord? other = ofRecord? record := by
  rw [ofRecord?, (halike "disabled" (by decide)).lenient, (halike "folded" (by decide)).lenient]
  rfl

end Flags

namespace Body

theorem ofRecord?_eq_some_iff {record : Record} {body : Body} :
    ofRecord? record = some body ↔
      record.Lists "conditions"
        (fun item instruction => Instruction.ofDocument? item = some instruction)
        body.conditions ∧
      record.Lists "actions"
        (fun item instruction => Instruction.ofDocument? item = some instruction)
        body.actions := by
  cases body
  simp [ofRecord?, Option.bind_eq_some_iff, Record.optional_list?_eq_some_iff]

theorem ofRecord?_of_alike {record other : Record} {body : Body}
    (halike : ∀ field ∈ ["conditions", "actions"], record.AlikeAt other field)
    (hread : ofRecord? record = some body) : ofRecord? other = some body := by
  rw [ofRecord?_eq_some_iff] at hread ⊢
  exact ⟨hread.1.of_alike (halike _ (by decide)) Instruction.steady_ofDocument?,
    hread.2.of_alike (halike _ (by decide)) Instruction.steady_ofDocument?⟩

end Body

namespace GroupInfo

theorem ofRecord?_of_alike {record other : Record}
    (halike : ∀ field ∈ ["name", "source", "creationTime", "parameters", "color"],
      record.AlikeAt other field) : ofRecord? other = ofRecord? record := by
  rw [ofRecord?, (halike "name" (by decide)).lenient, (halike "source" (by decide)).lenient,
    (halike "creationTime" (by decide)).lenient, (halike "parameters" (by decide)).lenient,
    (halike "color" (by decide)).lenient]
  rfl

end GroupInfo

namespace Signature

theorem ofRecord?_eq_some_iff {record : Record} {signature : Signature} :
    ofRecord? record = some signature ↔
      record.optional "name" Document.string? "" = some signature.name ∧
      record.lenient "objectsPassedAsArgument" Document.string? "" =
        some signature.argument := by
  cases signature
  simp [ofRecord?, Option.bind_eq_some_iff]

theorem ofRecord?_of_alike {record other : Record} {signature : Signature}
    (halike : ∀ field ∈ ["name", "objectsPassedAsArgument"], record.AlikeAt other field)
    (hread : ofRecord? record = some signature) : ofRecord? other = some signature := by
  rw [ofRecord?_eq_some_iff] at hread ⊢
  refine ⟨(halike "name" (by decide)).optional Document.steady_string? hread.1, ?_⟩
  rw [(halike "objectsPassedAsArgument" (by decide)).lenient, hread.2]

end Signature

namespace Note

theorem ofRecord?_of_alike {record other : Record}
    (halike : ∀ field ∈ ["text", "color", "textColor"], record.AlikeAt other field) :
    ofRecord? other = ofRecord? record := by
  rw [ofRecord?, (halike "text" (by decide)).lenient, (halike "color" (by decide)).lenient,
    (halike "textColor" (by decide)).lenient]
  rfl

end Note

namespace EventKind

theorem steady_ofTag? (numbered : Bool) :
    Document.Steady fun tag kind => ofTag? numbered tag = some kind := by
  intro tag value kind hvalue hkind
  cases tag with
  | string | number => exact Option.some.inj hvalue ▸ hkind
  | _ => cases numbered <;> cases hkind

/-- A kind that is given by name is found where numbers are admitted as well. -/
theorem ofTag?_true {numbered : Bool} {tag : Document} {kind : EventKind}
    (hkind : ofTag? numbered tag = some kind) : ofTag? true tag = some kind := by
  cases numbered with
  | true => exact hkind
  | false =>
    cases tag with
    | string => exact hkind
    | _ => cases hkind

end EventKind

/-! ## Events from their records -/

/-- What an event with sub-events is, is read from the record of its fields. -/
def Header.FromRecord (record : Record) : Header → Prop
  | .standard body => Body.ofRecord? record = some body
  | .group info => GroupInfo.ofRecord? record = some info
  | .function signature body =>
    Signature.ofRecord? record = some signature ∧ Body.ofRecord? record = some body

/-- The fields of an event with sub-events that say what it is. -/
def Header.fields : Header → List String
  | .standard _ => ["conditions", "actions"]
  | .group _ => ["name", "source", "creationTime", "parameters", "color"]
  | .function _ _ => ["name", "objectsPassedAsArgument", "conditions", "actions"]

theorem Header.kind_fields (header : Header) :
    header.kind.fields = "disabled" :: "folded" :: (header.fields ++ ["events"]) := by
  cases header <;> rfl

theorem Header.events_not_mem_fields (header : Header) : "events" ∉ header.fields := by
  cases header <;> simp [fields]

theorem Header.FromRecord.of_alike {record other : Record} {header : Header}
    (hheader : header.FromRecord record)
    (halike : ∀ field ∈ header.fields, record.AlikeAt other field) :
    header.FromRecord other := by
  cases header with
  | standard body => exact Body.ofRecord?_of_alike halike hheader
  | group info => exact (GroupInfo.ofRecord?_of_alike halike).trans hheader
  | function signature body =>
    obtain ⟨hsignature, hbody⟩ := List.forall_mem_append.1
      (show ∀ field ∈ ["name", "objectsPassedAsArgument"] ++ ["conditions", "actions"],
        record.AlikeAt other field from halike)
    exact ⟨Signature.ofRecord?_of_alike hsignature hheader.1,
      Body.ofRecord?_of_alike hbody hheader.2⟩

namespace Event

/-- The event is read from the record of its fields, with sub-events that the items of a
list give. -/
def FromRecord (gives : Document → Event → Prop) (record : Record) : Event → Prop
  | .branch flags header events =>
    Flags.ofRecord? record = some flags ∧ header.FromRecord record ∧
      record.Lists "events" gives events
  | .comment flags note =>
    Flags.ofRecord? record = some flags ∧ Note.ofRecord? record = some note

variable {gives others : Document → Event → Prop} {record other : Record} {event : Event}
  {events : List Event}

/-- **A record that is alike but for the sub-events** gives the same event with other
sub-events. -/
theorem FromRecord.withChildren (hevent : event.FromRecord gives record)
    (halike : ∀ field ∈ event.kind.fields, field ≠ "events" → record.AlikeAt other field)
    (hevents : "events" ∈ event.kind.fields → record.Lists "events" gives event.children →
      other.Lists "events" others events) :
    (event.withChildren events).FromRecord others other := by
  cases event with
  | branch flags header _ =>
    obtain ⟨hflags, hheader, hlists⟩ := hevent
    rw [kind, header.kind_fields] at halike hevents
    have hmarks : Flags.ofRecord? other = Flags.ofRecord? record := by
      refine Flags.ofRecord?_of_alike (List.forall_mem_cons.2 ⟨?_, List.forall_mem_singleton.2 ?_⟩)
      · exact halike "disabled" (by simp) (by decide)
      · exact halike "folded" (by simp) (by decide)
    refine ⟨hmarks.trans hflags, hheader.of_alike fun field hfield => ?_, hevents (by simp) hlists⟩
    exact halike field (by simp [hfield]) fun heq => header.events_not_mem_fields (heq ▸ hfield)
  | comment flags note =>
    obtain ⟨hflags, hnote⟩ := hevent
    have hfields : ∀ field ∈ ["disabled", "folded"] ++ ["text", "color", "textColor"],
        record.AlikeAt other field := by
      intro field hfield
      refine halike field hfield ?_
      revert field
      decide
    obtain ⟨hmarks, hcontent⟩ := List.forall_mem_append.1 hfields
    exact ⟨(Flags.ofRecord?_of_alike hmarks).trans hflags,
      (Note.ofRecord?_of_alike hcontent).trans hnote⟩

theorem withChildren_children (event : Event) : event.withChildren event.children = event := by
  cases event <;> rfl

/-- An event depends on nothing but what stands under its fields. -/
theorem FromRecord.of_lookup (hevent : event.FromRecord gives record)
    (hlookup : ∀ field ∈ event.kind.fields, other.lookup field = record.lookup field) :
    event.FromRecord gives other := by
  rw [← event.withChildren_children]
  exact hevent.withChildren
    (fun field hfield _ => .of_lookup (hlookup field hfield))
    (fun hfield hlists => hlists.of_lookup (hlookup "events" hfield))

/-! ## Events from their documents -/

/-- The event of a kind that a record gives, its sub-events read in a given way. -/
def ofRecord? (read : Document → Option Event) (kind : EventKind) (record : Record) :
    Option Event := do
  let flags ← Flags.ofRecord? record
  match kind with
  | .comment => return .comment flags (← Note.ofRecord? record)
  | .standard =>
    return .branch flags (.standard (← Body.ofRecord? record))
      (← record.optional "events" (Document.list? read) [])
  | .group =>
    return .branch flags (.group (← GroupInfo.ofRecord? record))
      (← record.optional "events" (Document.list? read) [])
  | .function =>
    return .branch flags (.function (← Signature.ofRecord? record) (← Body.ofRecord? record))
      (← record.optional "events" (Document.list? read) [])

theorem read?_succ (depth : Nat) (numbered : Bool) (document : Document) :
    read? (depth + 1) numbered document =
      (document.tagged? "type").bind fun tagged =>
        (EventKind.ofTag? numbered tagged.1).bind fun kind =>
          (Record.read? kind.fields tagged.2).bind (ofRecord? (read? depth true) kind) := rfl

theorem ofRecord?_eq_some_iff {read : Document → Option Event} {kind : EventKind} :
    ofRecord? read kind record = some event ↔
      event.kind = kind ∧ event.FromRecord (fun item event => read item = some event) record := by
  constructor
  · intro hread
    cases kind <;>
      simp only [ofRecord?, Option.bind_eq_bind, Option.bind_eq_some_iff, pure, Option.some.injEq,
        Record.optional_list?_eq_some_iff] at hread
    case standard =>
      obtain ⟨flags, hflags, body, hbody, events, hevents, rfl⟩ := hread
      exact ⟨rfl, hflags, hbody, hevents⟩
    case group =>
      obtain ⟨flags, hflags, info, hinfo, events, hevents, rfl⟩ := hread
      exact ⟨rfl, hflags, hinfo, hevents⟩
    case function =>
      obtain ⟨flags, hflags, signature, hsignature, body, hbody, events, hevents, rfl⟩ := hread
      exact ⟨rfl, hflags, ⟨hsignature, hbody⟩, hevents⟩
    case comment =>
      obtain ⟨flags, hflags, note, hnote, rfl⟩ := hread
      exact ⟨rfl, hflags, hnote⟩
  · rintro ⟨rfl, hevent⟩
    cases event with
    | comment flags note =>
      obtain ⟨hflags, hnote⟩ := hevent
      simp [ofRecord?, kind, hflags, hnote]
    | branch flags header events =>
      obtain ⟨hflags, hheader, hevents⟩ := hevent
      rw [← Record.optional_list?_eq_some_iff] at hevents
      cases header <;> simp only [Header.FromRecord] at hheader <;>
        simp [ofRecord?, kind, Header.kind, hflags, hheader, hevents]

/-- **What event is read from a document**: that of the record which the document gives,
its tag being one of the fields. -/
theorem read?_succ_eq_some_iff {depth : Nat} {numbered : Bool} {document : Document} :
    read? (depth + 1) numbered document = some event ↔
      ∃ record, document.Gives ("type" :: event.kind.fields) record ∧
        record.required "type" (EventKind.ofTag? numbered) = some event.kind ∧
        event.FromRecord (fun item event => read? depth true item = some event) record := by
  simp only [read?_succ, Option.bind_eq_some_iff, ofRecord?_eq_some_iff]
  constructor
  · rintro ⟨⟨tag, rest⟩, htagged, kind, htag, found, hfound, rfl, hevent⟩
    refine ⟨("type", tag) :: found,
      (Document.gives_cons_iff event.kind.type_not_mem_fields).2 ⟨rest, htagged, .of_read? hfound⟩,
      Record.required_of_lookup rfl htag, hevent.of_lookup fun field hfield => ?_⟩
    have hne : field ≠ "type" := fun heq => event.kind.type_not_mem_fields (heq ▸ hfield)
    rw [lookup_entry, if_neg hne]
  · rintro ⟨record, hgives, hrequired, hevent⟩
    obtain ⟨tag, hlookup, htag⟩ := Option.bind_eq_some_iff.1 hrequired
    obtain ⟨rest, htagged, found, hfound, hfields⟩ :=
      hgives.exists_tagged? hlookup event.kind.type_not_mem_fields
    exact ⟨(tag, rest), htagged, event.kind, htag, found, hfound, rfl, hevent.of_lookup hfields⟩

/-! ## Reading without a bound -/

theorem FromRecord.imp (hevent : event.FromRecord gives record)
    (h : "events" ∈ event.kind.fields → ∀ items, record.lookup "events" = some (.array items) →
      ∀ item ∈ items, ∀ event, gives item event → others item event) :
    event.FromRecord others record := by
  rw [← event.withChildren_children]
  exact hevent.withChildren (fun _ _ _ => .of_lookup rfl)
    (fun hfield hlists => hlists.imp (h hfield))

/-- **The bound on the depth does not matter**: what is read within some bound is read
within any that the document stays below. -/
theorem read?_of_depth_le {depth bound : Nat} {numbered : Bool} {document : Document}
    (hread : read? depth numbered document = some event) (hbound : document.depth ≤ bound) :
    read? bound numbered document = some event := by
  induction depth generalizing numbered document event bound with
  | zero => cases hread
  | succ depth ih =>
    obtain ⟨record, hgives, hkind, hevent⟩ := read?_succ_eq_some_iff.1 hread
    obtain ⟨bound, rfl⟩ : ∃ below, bound = below + 1 :=
      Nat.exists_eq_add_one.2 (Nat.lt_of_lt_of_le hgives.depth_pos hbound)
    refine read?_succ_eq_some_iff.2 ⟨record, hgives, hkind, hevent.imp ?_⟩
    intro hfield items hitems item hitem event hevent
    have hdepth := hgives.depth_item_lt (List.mem_cons_of_mem _ hfield) hitems hitem
    exact ih hevent (by omega)

/-- The event is read from the document, within the bound that the document sets. -/
def ReadFrom (numbered : Bool) (document : Document) (event : Event) : Prop :=
  read? document.depth numbered document = some event

variable {numbered : Bool} {document : Document}

/-- **What event is read from a document**, its sub-events in the same way. -/
theorem readFrom_iff : ReadFrom numbered document event ↔
    ∃ record, document.Gives ("type" :: event.kind.fields) record ∧
      record.required "type" (EventKind.ofTag? numbered) = some event.kind ∧
      event.FromRecord (ReadFrom true) record := by
  -- Within the bound of the document its items are read within their own bounds.
  have hbelow (depth : Nat) (hdepth : document.depth = depth + 1) {record : Record}
      (hgives : document.Gives ("type" :: event.kind.fields) record) :
      event.FromRecord (fun item event => read? depth true item = some event) record ↔
        event.FromRecord (ReadFrom true) record := by
    constructor
    · exact fun hevent => hevent.imp fun _ _ _ _ _ _ hread =>
        read?_of_depth_le hread (Nat.le_refl _)
    · refine fun hevent => hevent.imp fun hfield items hitems item hitem event hread =>
        read?_of_depth_le hread ?_
      have hdepth := hgives.depth_item_lt (List.mem_cons_of_mem _ hfield) hitems hitem
      omega
  rw [ReadFrom]
  constructor
  · intro hread
    cases hdepth : document.depth with
    | zero =>
      rw [hdepth] at hread
      cases hread
    | succ depth =>
      rw [hdepth] at hread
      obtain ⟨record, hgives, hkind, hevent⟩ := read?_succ_eq_some_iff.1 hread
      exact ⟨record, hgives, hkind, (hbelow depth hdepth hgives).1 hevent⟩
  · rintro ⟨record, hgives, hkind, hevent⟩
    obtain ⟨depth, hdepth⟩ := Nat.exists_eq_add_one.2 hgives.depth_pos
    rw [hdepth]
    exact read?_succ_eq_some_iff.2 ⟨record, hgives, hkind, (hbelow depth hdepth hgives).2 hevent⟩

theorem ofDocument?_eq_some_iff :
    ofDocument? document = some event ↔ document.Readable ∧ ReadFrom false document event := by
  rw [ofDocument?, Document.Readable]
  split
  next hreadable => simp [hreadable, ReadFrom]
  next hunreadable => simp [hunreadable]

end Event

end SceneLogic
