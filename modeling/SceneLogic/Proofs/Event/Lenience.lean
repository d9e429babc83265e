import SceneLogic.Event.Editing
import SceneLogic.Proofs.Event.Attribute
import SceneLogic.Proofs.Event.Element
import SceneLogic.Proofs.Json.Change

/-!
# One attribute of an element is replaced

An attribute of an event or an instruction anywhere in an element is set to any value
whatsoever.  The element is still read, and as the event it was read as before but for that
attribute: which is what the value is read as, or the attribute's own missing value.

## Main definitions

* `Site` — an attribute of an event, of one of its instructions or of something below it.
* `Site.document?`, `Site.write` — the object in an element, and a value under its key.
* `Site.assign` — the attribute in an event.

## Main statements

* `Event.ReadFrom.write` — what is read from a document with a value at some site.
* `Event.ofElement?_write` — what is read from an element with a value at some site.
-/

namespace SceneLogic

open Json

/-- The field of an event that holds the instructions of a use. -/
def InstructionKind.field : InstructionKind → String
  | .condition => "conditions"
  | .action => "actions"

/-- The fields of an event by its tag, the tag first. -/
def Event.fieldsOf (document : Document) : List String :=
  match (document.tagged? "type").bind fun tagged => EventKind.ofTag? true tagged.1 with
  | some kind => "type" :: kind.fields
  | none => []

/-- Where an attribute is, seen from an event. -/
inductive Site where
  | own (self : Attribute Event)
  | instruction (kind : InstructionKind) (index : Nat) (self : Attribute Instruction)
  | inside (index : Nat) (site : Site)

namespace Site

/-- The event has an attribute at the site. -/
def IsIn : Site → Event → Prop
  | .own self, event => event.kind.Has self
  | .instruction kind index self, event => self ∈ Instruction.attributes ∧
    ∃ list, event.instructions kind = .ok list ∧ index < list.length
  | .inside index site, event => ∃ child, event.children[index]? = some child ∧ site.IsIn child

/-- The document of the event or the instruction that has the attribute. -/
def document? : Site → Document → Option Document
  | .own _, document => some document
  | .instruction kind index _, document =>
    (document.field? (Event.fieldsOf document) kind.field).bind (·.item? index)
  | .inside index site, document =>
    ((document.field? (Event.fieldsOf document) "events").bind (·.item? index)).bind
      site.document?

/-- Set the attribute to a value in the document of the event. -/
def write (value : Value) : Site → Document → Document
  | .own self, document => document.setMember self.key value.document
  | .instruction kind index self, document =>
    document.modifyField (Event.fieldsOf document) kind.field
      (·.modifyItem index (·.setMember self.key value.document))
  | .inside index site, document =>
    document.modifyField (Event.fieldsOf document) "events"
      (·.modifyItem index (site.write value))

/-- Give the attribute what a value is read as, or its missing value. -/
def assign (value : Value) : Site → Event → Event
  | .own self, event => self.assign value event
  | .instruction kind index self, event =>
    match event.instructions kind with
    | .ok list => event.withInstructions kind (list.modify index (self.assign value))
    | .error _ => event
  | .inside index site, event =>
    event.withChildren (event.children.modify index (site.assign value))

/-- A value stays a value, whatever is set in it. -/
theorem canonical_write (value : Value) (site : Site) {document : Document}
    (hdocument : document.Canonical) : (site.write value document).Canonical := by
  induction site generalizing document with
  | own self => exact hdocument.setMember _ value.canonical
  | instruction kind index self =>
    exact hdocument.modifyField fun list hlist =>
      hlist.modifyItem (fun item hitem => hitem.setMember _ value.canonical) index
  | inside index site ih =>
    exact hdocument.modifyField fun list hlist => hlist.modifyItem (fun item => ih) index

end Site

/-! ## Values on the way -/

namespace Json.Document

variable {document item : Document} {fields : List String} {field : String} {index : Nat}

theorem Canonical.field? (hdocument : document.Canonical)
    (hitem : document.field? fields field = some item) : item.Canonical := by
  obtain ⟨record, hrecord, hlookup⟩ := Option.bind_eq_some_iff.1 hitem
  have hmem := mem_of_lookup hlookup
  cases document with
  | object members =>
    simp only [Record.read?] at hrecord
    split at hrecord
    next =>
      cases hrecord
      exact canonicalMembers_iff.1 hdocument.2 _ (List.mem_filter.1 hmem).1
    next => cases hrecord
  | array items =>
    simp only [Record.read?] at hrecord
    split at hrecord
    next =>
      cases hrecord
      exact canonicalItems_iff.1 hdocument _ (List.of_mem_zip hmem).2
    next => cases hrecord
  | _ => cases hrecord

theorem Canonical.item? (hdocument : document.Canonical)
    (hitem : document.item? index = some item) : item.Canonical := by
  cases document with
  | array items => exact canonicalItems_iff.1 hdocument item (List.mem_of_getElem? hitem)
  | _ => cases hitem

end Json.Document

/-! ## Instructions on the way -/

/-- An instruction has the value under the key of an attribute. -/
theorem Instruction.ofDocument?_setMember {members : List (String × Document)}
    {instruction : Instruction} {self : Attribute Instruction}
    (hread : ofDocument? (.object members) = some instruction)
    (hascending : NameMap.Ascending members) (hself : self ∈ attributes) (value : Value) :
    ofDocument? ((Document.object members).setMember self.key value.document) =
      some (self.assign value instruction) := by
  obtain ⟨record, hgives, hrecord⟩ := ofDocument?_eq_some_iff.1 hread
  exact ofDocument?_eq_some_iff.2 ⟨_, hgives.setMember hascending self.key value.document,
    ofRecord?_assign hrecord value self hself⟩

namespace Body

/-- The instructions of a use. -/
def instructions (body : Body) : InstructionKind → List Instruction
  | .condition => body.conditions
  | .action => body.actions

/-- Replace the instructions of a use. -/
def withInstructions (body : Body) (kind : InstructionKind) (list : List Instruction) : Body :=
  match kind with
  | .condition => { body with conditions := list }
  | .action => { body with actions := list }

variable {record : Record} {body : Body}

theorem lists_instructions (hread : ofRecord? record = some body) (kind : InstructionKind) :
    record.Lists kind.field
      (fun item instruction => Instruction.ofDocument? item = some instruction)
      (body.instructions kind) := by
  rw [ofRecord?_eq_some_iff] at hread
  cases kind with
  | condition => exact hread.1
  | action => exact hread.2

/-- The instructions of one use are replaced, and those of the other stay. -/
theorem ofRecord?_withInstructions {kind : InstructionKind} {list : Document}
    {instructions : List Instruction} (hread : ofRecord? record = some body)
    (hlists : Record.Lists ((kind.field, list) :: record) kind.field
      (fun item instruction => Instruction.ofDocument? item = some instruction) instructions) :
    ofRecord? ((kind.field, list) :: record) =
      some (body.withInstructions kind instructions) := by
  rw [ofRecord?_eq_some_iff] at hread ⊢
  cases kind with
  | condition => exact ⟨hlists, hread.2.of_lookup rfl⟩
  | action => exact ⟨hread.1.of_lookup rfl, hlists⟩

end Body

namespace Event

variable {gives : Document → Event → Prop} {record other : Record} {event child : Event}
  {numbered : Bool} {document : Document} {index : Nat} {kind : InstructionKind}
  {list : List Instruction} {body changed : Body}

theorem instructions_eq_ok_iff : event.instructions kind = .ok list ↔
    ∃ body, event.body? = some body ∧ body.instructions kind = list := by
  cases kind <;> simp only [instructions, conditions, actions, Body.instructions] <;>
    cases event.body? <;> simp

theorem withInstructions_of_body? (hbody : event.body? = some body) :
    event.withInstructions kind list = event.withBody (body.withInstructions kind list) := by
  rw [withInstructions, hbody]
  rfl

theorem kind_withInstructions (event : Event) (kind : InstructionKind)
    (list : List Instruction) : (event.withInstructions kind list).kind = event.kind := by
  cases event with
  | branch flags header events => cases header <;> rfl
  | comment => rfl

theorem kind_withChildren (event : Event) (events : List Event) :
    (event.withChildren events).kind = event.kind := by
  cases event <;> rfl

/-! ## Events on the way -/

theorem fieldsOf_eq (hgives : document.Gives ("type" :: event.kind.fields) record)
    (hkind : record.required "type" (EventKind.ofTag? numbered) = some event.kind) :
    fieldsOf document = "type" :: event.kind.fields := by
  obtain ⟨tag, hlookup, htag⟩ := Option.bind_eq_some_iff.1 hkind
  obtain ⟨rest, htagged, -⟩ := hgives.exists_tagged? hlookup event.kind.type_not_mem_fields
  simp only [fieldsOf, htagged, Option.bind_some, EventKind.ofTag?_true htag]

theorem field?_fieldsOf {field : String} {items : Document}
    (hgives : document.Gives ("type" :: event.kind.fields) record)
    (hkind : record.required "type" (EventKind.ofTag? numbered) = some event.kind)
    (hfield : field ∈ event.kind.fields) (hlookup : record.lookup field = some items) :
    document.field? (fieldsOf document) field = some items := by
  rw [fieldsOf_eq hgives hkind, hgives.field? (List.mem_cons_of_mem _ hfield), hlookup]

/-- An event with sub-events has a list for them. -/
theorem FromRecord.lists_events (hevent : event.FromRecord gives record)
    (hchild : event.children[index]? = some child) :
    "events" ∈ event.kind.fields ∧ record.Lists "events" gives event.children := by
  cases event with
  | branch flags header events =>
    exact ⟨by rw [Event.kind, header.kind_fields]; simp, hevent.2.2⟩
  | comment flags note => cases hchild

/-- The conditions and actions of an event are read from two of its fields. -/
theorem FromRecord.ofRecord?_body (hevent : event.FromRecord gives record)
    (hbody : event.body? = some body) :
    (∀ kind : InstructionKind, kind.field ∈ event.kind.fields) ∧
      Body.ofRecord? record = some body := by
  have hfields : ∀ kind ∈ [EventKind.standard, .function], ∀ use : InstructionKind,
      use.field ∈ kind.fields := by
    intro kind hkind use
    cases use <;> revert kind <;> decide
  cases event with
  | branch flags header events =>
    cases header with
    | standard =>
      cases hbody
      exact ⟨hfields .standard (by simp), hevent.2.1⟩
    | group => cases hbody
    | function =>
      cases hbody
      exact ⟨hfields .function (by simp), hevent.2.1.2⟩
  | comment => cases hbody

/-- An event with instructions has a list for those of a use. -/
theorem FromRecord.lists_instructions (hevent : event.FromRecord gives record)
    (hlist : event.instructions kind = .ok list) :
    kind.field ∈ event.kind.fields ∧
      record.Lists kind.field
        (fun item instruction => Instruction.ofDocument? item = some instruction) list := by
  obtain ⟨body, hbody, rfl⟩ := instructions_eq_ok_iff.1 hlist
  obtain ⟨hfields, hread⟩ := hevent.ofRecord?_body hbody
  exact ⟨hfields kind, Body.lists_instructions hread kind⟩

/-- **A record that is alike but for the instructions** gives the same event with other
instructions. -/
theorem FromRecord.withBody (hevent : event.FromRecord gives record)
    (hbody : event.body? = some body) (hchanged : Body.ofRecord? other = some changed)
    (hlookup : ∀ field ∉ ["conditions", "actions"], other.lookup field = record.lookup field) :
    (event.withBody changed).FromRecord gives other := by
  have hframe (fields : List String) (hfields : ∀ field ∈ fields,
      field ∉ ["conditions", "actions"]) : ∀ field ∈ fields, record.AlikeAt other field :=
    fun field hfield => .of_lookup (hlookup field (hfields field hfield))
  have hflags := Flags.ofRecord?_of_alike (hframe _ (by decide))
  cases event with
  | branch flags header events =>
    have hlists := hevent.2.2.of_lookup (hlookup "events" (by decide))
    cases header with
    | standard => exact ⟨hflags.trans hevent.1, hchanged, hlists⟩
    | group => cases hbody
    | function signature =>
      have hsignature := Signature.ofRecord?_of_alike (hframe _ (by decide)) hevent.2.1.1
      exact ⟨hflags.trans hevent.1, ⟨hsignature, hchanged⟩, hlists⟩
  | comment => cases hbody

theorem FromRecord.withInstructions {items : Document} {instructions : List Instruction}
    (hevent : event.FromRecord gives record) (hlist : event.instructions kind = .ok list)
    (hlists : Record.Lists ((kind.field, items) :: record) kind.field
      (fun item instruction => Instruction.ofDocument? item = some instruction) instructions) :
    (event.withInstructions kind instructions).FromRecord gives
      ((kind.field, items) :: record) := by
  obtain ⟨body, hbody, -⟩ := instructions_eq_ok_iff.1 hlist
  rw [withInstructions_of_body? hbody]
  refine hevent.withBody hbody
    (Body.ofRecord?_withInstructions (hevent.ofRecord?_body hbody).2 hlists) fun field hfield => ?_
  rw [lookup_entry, if_neg]
  rintro rfl
  exact hfield (by cases kind <;> decide)

/-! ## Events with a value under a key -/

/-- A field is put in front of the record of an event: the tag stays, and an event of the
same kind that the record gives is read. -/
theorem readFrom_of_cons {written items : Document} {field : String} {result : Event}
    (hkind : record.required "type" (EventKind.ofTag? numbered) = some event.kind)
    (hgives : written.Gives ("type" :: event.kind.fields) ((field, items) :: record))
    (hfield : field ∈ event.kind.fields) (hsame : result.kind = event.kind)
    (hresult : result.FromRecord (ReadFrom true) ((field, items) :: record)) :
    ReadFrom numbered written result := by
  have hne : "type" ≠ field := fun heq => event.kind.type_not_mem_fields (heq ▸ hfield)
  refine readFrom_iff.2 ⟨(field, items) :: record, hsame ▸ hgives, ?_, hresult⟩
  rw [Record.required, lookup_entry, if_neg hne, hsame]
  exact hkind

/-- **What is read from a document with a value at some site**: the event that was read
before, with the attribute of that site as the value is read. -/
theorem ReadFrom.write {site : Site} {members : List (String × Document)}
    (hread : ReadFrom numbered document event) (hdocument : document.Canonical)
    (hsite : site.IsIn event) (hobject : site.document? document = some (.object members))
    (value : Value) : ReadFrom numbered (site.write value document) (site.assign value event) := by
  -- On the way to the site every event is read from a record in which one list has changed
  -- in one item; only the last object has a member of its own that is set.
  induction site generalizing numbered document event with
  | own self =>
    obtain rfl := Option.some.inj hobject
    obtain ⟨record, hgives, hkind, hevent⟩ := readFrom_iff.1 hread
    exact readFrom_of_cons hkind (hgives.setMember hdocument.1 self.key value.document)
      hsite.key_mem_fields.1 (hsite.kind_assign value) (hevent.assign hsite value)
  | instruction kind index self =>
    obtain ⟨hself, list, hlist, hindex⟩ := hsite
    obtain ⟨record, hgives, hkind, hevent⟩ := readFrom_iff.1 hread
    obtain ⟨hfield, hlists⟩ := hevent.lists_instructions hlist
    have hinstruction := List.getElem?_eq_getElem hindex
    obtain ⟨items, item, hlookup, hitem, hread⟩ := hlists.exists_item? hinstruction
    have hitems := field?_fieldsOf hgives hkind hfield hlookup
    rw [Site.document?, hitems, Option.bind_some, hitem] at hobject
    obtain rfl := Option.some.inj hobject
    have hcanonical := (hdocument.field? hitems).item? hitem
    have hchanged := hlists.modify hlookup hitem hinstruction
      (·.setMember self.key value.document) (self.assign value)
      (Instruction.ofDocument?_setMember hread hcanonical.1 hself value)
    simp only [Site.write, Site.assign, hlist, fieldsOf_eq hgives hkind]
    exact readFrom_of_cons hkind (hgives.modifyField hlookup _) hfield
      (kind_withInstructions _ _ _) (hevent.withInstructions hlist hchanged)
  | inside index site ih =>
    obtain ⟨child, hchild, hsite⟩ := hsite
    obtain ⟨record, hgives, hkind, hevent⟩ := readFrom_iff.1 hread
    obtain ⟨hfield, hlists⟩ := hevent.lists_events hchild
    obtain ⟨items, item, hlookup, hitem, hread⟩ := hlists.exists_item? hchild
    have hitems := field?_fieldsOf hgives hkind hfield hlookup
    rw [Site.document?, hitems, Option.bind_some, hitem, Option.bind_some] at hobject
    have hcanonical := (hdocument.field? hitems).item? hitem
    have hchanged := hlists.modify hlookup hitem hchild (site.write value) (site.assign value)
      (ih hread hcanonical hsite hobject)
    simp only [Site.write, Site.assign, fieldsOf_eq hgives hkind]
    exact readFrom_of_cons hkind (hgives.modifyField hlookup _) hfield (kind_withChildren _ _)
      (hevent.withChildren (fun field _ hne => .of_ne hne _) fun _ _ => hchanged)

/-- **A malformed attribute does no other harm**: whatever value an attribute is set to in
the object of an event or an instruction somewhere in an element that is read, the element
is still read, and the event is the same but for that attribute, which is as the value is
read if it is of the right kind and otherwise as if it were missing. -/
theorem ofElement?_write {element : Value} {event : Event} {site : Site}
    {members : List (String × Document)} (hread : ofElement? element = some event)
    (hsite : site.IsIn event) (hobject : site.document? element.document = some (.object members))
    (value : Value) : ∃ changed : Value,
      changed.document = site.write value element.document ∧
        ofElement? changed = some (site.assign value event) := by
  have hcanonical := site.canonical_write value element.canonical
  refine ⟨⟨_, hcanonical⟩, rfl, ofDocument?_eq_some_iff.2 ⟨?_, ?_⟩⟩
  · exact Document.readable_of_canonical? (Document.canonical?_of_canonical hcanonical)
  · exact (ofDocument?_eq_some_iff.1 hread).2.write element.canonical hsite hobject value

/-- A group with a standard event that is written as an array and has one condition. -/
def nestedDocument (inverted : Document) : Document :=
  .object [("events", .array [.array [.string "Standard", .bool false, .bool true,
      .array [.object [("inverted", inverted), ("type", .string "common/IsTrue")]]]]),
    ("name", .string "Group"), ("type", .string "Group")]

/-- What such a group is read as. -/
def nestedEvent (inverted : Bool) : Event :=
  .branch ⟨false, false⟩ (.group ⟨"Group", "", 0, [], .group⟩)
    [.branch ⟨false, true⟩ (.standard ⟨[⟨"common/IsTrue", [], inverted⟩], []⟩) []]

/-- The condition of the standard event is no longer inverted when a number says so. -/
theorem ofElement?_write_nestedDocument : ∃ changed : Value,
    changed.document = nestedDocument (.ofNat 1) ∧
      ofElement? changed = some (nestedEvent false) := by
  have hcanonical : (nestedDocument (.bool true)).Canonical :=
    ⟨by decide, ⟨⟨trivial, trivial, trivial, ⟨⟨by decide, trivial, trivial, trivial⟩, trivial⟩,
      trivial⟩, trivial⟩, trivial, trivial, trivial⟩
  have hread : ofElement? ⟨nestedDocument (.bool true), hcanonical⟩ = some (nestedEvent true) := rfl
  have hsite : (Site.inside 0 (.instruction .condition 0 .inverted)).IsIn (nestedEvent true) :=
    ⟨_, rfl, .head _, _, rfl, Nat.zero_lt_one⟩
  exact ofElement?_write hread hsite rfl (Value.ofNat 1)

end Event

end SceneLogic
