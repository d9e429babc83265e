import SceneLogic.Proofs.Event.Reading

/-!
# Attributes that are read leniently

An attribute is a field of an event or an instruction which takes a value of its own when
it is missing or its value is not of its kind.  Whatever value is put under the key of an
attribute, the record is read as before but for that attribute.

## Main definitions

* `Attribute` — the key, the kind and the missing value of an attribute.
* `Attribute.assign` — give an attribute a value.
* `Instruction.attributes`, `EventKind.Has` — the attributes there are.

## Main statements

* `Instruction.ofRecord?_assign`, `Event.FromRecord.assign` — what is read from a record
  with a value under the key of an attribute.
-/

namespace SceneLogic

open Json

/-- A field of a record that is read leniently into a part of something. -/
structure Attribute (σ : Type) where
  /-- The key of the field. -/
  key : String
  /-- What the values of the field are. -/
  {Shape : Type}
  /-- How a value is read; none if it is not of the kind of the field. -/
  read : Document → Option Shape
  /-- What counts when no value is read. -/
  missing : Shape
  /-- Put what was read in its place. -/
  set : Shape → σ → σ

namespace Attribute

variable {σ τ : Type}

/-- Give an attribute the value that a document is read as, or its missing value. -/
def assign (self : Attribute σ) (value : Value) : σ → σ :=
  self.set ((self.read value.document).getD self.missing)

/-- The attribute of a part as an attribute of the whole. -/
def lift (modify : (σ → σ) → τ → τ) (self : Attribute σ) : Attribute τ where
  key := self.key
  read := self.read
  missing := self.missing
  set := fun shape => modify (self.set shape)

end Attribute

/-! ## The attributes of events and instructions -/

/-- Whether a condition is inverted. -/
def Attribute.inverted : Attribute Instruction :=
  ⟨"inverted", Document.bool?, false, fun inverted self => { self with inverted }⟩

/-- The attributes of an instruction. -/
def Instruction.attributes : List (Attribute Instruction) := [.inverted]

/-- The marks of an event. -/
def Flags.attributes : List (Attribute Flags) :=
  [⟨"disabled", Document.bool?, false, fun disabled flags => { flags with disabled }⟩,
    ⟨"folded", Document.bool?, false, fun folded flags => { flags with folded }⟩]

/-- What is known of a group. -/
def GroupInfo.attributes : List (Attribute GroupInfo) :=
  [⟨"name", Document.string?, "", fun name info => { info with name }⟩,
    ⟨"source", Document.string?, "", fun source info => { info with source }⟩,
    ⟨"creationTime", Document.natBelow? UInt32.size, 0,
      fun time info => { info with creationTime := UInt32.ofNat time }⟩,
    ⟨"parameters", Document.list? Document.string?, [],
      fun parameters info => { info with parameters }⟩,
    ⟨"color", Color.ofDocument?, .group, fun color info => { info with color }⟩]

/-- The name of the objects that are passed to a function. -/
def Signature.attributes : List (Attribute Signature) :=
  [⟨"objectsPassedAsArgument", Document.string?, "",
    fun argument signature => { signature with argument }⟩]

/-- The content of a comment. -/
def Note.attributes : List (Attribute Note) :=
  [⟨"text", Document.string?, "", fun text note => { note with text }⟩,
    ⟨"color", Color.ofDocument?, .comment, fun color note => { note with color }⟩,
    ⟨"textColor", Color.ofDocument?, .commentText, fun textColor note => { note with textColor }⟩]

namespace Event

/-- Change the marks of an event. -/
def modifyFlags (change : Flags → Flags) (event : Event) : Event :=
  event.withFlags (change event.flags)

/-- Change the names of a function; no other event changes. -/
def modifySignature (change : Signature → Signature) : Event → Event
  | .branch flags (.function signature body) events =>
    .branch flags (.function (change signature) body) events
  | event => event

/-- Change the content of a comment; no other event changes. -/
def modifyNote (change : Note → Note) : Event → Event
  | .comment flags note => .comment flags (change note)
  | event => event

end Event

/-- The attributes of the events of a kind. -/
inductive EventKind.Has : EventKind → Attribute Event → Prop
  | mark {kind : EventKind} {self : Attribute Flags} (hself : self ∈ Flags.attributes) :
    kind.Has (self.lift Event.modifyFlags)
  | known {self : Attribute GroupInfo} (hself : self ∈ GroupInfo.attributes) :
    EventKind.group.Has (self.lift fun change event => event.modifyGroup change)
  | argument {self : Attribute Signature} (hself : self ∈ Signature.attributes) :
    EventKind.function.Has (self.lift Event.modifySignature)
  | content {self : Attribute Note} (hself : self ∈ Note.attributes) :
    EventKind.comment.Has (self.lift Event.modifyNote)

/-! ## Records with a value under a key -/

namespace Json.Record

variable {record : Record} {field key : String}

/-- The other fields are alike when one is put in front. -/
theorem AlikeAt.of_ne (hne : field ≠ key) (item : Document) :
    record.AlikeAt ((key, item) :: record) field :=
  .of_lookup ((lookup_entry field key item record).trans (if_neg hne))

/-- A field that is read leniently takes any value. -/
theorem lenient_value (value : Value) (read : Document → Option α) (missing : α) :
    lenient ((key, value.document) :: record) field read missing =
      if field = key then some ((read value.document).getD missing)
      else record.lenient field read missing := by
  by_cases hfield : field = key
  · rw [lenient, lookup_entry, if_pos hfield, if_pos hfield]
    simp only [Document.canonical?_of_canonical value.canonical, Option.map_some]
  · rw [if_neg hfield, (AlikeAt.of_ne hfield value.document).lenient]

end Json.Record

/-- Fields that are no keys of the attributes are alike when an attribute has a value. -/
theorem Attribute.alikeAt {σ : Type} {attributes : List (Attribute σ)} {self : Attribute σ}
    (hself : self ∈ attributes) {fields : List String}
    (hkeys : ∀ key ∈ attributes.map (·.key), key ∉ fields) (record : Record) (item : Document) :
    ∀ field ∈ fields, record.AlikeAt ((self.key, item) :: record) field := by
  intro field hfield
  refine .of_ne ?_ item
  rintro rfl
  exact hkeys self.key (List.mem_map_of_mem hself) hfield

theorem Instruction.ofRecord?_assign {record : Record} {instruction : Instruction}
    (hread : ofRecord? record = some instruction) (value : Value) :
    ∀ self ∈ attributes, ofRecord? ((self.key, value.document) :: record) =
      some (self.assign value instruction) := by
  obtain ⟨hoperation, hparameters, -⟩ := ofRecord?_eq_some_iff.1 hread
  refine List.forall_mem_singleton.2 (ofRecord?_eq_some_iff.2 ⟨hoperation, hparameters, ?_⟩)
  exact (Record.lenient_value value Document.bool? false).trans (if_pos rfl)

theorem Flags.ofRecord?_assign {record : Record} {flags : Flags}
    (hread : ofRecord? record = some flags) (value : Value) :
    ∀ self ∈ attributes, ofRecord? ((self.key, value.document) :: record) =
      some (self.assign value flags) := by
  simp only [ofRecord?, Option.bind_eq_bind, Option.bind_eq_some_iff, pure,
    Option.some.injEq] at hread
  obtain ⟨disabled, hdisabled, folded, hfolded, rfl⟩ := hread
  simp [attributes, ofRecord?, Record.lenient_value, Attribute.assign, hdisabled, hfolded]

theorem GroupInfo.ofRecord?_assign {record : Record} {info : GroupInfo}
    (hread : ofRecord? record = some info) (value : Value) :
    ∀ self ∈ attributes, ofRecord? ((self.key, value.document) :: record) =
      some (self.assign value info) := by
  simp only [ofRecord?, Option.bind_eq_bind, Option.bind_eq_some_iff, pure,
    Option.some.injEq] at hread
  obtain ⟨name, hname, source, hsource, time, htime, parameters, hparameters, color, hcolor, rfl⟩ :=
    hread
  simp [attributes, ofRecord?, Record.lenient_value, Attribute.assign, hname, hsource, htime,
    hparameters, hcolor]

theorem Signature.ofRecord?_assign {record : Record} {signature : Signature}
    (hread : ofRecord? record = some signature) (value : Value) :
    ∀ self ∈ attributes, ofRecord? ((self.key, value.document) :: record) =
      some (self.assign value signature) := by
  obtain ⟨hname, -⟩ := ofRecord?_eq_some_iff.1 hread
  refine List.forall_mem_singleton.2 (ofRecord?_eq_some_iff.2 ⟨hname, ?_⟩)
  exact (Record.lenient_value value Document.string? "").trans (if_pos rfl)

theorem Note.ofRecord?_assign {record : Record} {note : Note}
    (hread : ofRecord? record = some note) (value : Value) :
    ∀ self ∈ attributes, ofRecord? ((self.key, value.document) :: record) =
      some (self.assign value note) := by
  simp only [ofRecord?, Option.bind_eq_bind, Option.bind_eq_some_iff, pure,
    Option.some.injEq] at hread
  obtain ⟨text, htext, color, hcolor, textColor, htextColor, rfl⟩ := hread
  simp [attributes, ofRecord?, Record.lenient_value, Attribute.assign, htext, hcolor, htextColor]

/-! ## Events with a value under a key -/

namespace Event

@[simp] theorem kind_modifyFlags (change : Flags → Flags) (event : Event) :
    (event.modifyFlags change).kind = event.kind := by
  cases event <;> rfl

@[simp] theorem kind_modifyGroup (change : GroupInfo → GroupInfo) (event : Event) :
    (event.modifyGroup change).kind = event.kind := by
  cases event with
  | branch flags header events => cases header <;> rfl
  | comment => rfl

@[simp] theorem kind_modifySignature (change : Signature → Signature) (event : Event) :
    (event.modifySignature change).kind = event.kind := by
  cases event with
  | branch flags header events => cases header <;> rfl
  | comment => rfl

@[simp] theorem kind_modifyNote (change : Note → Note) (event : Event) :
    (event.modifyNote change).kind = event.kind := by
  cases event <;> rfl

end Event

namespace EventKind

variable {kind : EventKind} {self : Attribute Event}

/-- The key of an attribute is a field other than the list of sub-events. -/
theorem Has.key_mem_fields (hself : kind.Has self) :
    self.key ∈ kind.fields ∧ self.key ≠ "events" := by
  have hkeys {σ : Type} {attributes : List (Attribute σ)} {self : Attribute σ}
      {modify : (σ → σ) → Event → Event} (hself : self ∈ attributes)
      (h : ∀ key ∈ attributes.map (·.key), key ∈ kind.fields ∧ key ≠ "events") :
      (self.lift modify).key ∈ kind.fields ∧ (self.lift modify).key ≠ "events" :=
    h self.key (List.mem_map_of_mem hself)
  cases hself with
  | mark hself => exact hkeys hself (by cases kind <;> decide)
  | known hself | argument hself | content hself => exact hkeys hself (by decide)

theorem Has.kind_assign {event : Event} (hself : kind.Has self) (value : Value) :
    (self.assign value event).kind = event.kind := by
  cases hself <;> simp [Attribute.assign, Attribute.lift]

end EventKind

namespace Event

variable {gives : Document → Event → Prop} {record : Record} {event : Event}

/-- **An attribute has the value under its key**, and nothing else of the event changes. -/
theorem FromRecord.assign {self : Attribute Event} (hevent : event.FromRecord gives record)
    (hself : event.kind.Has self) (value : Value) :
    (self.assign value event).FromRecord gives ((self.key, value.document) :: record) := by
  have hlists {events : List Event} (hlists : record.Lists "events" gives events) :
      Record.Lists ((self.key, value.document) :: record) "events" gives events :=
    hlists.of_lookup ((lookup_entry _ _ _ _).trans (if_neg hself.key_mem_fields.2.symm))
  generalize hkind : event.kind = kind at hself
  cases hself with
  | @mark _ self hself =>
    have hflags {flags : Flags} (hread : Flags.ofRecord? record = some flags) :=
      Flags.ofRecord?_assign hread value self hself
    cases event with
    | branch flags header events =>
      have hframe : ∀ field ∈ header.fields,
          record.AlikeAt ((self.key, value.document) :: record) field :=
        Attribute.alikeAt hself (by cases header <;> simp [Flags.attributes, Header.fields])
          record value.document
      exact ⟨hflags hevent.1, hevent.2.1.of_alike hframe, hlists hevent.2.2⟩
    | comment flags note =>
      have hnote := Note.ofRecord?_of_alike
        (Attribute.alikeAt hself (by decide) record value.document)
      exact ⟨hflags hevent.1, hnote.trans hevent.2⟩
  | @known self hself =>
    have hmarks := Flags.ofRecord?_of_alike
      (Attribute.alikeAt hself (by decide) record value.document)
    cases event with
    | branch flags header events =>
      cases header with
      | group info =>
        exact ⟨hmarks.trans hevent.1, GroupInfo.ofRecord?_assign hevent.2.1 value self hself,
          hlists hevent.2.2⟩
      | _ => cases hkind
    | comment => cases hkind
  | @argument self hself =>
    have hmarks := Flags.ofRecord?_of_alike
      (Attribute.alikeAt hself (by decide) record value.document)
    cases event with
    | branch flags header events =>
      cases header with
      | function signature body =>
        have hbody := Body.ofRecord?_of_alike
          (Attribute.alikeAt hself (by decide) record value.document) hevent.2.1.2
        exact ⟨hmarks.trans hevent.1,
          ⟨Signature.ofRecord?_assign hevent.2.1.1 value self hself, hbody⟩, hlists hevent.2.2⟩
      | _ => cases hkind
    | comment => cases hkind
  | @content self hself =>
    have hmarks := Flags.ofRecord?_of_alike
      (Attribute.alikeAt hself (by decide) record value.document)
    cases event with
    | branch flags header events => cases header <;> cases hkind
    | comment flags note =>
      exact ⟨hmarks.trans hevent.1, Note.ofRecord?_assign hevent.2 value self hself⟩

end Event

end SceneLogic
