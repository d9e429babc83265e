import SceneLogic.Event.Codec
import SceneLogic.Proofs.Json.Record

/-!
# Written events are read back

Every part of an event is read back from the members that it is written as: what is left
out when it is written has the value that it has when it is missing, and what is read
leniently is written in canonical form.

## Main statements

* `Event.read?_toDocument` — an event is read back from its document.
* `Event.readable_toDocument` — nothing in the document of an event is unreadable.
-/

namespace SceneLogic

open Json

/-! ## Texts and numbers -/

namespace Json.Document

@[simp] theorem string?_string (s : String) : (string s).string? = some s := rfl

theorem list?_string?_map (texts : List String) :
    (array (texts.map string)).list? string? = some texts :=
  list?_map_eq_some fun _ _ => rfl

theorem canonical?_map_string (texts : List String) :
    (array (texts.map string)).canonical? = some (array (texts.map string)) := by
  have hitems : canonicalItems? (texts.map string) = some (texts.map string) := by
    induction texts with
    | nil => rfl
    | cons text texts ih =>
      rw [List.map_cons, canonicalItems?, ih]
      rfl
  rw [canonical?, hitems]
  rfl

/-- A natural number below a bound of 64 bits is read back. -/
theorem natBelow?_ofNat {bound n : Nat} (hn : n < bound)
    (hbound : bound ≤ 18446744073709551616) : (ofNat n).natBelow? bound = some n := by
  have hfits : FitsWord (n : Int) := by
    unfold FitsWord
    omega
  have hinteger : Number.integer? n = some (.integer n hfits) := dif_pos hfits
  have hrange : (0 : Int) ≤ n ∧ (n : Int) < bound := by omega
  rw [ofNat, hinteger, Option.getD_some, natBelow?, if_pos hrange, Int.toNat_natCast]

theorem canonical?_ofNat (n : Nat) : (ofNat n).canonical? = some (ofNat n) := by
  rw [ofNat]
  rfl

end Json.Document

/-- A mark that is left out when it is not set. -/
theorem Json.Record.lenient_mark {record : Record} {field : String} {mark : Bool}
    (hlookup : record.lookup field = if mark = true then some (.bool true) else none) :
    record.lenient field Document.bool? false = some mark :=
  lenient_of_member hlookup rfl (fun hmark => congrArg some hmark.symm) id

theorem Json.Record.lenient_string {record : Record} {field s : String}
    (hlookup : record.lookup field = some (.string s)) (missing : String) :
    record.lenient field Document.string? missing = some s :=
  lenient_of_lookup hlookup rfl (Document.string?_string s) missing

/-! ## Instructions -/

namespace Instruction

/-- The members that an instruction is written as. -/
def toMembers (instruction : Instruction) : List (String × Document) :=
  ("type", .string instruction.operation) ::
    ("parameters", .array (instruction.parameters.map .string)) ::
    Document.member instruction.inverted "inverted" (.bool true)

theorem toDocument_eq (instruction : Instruction) :
    instruction.toDocument = .object instruction.toMembers := rfl

theorem keys_toMembers (instruction : Instruction) :
    (instruction.toMembers.map (·.1)).Sublist fields :=
  ((Document.keys_member_sublist _ _ _).cons_cons _).cons_cons _

theorem ofDocument?_toDocument (instruction : Instruction) :
    ofDocument? instruction.toDocument = some instruction := by
  have hoperation : Record.required instruction.toMembers "type" Document.string? =
      some instruction.operation :=
    Record.required_of_lookup rfl (Document.string?_string _)
  have hparameters : Record.optional instruction.toMembers "parameters"
      (Document.list? Document.string?) [] = some instruction.parameters :=
    Record.optional_of_lookup rfl (Document.list?_string?_map _) _
  have hinverted : Record.lenient instruction.toMembers "inverted" Document.bool? false =
      some instruction.inverted :=
    Record.lenient_mark (by simp [toMembers, lookup_entry, Document.lookup_member])
  rw [ofDocument?, toDocument_eq, Record.read?_object instruction.keys_toMembers (by decide),
    Option.bind_eq_bind, Option.bind_some, hoperation, hparameters, hinverted]
  rfl

theorem list?_map_toDocument (instructions : List Instruction) :
    (Document.array (instructions.map toDocument)).list? ofDocument? = some instructions :=
  Document.list?_map_eq_some fun instruction _ => instruction.ofDocument?_toDocument

end Instruction

/-! ## Parts of events -/

namespace Color

theorem canonical?_toDocument (color : Color) :
    color.toDocument.canonical? = some (.object [("b", .ofNat color.blue.toNat),
      ("g", .ofNat color.green.toNat), ("r", .ofNat color.red.toNat)]) := by
  rfl

theorem natBelow?_toNat (component : UInt8) :
    (Document.ofNat component.toNat).natBelow? UInt8.size = some component.toNat :=
  Document.natBelow?_ofNat component.toNat_lt_size (by decide)

/-- The components are found whatever the order of the members. -/
theorem ofDocument?_canonical {color : Color} {red green blue : Document}
    (hred : red.natBelow? UInt8.size = some color.red.toNat)
    (hgreen : green.natBelow? UInt8.size = some color.green.toNat)
    (hblue : blue.natBelow? UInt8.size = some color.blue.toNat) :
    ofDocument? (.object [("b", blue), ("g", green), ("r", red)]) = some color := by
  have hrecord : Record.read? ["r", "g", "b"] (.object [("b", blue), ("g", green), ("r", red)]) =
      some [("b", blue), ("g", green), ("r", red)] := rfl
  rw [ofDocument?, hrecord]
  simp [Record.required, lookup_entry, hred, hgreen, hblue]

theorem lenient_toDocument {record : Record} {field : String} {color : Color}
    (hlookup : record.lookup field = some color.toDocument) (missing : Color) :
    record.lenient field ofDocument? missing = some color :=
  Record.lenient_of_lookup hlookup color.canonical?_toDocument
    (ofDocument?_canonical (natBelow?_toNat _) (natBelow?_toNat _) (natBelow?_toNat _)) missing

end Color

namespace Flags

theorem keys_toMembers (flags : Flags) :
    (flags.toMembers.map (·.1)).Sublist ["disabled", "folded"] := by
  rw [toMembers, List.map_append]
  exact (Document.keys_member_sublist _ _ _).append (Document.keys_member_sublist _ _ _)

theorem ofRecord?_of_lookup {record : Record} {flags : Flags}
    (hlookup : ∀ field ∈ ["disabled", "folded"],
      record.lookup field = flags.toMembers.lookup field) :
    ofRecord? record = some flags := by
  have hdisabled : record.lenient "disabled" Document.bool? false = some flags.disabled :=
    Record.lenient_mark <| (hlookup "disabled" (by simp)).trans
      (by simp [toMembers, List.lookup_append, Document.lookup_member])
  have hfolded : record.lenient "folded" Document.bool? false = some flags.folded :=
    Record.lenient_mark <| (hlookup "folded" (by simp)).trans
      (by simp [toMembers, List.lookup_append, Document.lookup_member])
  rw [ofRecord?, hdisabled, hfolded]
  rfl

end Flags

namespace Body

theorem ofRecord?_of_lookup {record : Record} {body : Body}
    (hlookup : ∀ field ∈ ["conditions", "actions"],
      record.lookup field = body.toMembers.lookup field) :
    ofRecord? record = some body := by
  have hconditions := hlookup "conditions" (by simp)
  have hactions := hlookup "actions" (by simp)
  rw [ofRecord?]
  dsimp only
  rw [Record.optional_of_lookup hconditions (Instruction.list?_map_toDocument _),
    Record.optional_of_lookup hactions (Instruction.list?_map_toDocument _)]
  rfl

end Body

namespace GroupInfo

theorem keys_toMembers (info : GroupInfo) :
    (info.toMembers.map (·.1)).Sublist
      ["name", "source", "creationTime", "parameters", "color"] := by
  simp only [toMembers, List.map_append, List.map_cons, List.map_nil]
  exact ((((Document.keys_member_sublist _ _ _).cons_cons _).append
    (Document.keys_member_sublist _ _ _)).append
    (Document.keys_member_sublist _ _ _)).append (List.Sublist.refl _)

theorem ofRecord?_of_lookup {record : Record} {info : GroupInfo}
    (hlookup : ∀ field ∈ ["name", "source", "creationTime", "parameters", "color"],
      record.lookup field = info.toMembers.lookup field) :
    ofRecord? record = some info := by
  have hname : record.lenient "name" Document.string? "" = some info.name :=
    Record.lenient_string (hlookup "name" (by simp)) _
  have hsource : record.lookup "source" =
      if decide (info.source ≠ "") = true then some (.string info.source) else none := by
    simp [hlookup, toMembers, List.lookup_append, lookup_entry, Document.lookup_member]
  have htime : record.lookup "creationTime" =
      if decide (info.creationTime ≠ 0) = true then some (.ofNat info.creationTime.toNat)
      else none := by
    simp [hlookup, toMembers, List.lookup_append, lookup_entry, Document.lookup_member]
  have hparameters : record.lookup "parameters" =
      if (!info.parameters.isEmpty) = true then some (.array (info.parameters.map .string))
      else none := by
    simp [hlookup, toMembers, List.lookup_append, lookup_entry, Document.lookup_member]
  have hcolor : record.lookup "color" = some info.color.toDocument := by
    simp [hlookup, toMembers, List.lookup_append, lookup_entry, Document.lookup_member]
  have hunknown : decide (info.creationTime ≠ 0) = false → info.creationTime.toNat = 0 := by
    intro hzero
    have hzero : info.creationTime = 0 := by simpa using hzero
    rw [hzero]
    rfl
  rw [ofRecord?, hname,
    Record.lenient_of_member hsource rfl (fun _ => Document.string?_string _) (by simp),
    Record.lenient_of_member htime (Document.canonical?_ofNat _)
      (fun _ => Document.natBelow?_ofNat info.creationTime.toNat_lt_size (by decide)) hunknown,
    Record.lenient_of_member hparameters (Document.canonical?_map_string _)
      (fun _ => Document.list?_string?_map _) (by simp),
    Color.lenient_toDocument hcolor]
  simp

end GroupInfo

namespace Signature

theorem ofRecord?_of_lookup {record : Record} {signature : Signature}
    (hlookup : ∀ field ∈ ["name", "objectsPassedAsArgument"],
      record.lookup field = signature.toMembers.lookup field) :
    ofRecord? record = some signature := by
  have hname : record.optional "name" Document.string? "" = some signature.name :=
    Record.optional_of_lookup (hlookup "name" (by simp)) (Document.string?_string _) _
  have hargument : record.lenient "objectsPassedAsArgument" Document.string? "" =
      some signature.argument :=
    Record.lenient_string (hlookup "objectsPassedAsArgument" (by simp)) _
  rw [ofRecord?, hname, hargument]
  rfl

end Signature

namespace Note

theorem ofRecord?_of_lookup {record : Record} {note : Note}
    (hlookup : ∀ field ∈ ["text", "color", "textColor"],
      record.lookup field = note.toMembers.lookup field) :
    ofRecord? record = some note := by
  have htext : record.lenient "text" Document.string? "" = some note.text :=
    Record.lenient_string (hlookup "text" (by simp)) _
  have hcolor : record.lenient "color" Color.ofDocument? .comment = some note.color :=
    Color.lenient_toDocument (hlookup "color" (by simp)) _
  have htextColor : record.lenient "textColor" Color.ofDocument? .commentText =
      some note.textColor :=
    Color.lenient_toDocument (hlookup "textColor" (by simp)) _
  rw [ofRecord?, htext, hcolor, htextColor]
  rfl

end Note

/-! ## The members of an event -/

namespace EventKind

theorem ofTag?_name (numbered : Bool) (kind : EventKind) :
    ofTag? numbered (.string kind.name) = some kind := by
  cases kind <;> rfl

theorem nodup_fields (kind : EventKind) : kind.fields.Nodup := by
  cases kind <;> decide

theorem type_not_mem_fields (kind : EventKind) : "type" ∉ kind.fields := by
  cases kind <;> decide

/-- The tag of an event is found among its members. -/
theorem tagged?_object (kind : EventKind) {members : List (String × Document)}
    (hkeys : (members.map (·.1)).Sublist kind.fields) :
    (Document.object (("type", .string kind.name) :: members)).tagged? "type" =
      some (.string kind.name, .object members) := by
  have hne : ∀ member ∈ members, member.1 ≠ "type" := by
    intro member hmember htype
    exact kind.type_not_mem_fields (htype ▸ hkeys.mem (List.mem_map_of_mem hmember))
  have htagged : (("type", Document.string kind.name) :: members).filter (·.1 = "type") =
      [("type", .string kind.name)] := by
    rw [List.filter_cons_of_pos (by simp), List.filter_eq_nil_iff.2]
    exact fun member hmember => by simpa using hne member hmember
  have hothers : (("type", Document.string kind.name) :: members).filter (·.1 ≠ "type") =
      members := by
    rw [List.filter_cons_of_neg (by simp), List.filter_eq_self.2]
    exact fun member hmember => decide_eq_true (hne member hmember)
  simp only [Document.tagged?, htagged, hothers]

end EventKind

namespace Header

theorem keys_branchMembers (header : Header) (flags : Flags) (events : List Document) :
    ((header.branchMembers flags events).map (·.1)).Sublist header.kind.fields := by
  have hevents := Document.keys_member_sublist
    (header.alwaysWritesEvents || !events.isEmpty) "events" (.array events)
  rw [branchMembers, List.map_append, List.map_append]
  cases header with
  | standard body => exact (flags.keys_toMembers.append (List.Sublist.refl _)).append hevents
  | group info => exact (flags.keys_toMembers.append info.keys_toMembers).append hevents
  | function signature body =>
    exact (flags.keys_toMembers.append (List.Sublist.refl _)).append hevents

theorem lookup_flags (header : Header) (flags : Flags) (events : List Document) :
    ∀ field ∈ ["disabled", "folded"],
      (header.branchMembers flags events).lookup field = flags.toMembers.lookup field := by
  cases header <;>
    simp [branchMembers, toMembers, Flags.toMembers, Body.toMembers, GroupInfo.toMembers,
      Signature.toMembers, List.lookup_append, lookup_entry, Document.lookup_member]

theorem lookup_body (flags : Flags) (body : Body) (events : List Document) :
    ∀ field ∈ ["conditions", "actions"],
      ((standard body).branchMembers flags events).lookup field = body.toMembers.lookup field := by
  simp [branchMembers, toMembers, Flags.toMembers, Body.toMembers, List.lookup_append,
    lookup_entry, Document.lookup_member]

theorem lookup_info (flags : Flags) (info : GroupInfo) (events : List Document) :
    ∀ field ∈ ["name", "source", "creationTime", "parameters", "color"],
      ((group info).branchMembers flags events).lookup field = info.toMembers.lookup field := by
  simp [branchMembers, toMembers, Flags.toMembers, GroupInfo.toMembers, List.lookup_append,
    lookup_entry, Document.lookup_member]

theorem lookup_signature (flags : Flags) (signature : Signature) (body : Body)
    (events : List Document) :
    ∀ field ∈ ["name", "objectsPassedAsArgument"],
      ((function signature body).branchMembers flags events).lookup field =
        signature.toMembers.lookup field := by
  simp [branchMembers, toMembers, Flags.toMembers, Signature.toMembers, List.lookup_append,
    lookup_entry, Document.lookup_member]

theorem lookup_functionBody (flags : Flags) (signature : Signature) (body : Body)
    (events : List Document) :
    ∀ field ∈ ["conditions", "actions"],
      ((function signature body).branchMembers flags events).lookup field =
        body.toMembers.lookup field := by
  simp [branchMembers, toMembers, Flags.toMembers, Signature.toMembers, Body.toMembers,
    List.lookup_append, lookup_entry, Document.lookup_member]

theorem lookup_events (header : Header) (flags : Flags) (events : List Document) :
    (header.branchMembers flags events).lookup "events" =
      if (header.alwaysWritesEvents || !events.isEmpty) = true then some (.array events)
      else none := by
  cases header <;>
    simp [branchMembers, toMembers, Flags.toMembers, Body.toMembers, GroupInfo.toMembers,
      Signature.toMembers, List.lookup_append, lookup_entry, Document.lookup_member]

end Header

namespace Note

theorem keys_members (flags : Flags) (note : Note) :
    ((flags.toMembers ++ note.toMembers).map (·.1)).Sublist EventKind.comment.fields := by
  rw [List.map_append]
  exact flags.keys_toMembers.append (List.Sublist.refl _)

theorem lookup_flags (flags : Flags) (note : Note) :
    ∀ field ∈ ["disabled", "folded"],
      (flags.toMembers ++ note.toMembers).lookup field = flags.toMembers.lookup field := by
  simp [toMembers, Flags.toMembers, List.lookup_append, lookup_entry, Document.lookup_member]

theorem lookup_note (flags : Flags) (note : Note) :
    ∀ field ∈ ["text", "color", "textColor"],
      (flags.toMembers ++ note.toMembers).lookup field = note.toMembers.lookup field := by
  simp [toMembers, Flags.toMembers, List.lookup_append, lookup_entry, Document.lookup_member]

end Note

/-! ## Events -/

namespace Event

/-- The members that an event is written as, its tag apart. -/
def members : Event → List (String × Document)
  | .branch flags header events => header.branchMembers flags (toDocuments events)
  | .comment flags note => flags.toMembers ++ note.toMembers

theorem toDocument_eq (event : Event) :
    event.toDocument = .object (("type", .string event.kind.name) :: event.members) := by
  cases event <;> rw [toDocument] <;> rfl

theorem keys_members (event : Event) : (event.members.map (·.1)).Sublist event.kind.fields := by
  cases event with
  | branch flags header events => exact header.keys_branchMembers flags (toDocuments events)
  | comment flags note => exact note.keys_members flags

/-- Sub-events nest two levels less deep than their event. -/
theorem depthOfItems_toDocuments (flags : Flags) (header : Header) (events : List Event)
    (hwritten : (header.alwaysWritesEvents || !(toDocuments events).isEmpty) = true) :
    Document.depthOfItems (toDocuments events) + 2 ≤
      (Event.branch flags header events).toDocument.depth := by
  have hlookup := header.lookup_events flags (toDocuments events)
  rw [if_pos hwritten] at hlookup
  have hmember := List.mem_cons_of_mem ("type", Document.string header.kind.name)
    (Document.mem_of_lookup hlookup)
  have hdepth := Document.depth_lt_object hmember
  rw [Document.depth] at hdepth
  rw [toDocument_eq]
  exact hdepth

mutual

/-- **An event is read back from its document**, wherever that is deep enough. -/
theorem read?_toDocument : ∀ (event : Event) {depth : Nat} (numbered : Bool),
    event.toDocument.depth ≤ depth → read? depth numbered event.toDocument = some event
  | event, 0, numbered, hdepth => by
    rw [toDocument_eq, Document.depth] at hdepth
    omega
  | .comment flags note, depth + 1, numbered, hdepth => by
    have hrecord : Record.read? EventKind.comment.fields
        (.object (flags.toMembers ++ note.toMembers)) = some _ :=
      Record.read?_object (note.keys_members flags) (EventKind.nodup_fields _)
    have hflags := Flags.ofRecord?_of_lookup (note.lookup_flags flags)
    have hnote := Note.ofRecord?_of_lookup (note.lookup_note flags)
    rw [toDocument_eq, read?, EventKind.tagged?_object _ (keys_members _)]
    simp only [Option.bind_eq_bind, Option.bind_some, EventKind.ofTag?_name, kind, members,
      hrecord, hflags, hnote]
    rfl
  | .branch flags header events, depth + 1, numbered, hdepth => by
    have hrecord : Record.read? header.kind.fields
        (.object (header.branchMembers flags (toDocuments events))) = some _ :=
      Record.read?_object (header.keys_branchMembers flags _) (EventKind.nodup_fields _)
    have hflags := Flags.ofRecord?_of_lookup (header.lookup_flags flags (toDocuments events))
    have hevents : Record.optional (header.branchMembers flags (toDocuments events)) "events"
        (Document.list? (read? depth true)) [] = some events := by
      apply Record.optional_of_member (header.lookup_events flags (toDocuments events))
      · intro hwritten
        have hnested := depthOfItems_toDocuments flags header events hwritten
        exact mapM_toDocuments events (by omega)
      · intro hleft
        cases events with
        | nil => rfl
        | cons event events => simp [toDocuments] at hleft
    rw [toDocument_eq, read?, EventKind.tagged?_object _ (keys_members _)]
    simp only [Option.bind_eq_bind, Option.bind_some, EventKind.ofTag?_name, kind, members,
      hrecord, hflags]
    cases header with
    | standard body =>
      have hbody := Body.ofRecord?_of_lookup (Header.lookup_body flags body (toDocuments events))
      simp only [Header.kind, hbody, hevents, Option.bind_some]
      rfl
    | group info =>
      have hinfo := GroupInfo.ofRecord?_of_lookup
        (Header.lookup_info flags info (toDocuments events))
      simp only [Header.kind, hinfo, hevents, Option.bind_some]
      rfl
    | function signature body =>
      have hsignature := Signature.ofRecord?_of_lookup
        (Header.lookup_signature flags signature body (toDocuments events))
      have hbody := Body.ofRecord?_of_lookup
        (Header.lookup_functionBody flags signature body (toDocuments events))
      simp only [Header.kind, hsignature, hbody, hevents, Option.bind_some]
      rfl

theorem mapM_toDocuments : ∀ (events : List Event) {depth : Nat},
    Document.depthOfItems (toDocuments events) ≤ depth →
    (toDocuments events).mapM (read? depth true) = some events
  | [], _, _ => rfl
  | event :: events, depth, hdepth => by
    rw [toDocuments, Document.depthOfItems] at hdepth
    rw [toDocuments, List.mapM_cons, read?_toDocument event true (by omega),
      mapM_toDocuments events (by omega)]
    rfl

end

theorem toDocuments_eq_map (events : List Event) :
    toDocuments events = events.map toDocument := by
  induction events with
  | nil => rfl
  | cons event events ih => rw [toDocuments, List.map_cons, ih]

end Event

/-! ## Readable documents -/

@[simp] theorem Json.Document.readable_string (s : String) : (string s).readable = true := rfl

@[simp] theorem Json.Document.readable_ofNat (n : Nat) : (ofNat n).readable = true := by
  rw [ofNat]
  rfl

@[simp] theorem Json.Document.readableItems_map_string (texts : List String) :
    readableItems (texts.map string) = true :=
  readableItems_map fun _ _ => rfl

@[simp] theorem Instruction.readable_toDocument (instruction : Instruction) :
    instruction.toDocument.readable = true := by
  simp [toDocument_eq, toMembers, Document.readableMembers, Document.readable]

@[simp] theorem Color.readable_toDocument (color : Color) : color.toDocument.readable = true :=
  Document.readable_of_canonical? color.canonical?_toDocument

@[simp] theorem Flags.readable_toMembers (flags : Flags) :
    Document.readableMembers flags.toMembers = true := by
  simp [toMembers, Document.readable]

@[simp] theorem Body.readable_toMembers (body : Body) :
    Document.readableMembers body.toMembers = true := by
  have hinstructions : ∀ instructions : List Instruction,
      Document.readableItems (instructions.map Instruction.toDocument) = true :=
    fun instructions => Document.readableItems_map fun instruction _ =>
      instruction.readable_toDocument
  simp [toMembers, Document.readableMembers, Document.readable, hinstructions]

@[simp] theorem GroupInfo.readable_toMembers (info : GroupInfo) :
    Document.readableMembers info.toMembers = true := by
  simp [toMembers, Document.readableMembers, Document.readable]

@[simp] theorem Note.readable_toMembers (note : Note) :
    Document.readableMembers note.toMembers = true := by
  simp [toMembers, Document.readableMembers]

@[simp] theorem Header.readable_toMembers (header : Header) :
    Document.readableMembers header.toMembers = true := by
  cases header <;> simp [toMembers, Signature.toMembers, Document.readableMembers]

namespace Event

mutual

/-- Nothing in the document of an event is unreadable. -/
theorem readable_toDocument : ∀ event : Event, event.toDocument.readable = true
  | .branch flags header events => by
    have hevents := readableItems_toDocuments events
    simp [toDocument_eq, Document.readable, Document.readableMembers, members,
      Header.branchMembers, hevents]
  | .comment flags note => by
    simp [toDocument_eq, Document.readable, Document.readableMembers, members]

theorem readableItems_toDocuments : ∀ events : List Event,
    Document.readableItems (toDocuments events) = true
  | [] => rfl
  | event :: events => by
    rw [toDocuments, Document.readableItems, readable_toDocument event,
      readableItems_toDocuments events]
    rfl

end

theorem ofDocument?_toDocument (event : Event) : ofDocument? event.toDocument = some event := by
  rw [ofDocument?, if_pos event.readable_toDocument]
  exact read?_toDocument event false (Nat.le_refl _)

end Event

namespace EventTree

/-- **A tree is read back from its document.** -/
theorem ofDocument?_toDocument (tree : EventTree) : ofDocument? (toDocument tree) = some tree := by
  rw [ofDocument?, toDocument, Event.toDocuments_eq_map]
  exact Document.list?_map_eq_some fun event _ => event.ofDocument?_toDocument

/-- A tree is read from readable documents only. -/
theorem readable_of_ofDocument? {document : Document} {tree : EventTree}
    (htree : ofDocument? document = some tree) : document.Readable := by
  cases document with
  | array documents =>
    apply Document.readable_of_list? htree
    intro document _ event hevent
    rw [Event.ofDocument?] at hevent
    split at hevent
    next hreadable => exact hreadable
    next => cases hevent
  | _ => cases htree

end EventTree

end SceneLogic
