import SceneLogic.Json.Document

/-!
# Reading records from documents

A record is written as an object of its fields, or as an array of their values in
the order in which the fields are declared; of an array the last values may be
left out.  A field that an object gives twice spoils the record.  Keys that are no
fields are skipped without being read.

A field is *required*, *optional* (it may be missing but not be wrong) or
*lenient*: whatever value it has that is not of its kind counts as missing.

## Main definitions

* `Record.read?` — the fields that a document gives.
* `Record.required`, `Record.optional`, `Record.lenient` — one field of a record.
* `Document.tagged?` — the tag of a variant and the document of its fields.
-/

namespace SceneLogic.Json

namespace Document

/-- The string that a document is, if it is one. -/
def string? : Document → Option String
  | .string s => some s
  | _ => none

/-- The truth value that a document is, if it is one. -/
def bool? : Document → Option Bool
  | .bool b => some b
  | _ => none

/-- The integer that a document is, if it is a natural number below a bound. -/
def natBelow? (bound : Nat) : Document → Option Nat
  | .number (.integer n _) => if 0 ≤ n ∧ n < bound then some n.toNat else none
  | _ => none

/-- The items of an array, each read in the same way. -/
def list? (item? : Document → Option α) : Document → Option (List α)
  | .array items => items.mapM item?
  | _ => none

/-- A member whose document denotes a value. -/
def valued? (member : String × Document) : Option (String × Value) :=
  (Value.ofDocument? member.2).map fun value => (member.1, value)

/-- The values of an object by key; of values with one key the last counts. -/
def valueMap? : Document → Option (NameMap Value)
  | .object members => (members.mapM valued?).map NameMap.ofList
  | _ => none

/-- The object of named values. -/
def ofValueMap (values : NameMap Value) : Document :=
  .object (values.entries.map fun entry => (entry.1, entry.2.document))

/-- A member that is left out in some cases. -/
def member (written : Bool) (key : String) (item : Document) : List (String × Document) :=
  if written then [(key, item)] else []

/-- The tag of a variant and the document of the variant's own fields.  In an
object the tag is a member of its own, in an array it is the first item. -/
def tagged? (tag : String) : Document → Option (Document × Document)
  | .object members =>
    match members.filter (·.1 = tag) with
    | [(_, kind)] => some (kind, .object (members.filter (·.1 ≠ tag)))
    | _ => none
  | .array (kind :: items) => some (kind, .array items)
  | _ => none

end Document

/-- The fields that a document gives, by name. -/
abbrev Record := List (String × Document)

namespace Record

/-- The record that a document gives, for the names of its fields in order. -/
def read? (fields : List String) : Document → Option Record
  | .object members =>
    let known := members.filter (·.1 ∈ fields)
    if (known.map (·.1)).Nodup then some known else none
  | .array items => if items.length ≤ fields.length then some (fields.zip items) else none
  | _ => none

/-- A field that must be given. -/
def required (record : Record) (field : String) (read : Document → Option α) : Option α :=
  (record.lookup field).bind read

/-- A field that has a value of its own when it is not given. -/
def optional (record : Record) (field : String) (read : Document → Option α) (missing : α) :
    Option α :=
  match record.lookup field with
  | none => some missing
  | some document => read document

/-- A field that counts as missing when its value is not of its kind.  The value
must be readable all the same, and it is read in its canonical form. -/
def lenient (record : Record) (field : String) (read : Document → Option α) (missing : α) :
    Option α :=
  match record.lookup field with
  | none => some missing
  | some document => document.canonical?.map fun value => (read value).getD missing

end Record

end SceneLogic.Json
