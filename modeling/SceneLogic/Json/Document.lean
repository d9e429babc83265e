import SceneLogic.Json.Number
import SceneLogic.NameMap

/-!
# JSON documents

A document is the tree of a JSON text: members of an object stay in their order,
and a key may occur more than once.  What a repeated key means is left to the
reader of the document.

A fragment can follow the grammar and still denote nothing: a number beyond the
floats, a string with half a surrogate pair, brackets nested too deeply.  Such a
fragment is kept as `unreadable`.  It does no harm where the fragment is skipped,
and whoever reads it refuses the document.

A *value* is a document in canonical form: everything in it is readable and the
members of each object are in ascending order of their keys, each key once.

## Main definitions

* `Document` — the tree; `depth` is how far its brackets nest.
* `Document.Readable` — nothing in the tree is unreadable.
* `Document.Canonical`, `Document.canonical?` — the form of values, and the value
  a document denotes.
* `Value` — a document in canonical form.

## Main statements

* `Document.canonical_of_canonical?` — what `canonical?` yields is canonical.
-/

namespace SceneLogic.Json

/-- The tree of a JSON text. -/
inductive Document where
  | null
  | bool (b : Bool)
  | number (n : Number)
  | string (s : String)
  | array (items : List Document)
  | object (members : List (String × Document))
  | unreadable

namespace Document

instance : Inhabited Document := ⟨null⟩

/-- A natural number as a document; the floats serve beyond 64 bits. -/
def ofNat (n : Nat) : Document := .number ((Number.integer? n).getD (.float (.ofInt n)))

mutual

/-- Equality of documents is decided branch by branch. -/
protected def decEq : (a b : Document) → Decidable (a = b)
  | .null, .null | .unreadable, .unreadable => isTrue rfl
  | .bool a, .bool b | .number a, .number b | .string a, .string b =>
    if h : a = b then isTrue (h ▸ rfl) else isFalse fun eq => h (by injection eq)
  | .array a, .array b =>
    match Document.decEqItems a b with
    | isTrue h => isTrue (h ▸ rfl)
    | isFalse h => isFalse fun eq => h (by injection eq)
  | .object a, .object b =>
    match Document.decEqMembers a b with
    | isTrue h => isTrue (h ▸ rfl)
    | isFalse h => isFalse fun eq => h (by injection eq)
  | .null, .bool _ | .null, .number _ | .null, .string _ | .null, .array _ | .null, .object _
  | .null, .unreadable
  | .bool _, .null | .bool _, .number _ | .bool _, .string _ | .bool _, .array _
  | .bool _, .object _ | .bool _, .unreadable
  | .number _, .null | .number _, .bool _ | .number _, .string _ | .number _, .array _
  | .number _, .object _ | .number _, .unreadable
  | .string _, .null | .string _, .bool _ | .string _, .number _ | .string _, .array _
  | .string _, .object _ | .string _, .unreadable
  | .array _, .null | .array _, .bool _ | .array _, .number _ | .array _, .string _
  | .array _, .object _ | .array _, .unreadable
  | .object _, .null | .object _, .bool _ | .object _, .number _ | .object _, .string _
  | .object _, .array _ | .object _, .unreadable
  | .unreadable, .null | .unreadable, .bool _ | .unreadable, .number _ | .unreadable, .string _
  | .unreadable, .array _ | .unreadable, .object _ => isFalse nofun

/-- Equality of lists of documents. -/
protected def decEqItems : (a b : List Document) → Decidable (a = b)
  | [], [] => isTrue rfl
  | [], _ :: _ | _ :: _, [] => isFalse nofun
  | a :: as, b :: bs =>
    match Document.decEq a b, Document.decEqItems as bs with
    | isTrue h, isTrue t => isTrue (h ▸ t ▸ rfl)
    | isFalse h, _ => isFalse fun eq => h (by injection eq)
    | _, isFalse t => isFalse fun eq => t (by injection eq)

/-- Equality of lists of members. -/
protected def decEqMembers : (a b : List (String × Document)) → Decidable (a = b)
  | [], [] => isTrue rfl
  | [], _ :: _ | _ :: _, [] => isFalse nofun
  | (k, a) :: as, (l, b) :: bs =>
    match decEq k l, Document.decEq a b, Document.decEqMembers as bs with
    | isTrue k, isTrue h, isTrue t => isTrue (k ▸ h ▸ t ▸ rfl)
    | isFalse k, _, _ => isFalse fun eq => k (by injection eq with eq; injection eq)
    | _, isFalse h, _ => isFalse fun eq => h (by injection eq with eq; injection eq)
    | _, _, isFalse t => isFalse fun eq => t (by injection eq)

end

instance : DecidableEq Document := Document.decEq

mutual

/-- How far the brackets of a document nest. -/
def depth : Document → Nat
  | .array items => depthOfItems items + 1
  | .object members => depthOfMembers members + 1
  | _ => 0

/-- The greatest depth in a list. -/
def depthOfItems : List Document → Nat
  | [] => 0
  | item :: items => max item.depth (depthOfItems items)

/-- The greatest depth in a list of members. -/
def depthOfMembers : List (String × Document) → Nat
  | [] => 0
  | (_, item) :: members => max item.depth (depthOfMembers members)

end

mutual

/-- Whether every fragment of a document denotes something. -/
def readable : Document → Bool
  | .array items => readableItems items
  | .object members => readableMembers members
  | .unreadable => false
  | _ => true

/-- Whether every document of a list is readable. -/
def readableItems : List Document → Bool
  | [] => true
  | item :: items => item.readable && readableItems items

/-- Whether every member of a list is readable. -/
def readableMembers : List (String × Document) → Bool
  | [] => true
  | (_, item) :: members => item.readable && readableMembers members

end

/-- Nothing in the document is unreadable. -/
def Readable (document : Document) : Prop := document.readable = true

instance : DecidablePred Readable := fun _ => inferInstanceAs (Decidable (_ = true))

mutual

/-- The form of values: readable, with the members of each object in order. -/
def Canonical : Document → Prop
  | .array items => CanonicalItems items
  | .object members => NameMap.Ascending members ∧ CanonicalMembers members
  | .unreadable => False
  | _ => True

/-- Every document of a list is canonical. -/
def CanonicalItems : List Document → Prop
  | [] => True
  | item :: items => item.Canonical ∧ CanonicalItems items

/-- Every member of a list is canonical. -/
def CanonicalMembers : List (String × Document) → Prop
  | [] => True
  | (_, item) :: members => item.Canonical ∧ CanonicalMembers members

end

mutual

/-- The canonical form of a document; of members with one key the last counts.
None if anything in it is unreadable. -/
def canonical? : Document → Option Document
  | .array items => (canonicalItems? items).map .array
  | .object members => (canonicalMembers? [] members).map .object
  | .unreadable => none
  | document => some document

/-- The canonical forms of a list of documents. -/
def canonicalItems? : List Document → Option (List Document)
  | [] => some []
  | item :: items => do
    let item ← item.canonical?
    let items ← canonicalItems? items
    return item :: items

/-- Members in canonical form, put in order among those already in order. -/
def canonicalMembers? (sorted : List (String × Document)) :
    List (String × Document) → Option (List (String × Document))
  | [] => some sorted
  | (key, item) :: members => do
    let item ← item.canonical?
    canonicalMembers? (NameMap.insertEntry key item sorted) members

end

theorem canonicalMembers_insertEntry {key : String} {item : Document}
    {sorted : List (String × Document)} (hitem : item.Canonical)
    (hsorted : CanonicalMembers sorted) :
    CanonicalMembers (NameMap.insertEntry key item sorted) := by
  induction sorted with
  | nil => exact ⟨hitem, trivial⟩
  | cons head rest ih =>
    obtain ⟨name, kept⟩ := head
    unfold NameMap.insertEntry
    split
    · exact ⟨hitem, hsorted⟩
    · split
      · exact ⟨hitem, hsorted.2⟩
      · exact ⟨hsorted.1, ih hsorted.2⟩

mutual

/-- What a document denotes is in canonical form. -/
theorem canonical_of_canonical? : ∀ {document value : Document},
    document.canonical? = some value → value.Canonical
  | .null, _, h | .bool _, _, h | .number _, _, h | .string _, _, h => by
    simp only [canonical?, Option.some.injEq] at h
    subst h
    trivial
  | .array items, value, h => by
    simp only [canonical?, Option.map_eq_some_iff] at h
    obtain ⟨items, h, rfl⟩ := h
    exact canonicalItems_of_canonicalItems? h
  | .object members, value, h => by
    simp only [canonical?, Option.map_eq_some_iff] at h
    obtain ⟨members, h, rfl⟩ := h
    exact canonicalMembers_of_canonicalMembers? .nil trivial h
  | .unreadable, _, h => by simp [canonical?] at h

theorem canonicalItems_of_canonicalItems? : ∀ {items values : List Document},
    canonicalItems? items = some values → CanonicalItems values
  | [], _, h => by
    simp only [canonicalItems?, Option.some.injEq] at h
    subst h
    trivial
  | item :: items, values, h => by
    simp only [canonicalItems?, bind, Option.bind_eq_some_iff, pure, Option.some.injEq] at h
    obtain ⟨value, hvalue, rest, hrest, rfl⟩ := h
    exact ⟨canonical_of_canonical? hvalue, canonicalItems_of_canonicalItems? hrest⟩

theorem canonicalMembers_of_canonicalMembers? :
    ∀ {sorted members values : List (String × Document)},
    NameMap.Ascending sorted → CanonicalMembers sorted →
    canonicalMembers? sorted members = some values →
    NameMap.Ascending values ∧ CanonicalMembers values
  | sorted, [], _, ascending, canonical, h => by
    simp only [canonicalMembers?, Option.some.injEq] at h
    subst h
    exact ⟨ascending, canonical⟩
  | sorted, (key, item) :: members, values, ascending, canonical, h => by
    simp only [canonicalMembers?, bind, Option.bind_eq_some_iff] at h
    obtain ⟨value, hvalue, h⟩ := h
    exact canonicalMembers_of_canonicalMembers?
      (NameMap.ascending_insertEntry key value ascending)
      (canonicalMembers_insertEntry (canonical_of_canonical? hvalue) canonical) h

end

mutual

/-- Equality of what two documents in canonical form denote.  It differs from
equality of trees in the floats only, whose two zeros are one value. -/
def agrees : Document → Document → Bool
  | .null, .null => true
  | .bool a, .bool b => a = b
  | .number a, .number b => a.agrees b
  | .string a, .string b => a = b
  | .array a, .array b => agreesItems a b
  | .object a, .object b => agreesMembers a b
  | _, _ => false

/-- Equality of what lists of documents denote. -/
def agreesItems : List Document → List Document → Bool
  | [], [] => true
  | a :: as, b :: bs => a.agrees b && agreesItems as bs
  | _, _ => false

/-- Equality of what lists of members denote. -/
def agreesMembers : List (String × Document) → List (String × Document) → Bool
  | [], [] => true
  | (key, a) :: as, (name, b) :: bs => key = name && a.agrees b && agreesMembers as bs
  | _, _ => false

end

end Document

/-- A JSON value: a document in canonical form. -/
structure Value where
  document : Document
  canonical : document.Canonical
deriving DecidableEq

namespace Value

/-- The value that a document denotes; none if anything in it is unreadable. -/
def ofDocument? (document : Document) : Option Value :=
  match h : document.canonical? with
  | some value => some ⟨value, Document.canonical_of_canonical? h⟩
  | none => none

/-- The value without content. -/
def null : Value := ⟨.null, trivial⟩

/-- A string as a value. -/
def string (s : String) : Value := ⟨.string s, trivial⟩

/-- A natural number as a value. -/
def ofNat (n : Nat) : Value := ⟨.ofNat n, trivial⟩

instance : Inhabited Value := ⟨null⟩

/-- Equality of values, with one zero among the floats. -/
def agrees (a b : Value) : Bool := a.document.agrees b.document

end Value

end SceneLogic.Json
