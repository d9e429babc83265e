import SceneLogic.Proofs.Json.NumberText
import SceneLogic.Proofs.Json.StringText

/-!
# Written documents are read back

A readable document is read back from its text, compact or indented, up to the nesting
limit: a container beyond the limit is read as unreadable, and nothing else is lost.

## Main definitions

* `Document.clip` — what is left of a document inside open brackets.

## Main statements

* `Document.read_write` — a document is read from the front of a text.
* `Document.parse?_pretty`, `Document.parse?_compact` — the two texts are read back.
* `Document.clip_eq_self`, `Document.depth_of_readable_clip` — nothing is lost just up to the
  limit.
-/

namespace SceneLogic.Json

namespace Document

/-! ## The nesting limit -/

mutual

/-- What is left of a document that is read inside `level` open brackets. -/
def clip (level : Nat) : Document → Document
  | .array items =>
    if level < nestingLimit then .array (clipItems (level + 1) items) else .unreadable
  | .object members =>
    if level < nestingLimit then .object (clipMembers (level + 1) members) else .unreadable
  | document => document

/-- What is left of each document of a list. -/
def clipItems (level : Nat) : List Document → List Document
  | [] => []
  | item :: items => item.clip level :: clipItems level items

/-- What is left of each member of a list. -/
def clipMembers (level : Nat) : List (String × Document) → List (String × Document)
  | [] => []
  | (key, item) :: members => (key, item.clip level) :: clipMembers level members

end

mutual

theorem clip_eq_self : ∀ {document : Document} {level : Nat},
    level + document.depth ≤ nestingLimit → document.clip level = document
  | .array items, level, h => by
    rw [depth] at h
    rw [clip, if_pos (by omega), clipItems_eq_self (by omega)]
  | .object members, level, h => by
    rw [depth] at h
    rw [clip, if_pos (by omega), clipMembers_eq_self (by omega)]
  | .null, _, _ | .bool _, _, _ | .number _, _, _ | .string _, _, _ | .unreadable, _, _ => rfl

theorem clipItems_eq_self : ∀ {items : List Document} {level : Nat},
    level + depthOfItems items ≤ nestingLimit → clipItems level items = items
  | [], _, _ => rfl
  | item :: items, level, h => by
    rw [depthOfItems] at h
    rw [clipItems, clip_eq_self (by omega), clipItems_eq_self (by omega)]

theorem clipMembers_eq_self : ∀ {members : List (String × Document)} {level : Nat},
    level + depthOfMembers members ≤ nestingLimit → clipMembers level members = members
  | [], _, _ => rfl
  | (key, item) :: members, level, h => by
    rw [depthOfMembers] at h
    rw [clipMembers, clip_eq_self (by omega), clipMembers_eq_self (by omega)]

end

mutual

/-- What is readable after clipping nests no deeper than the limit. -/
theorem depth_of_readable_clip : ∀ {document : Document} {level : Nat},
    level ≤ nestingLimit → (document.clip level).Readable → level + document.depth ≤ nestingLimit
  | .array items, level, hlevel, h => by
    rw [clip] at h
    split at h
    next hlt =>
      have hitems := depth_of_readableItems_clip (by omega) h
      rw [depth]
      omega
    next => cases h
  | .object members, level, hlevel, h => by
    rw [clip] at h
    split at h
    next hlt =>
      have hmembers := depth_of_readableMembers_clip (by omega) h
      rw [depth]
      omega
    next => cases h
  | .null, _, hlevel, _ | .bool _, _, hlevel, _ | .number _, _, hlevel, _
  | .string _, _, hlevel, _ | .unreadable, _, hlevel, _ => hlevel

theorem depth_of_readableItems_clip : ∀ {items : List Document} {level : Nat},
    level ≤ nestingLimit → readableItems (clipItems level items) = true →
    level + depthOfItems items ≤ nestingLimit
  | [], _, hlevel, _ => hlevel
  | item :: items, level, hlevel, h => by
    rw [clipItems, readableItems, Bool.and_eq_true] at h
    have hitem := depth_of_readable_clip hlevel h.1
    have hitems := depth_of_readableItems_clip hlevel h.2
    rw [depthOfItems]
    omega

theorem depth_of_readableMembers_clip : ∀ {members : List (String × Document)} {level : Nat},
    level ≤ nestingLimit → readableMembers (clipMembers level members) = true →
    level + depthOfMembers members ≤ nestingLimit
  | [], _, hlevel, _ => hlevel
  | (key, item) :: members, level, hlevel, h => by
    rw [clipMembers, readableMembers, Bool.and_eq_true] at h
    have hitem := depth_of_readable_clip hlevel h.1
    have hmembers := depth_of_readableMembers_clip hlevel h.2
    rw [depthOfMembers]
    omega

end

theorem clipItems_eq_map (level : Nat) (items : List Document) :
    clipItems level items = items.map (clip level) := by
  induction items with
  | nil => rfl
  | cons item items ih => rw [clipItems, List.map_cons, ih]

theorem keys_clipMembers (level : Nat) (members : List (String × Document)) :
    (clipMembers level members).map (·.1) = members.map (·.1) := by
  induction members with
  | nil => rfl
  | cons member members ih => rw [clipMembers, List.map_cons, List.map_cons, ih]

theorem lookup_clipMembers (level : Nat) (members : List (String × Document)) (field : String) :
    (clipMembers level members).lookup field = (members.lookup field).map (clip level) := by
  induction members with
  | nil => rfl
  | cons member members ih =>
    rw [clipMembers, lookup_entry, lookup_entry, ih]
    split <;> rfl

end Document

/-! ## Blanks -/

theorem skipBlanks_append {blanks : List Char} (hblanks : ∀ c ∈ blanks, isBlank c = true)
    (text : List Char) : skipBlanks (blanks ++ text) = skipBlanks text :=
  List.dropWhile_append_of_pos hblanks

theorem skipBlanks_cons {c : Char} (hc : isBlank c = false) (text : List Char) :
    skipBlanks (c :: text) = c :: text := by
  simp [skipBlanks, hc]

theorem skipBlanks_skipBlanks (text : List Char) : skipBlanks (skipBlanks text) = skipBlanks text := by
  induction text with
  | nil => rfl
  | cons c text ih => by_cases hc : isBlank c = true <;> simp_all [skipBlanks]

@[simp] theorem skipBlanks_lineBreak (spacing : Spacing) (level : Nat) (text : List Char) :
    skipBlanks (spacing.lineBreak level ++ text) = skipBlanks text := by
  apply skipBlanks_append
  cases spacing with
  | compact => simp [Spacing.lineBreak]
  | indented =>
    intro c hc
    rcases List.mem_cons.1 hc with rfl | hc
    · rfl
    · rw [List.eq_of_mem_replicate hc]
      rfl

/-! ## What stands behind an item -/

theorem delimited_nil : Delimited [] := by
  rintro _ ⟨⟩

theorem delimited_cons {c : Char} (hc : c ∈ [',', ']', '}', '\n']) (text : List Char) :
    Delimited (c :: text) := by
  rintro _ ⟨rfl⟩
  simp only [List.mem_cons, List.not_mem_nil, or_false] at hc
  rcases hc with rfl | rfl | rfl | rfl <;> decide

theorem delimited_lineBreak (spacing : Spacing) (level : Nat) {c : Char}
    (hc : c ∈ [',', ']', '}', '\n']) (text : List Char) :
    Delimited (spacing.lineBreak level ++ c :: text) := by
  cases spacing with
  | compact => exact delimited_cons hc text
  | indented => exact delimited_cons (by decide) _

/-! ## Tokens -/

/-- A number starts with a digit or a minus sign. -/
theorem Number.exists_text_eq_cons (n : Number) :
    ∃ c text, n.text = c :: text ∧ ∀ other : Char, other ≠ '-' → other.isDigit = false → c ≠ other := by
  have hwhole := n.wellFormed_numeral.whole
  obtain ⟨c, digits, hc⟩ := List.exists_cons_of_ne_nil hwhole.ne_nil
  have hdigit := hwhole.isDigit c (by simp [hc])
  rw [← n.text_numeral, Numeral.text]
  split
  · exact ⟨'-', _, rfl, fun other hminus _ => Ne.symm hminus⟩
  · rw [Numeral.unsignedText, hc]
    refine ⟨c, _, rfl, ?_⟩
    rintro _ - hother rfl
    rw [hdigit] at hother
    cases hother

theorem isBlank_eq_false {c : Char}
    (hc : ∀ other : Char, other ≠ '-' → other.isDigit = false → c ≠ other) : isBlank c = false := by
  simp [isBlank, hc ' ' (by decide) (by decide), hc '\n' (by decide) (by decide),
    hc '\t' (by decide) (by decide), hc '\r' (by decide) (by decide)]

namespace Document

theorem read_skipBlanks (calls level : Nat) (text : List Char) :
    read calls level (skipBlanks text) = read calls level text := by
  cases calls with
  | zero => rw [read, read]
  | succ calls => rw [read, read, skipBlanks_skipBlanks]

theorem read_number (calls level : Nat) (n : Number) {rest : List Char} (hrest : Delimited rest) :
    read (calls + 1) level (n.text ++ rest) = some (.number n, rest) := by
  obtain ⟨c, text, htext, hc⟩ := n.exists_text_eq_cons
  have hskip : skipBlanks (n.text ++ rest) = n.text ++ rest := by
    rw [htext]
    exact skipBlanks_cons (isBlank_eq_false hc) _
  rw [read, hskip]
  split
  case h_7 => simp [n.scanNumeral_text hrest, ofNumeral, n.number?_numeral]
  -- No other token starts like a number.
  all_goals
    rename_i heq
    rw [htext] at heq
    injection heq with heq
    exact absurd heq (hc _ (by decide) (by decide))

theorem stringText_append (s : String) (rest : List Char) :
    stringText s ++ rest = '"' :: (s.toList.flatMap escapeChar ++ '"' :: rest) := by
  simp [stringText]

theorem read_string (calls level : Nat) (s : String) (rest : List Char) :
    read (calls + 1) level (stringText s ++ rest) = some (.string s, rest) := by
  rw [read, stringText_append, skipBlanks_cons (by decide)]
  simp [scanString_flatMap, ofPieces, pieceString?_map]

/-- No document is written with a blank or a closing bracket in front. -/
theorem exists_write_eq_cons (spacing : Spacing) (indent : Nat) (document : Document) :
    ∃ c text, document.write spacing indent = c :: text ∧ isBlank c = false ∧ c ≠ ']' := by
  cases document with
  | null | unreadable => exact ⟨'n', _, by rw [write], by decide⟩
  | bool b =>
    cases b with
    | true => exact ⟨'t', _, by rw [write], by decide⟩
    | false => exact ⟨'f', _, by rw [write], by decide⟩
  | number n =>
    obtain ⟨c, text, htext, hc⟩ := n.exists_text_eq_cons
    exact ⟨c, text, by rw [write, htext], isBlank_eq_false hc, hc _ (by decide) (by decide)⟩
  | string s => exact ⟨'"', _, by rw [write, stringText]; rfl, by decide⟩
  | array items =>
    cases items with
    | nil => exact ⟨'[', _, by rw [write], by decide⟩
    | cons item items => exact ⟨'[', _, by rw [write]; rfl, by decide⟩
  | object members =>
    cases members with
    | nil => exact ⟨'{', _, by rw [write], by decide⟩
    | cons member members => exact ⟨'{', _, by rw [write]; rfl, by decide⟩

theorem skipBlanks_write (spacing : Spacing) (indent : Nat) (document : Document)
    (rest : List Char) :
    skipBlanks (document.write spacing indent ++ rest) = document.write spacing indent ++ rest := by
  obtain ⟨c, text, htext, hblank, -⟩ := exists_write_eq_cons spacing indent document
  rw [htext]
  exact skipBlanks_cons hblank _

/-! ## Items and members -/

theorem read_lineBreak (calls level : Nat) (spacing : Spacing) (indent : Nat) (text : List Char) :
    read calls level (spacing.lineBreak indent ++ text) = read calls level text := by
  rw [← read_skipBlanks, skipBlanks_lineBreak, read_skipBlanks]

theorem readMember_lineBreak (calls level : Nat) (spacing : Spacing) (indent : Nat)
    (text : List Char) :
    readMember calls level (spacing.lineBreak indent ++ text) = readMember calls level text := by
  cases calls with
  | zero => rw [readMember, readMember]
  | succ calls => rw [readMember, readMember, skipBlanks_lineBreak]

section

variable {spacing : Spacing} {calls level indent : Nat} {item result : Document}
  {results : List Document} {key : String} {members : List (Option String × Document)}
  {tail rest : List Char}

theorem readItems_cons
    (hitem : read calls level (item.write spacing indent ++ tail) = some (result, tail))
    (hmore : readMoreItems calls level tail = some (results, rest)) :
    readItems (calls + 1) level
        (spacing.lineBreak indent ++ (item.write spacing indent ++ tail)) =
      some (result :: results, rest) := by
  obtain ⟨c, text, htext, -, hc⟩ := exists_write_eq_cons spacing indent item
  rw [readItems, skipBlanks_lineBreak, skipBlanks_write]
  split
  next heq =>
    rw [htext] at heq
    injection heq with heq
    exact absurd heq hc
  next => simp [hitem, hmore]

theorem readMoreItems_cons
    (hitem : read calls level (item.write spacing indent ++ tail) = some (result, tail))
    (hmore : readMoreItems calls level tail = some (results, rest)) :
    readMoreItems (calls + 1) level
        (',' :: (spacing.lineBreak indent ++ (item.write spacing indent ++ tail))) =
      some (result :: results, rest) := by
  rw [readMoreItems, skipBlanks_cons (by decide)]
  simp [read_lineBreak, hitem, hmore]

theorem readMember_of_read
    (hitem : read calls level (item.write spacing indent ++ tail) = some (result, tail)) :
    readMember (calls + 1) level
        (stringText key ++ (spacing.colon ++ (item.write spacing indent ++ tail))) =
      some ((some key, result), tail) := by
  obtain ⟨blanks, hcolon, hblanks⟩ : ∃ blanks, spacing.colon = ':' :: blanks ∧
      ∀ c ∈ blanks, isBlank c = true := by
    cases spacing with
    | compact => exact ⟨[], rfl, by simp⟩
    | indented => exact ⟨[' '], rfl, by simp [isBlank]⟩
  have hvalue : read calls level (blanks ++ (item.write spacing indent ++ tail)) =
      some (result, tail) := by
    rw [← read_skipBlanks, skipBlanks_append hblanks, read_skipBlanks, hitem]
  rw [readMember, stringText_append, skipBlanks_cons (by decide)]
  simp only [scanString_flatMap, hcolon, List.cons_append, skipBlanks_cons (c := ':') (by decide),
    bind, Option.bind_some, pieceString?_map, hvalue, pure]

theorem readMembers_cons {text : List Char}
    (hmember : readMember calls level (stringText key ++ text) = some ((some key, result), tail))
    (hmore : readMoreMembers calls level tail = some (members, rest)) :
    readMembers (calls + 1) level (spacing.lineBreak indent ++ (stringText key ++ text)) =
      some ((some key, result) :: members, rest) := by
  rw [readMembers, skipBlanks_lineBreak]
  rw [stringText_append] at hmember ⊢
  rw [skipBlanks_cons (by decide)]
  simp [hmember, hmore]

theorem readMoreMembers_cons {text : List Char}
    (hmember : readMember calls level text = some ((some key, result), tail))
    (hmore : readMoreMembers calls level tail = some (members, rest)) :
    readMoreMembers (calls + 1) level (',' :: (spacing.lineBreak indent ++ text)) =
      some ((some key, result) :: members, rest) := by
  rw [readMoreMembers, skipBlanks_cons (by decide)]
  simp [readMember_lineBreak, hmember, hmore]

/-- What stands behind an item of a list. -/
theorem delimited_writeItems (items : List Document) (close : Nat) (rest : List Char) :
    Delimited (writeItems spacing indent items ++ (spacing.lineBreak close ++ ']' :: rest)) := by
  cases items with
  | nil =>
    rw [writeItems]
    exact delimited_lineBreak spacing close (by decide) rest
  | cons item items =>
    rw [writeItems]
    exact delimited_cons (by decide) _

/-- What stands behind a member of an object. -/
theorem delimited_writeMembers (members : List (String × Document)) (close : Nat)
    (rest : List Char) :
    Delimited (writeMembers spacing indent members ++ (spacing.lineBreak close ++ '}' :: rest)) := by
  cases members with
  | nil =>
    rw [writeMembers]
    exact delimited_lineBreak spacing close (by decide) rest
  | cons member members =>
    rw [writeMembers]
    exact delimited_cons (by decide) _

end

/-! ## Documents -/

/-- The members of an object as they are read, their keys as strings that may fail. -/
def readKeys (members : List (String × Document)) : List (Option String × Document) :=
  members.map fun member => (some member.1, member.2)

theorem mapM_keyed?_readKeys (members : List (String × Document)) :
    (readKeys members).mapM keyed? = some members := by
  induction members with
  | nil => rfl
  | cons member members ih =>
    rw [readKeys] at ih
    simp [readKeys, keyed?, ih]

theorem clip_array (level : Nat) (items : List Document) :
    (Document.array items).clip level = ofItems (level + 1) (clipItems (level + 1) items) := by
  rw [clip, ofItems]
  rfl

theorem clip_object (level : Nat) (members : List (String × Document)) :
    (Document.object members).clip level =
      ofMembers (level + 1) (readKeys (clipMembers (level + 1) members)) := by
  rw [clip, ofMembers, mapM_keyed?_readKeys]
  rfl

theorem read_array {calls level : Nat} {text rest : List Char} {items : List Document}
    (hitems : readItems calls (level + 1) text = some (items, rest)) :
    read (calls + 1) level ('[' :: text) = some (ofItems (level + 1) items, rest) := by
  rw [read, skipBlanks_cons (by decide)]
  simp [hitems]

theorem read_object {calls level : Nat} {text rest : List Char}
    {members : List (Option String × Document)}
    (hmembers : readMembers calls (level + 1) text = some (members, rest)) :
    read (calls + 1) level ('{' :: text) = some (ofMembers (level + 1) members, rest) := by
  rw [read, skipBlanks_cons (by decide)]
  simp [hmembers]

mutual

/-- **A document is read from the front of a text**, up to the nesting limit. -/
theorem read_write (spacing : Spacing) : ∀ {document : Document} {calls level indent : Nat}
    {rest : List Char}, document.Readable → Delimited rest →
    3 * (document.write spacing indent).length ≤ calls →
    read calls level (document.write spacing indent ++ rest) = some (document.clip level, rest)
  | .null, calls, level, indent, rest, _, _, hcalls => by
    rw [write] at hcalls ⊢
    obtain ⟨calls, rfl⟩ : ∃ n, calls = n + 1 := ⟨calls - 1, by simp at hcalls; omega⟩
    rw [read, List.cons_append, skipBlanks_cons (by decide)]
    rfl
  | .bool true, calls, level, indent, rest, _, _, hcalls => by
    rw [write] at hcalls ⊢
    obtain ⟨calls, rfl⟩ : ∃ n, calls = n + 1 := ⟨calls - 1, by simp at hcalls; omega⟩
    rw [read, List.cons_append, skipBlanks_cons (by decide)]
    rfl
  | .bool false, calls, level, indent, rest, _, _, hcalls => by
    rw [write] at hcalls ⊢
    obtain ⟨calls, rfl⟩ : ∃ n, calls = n + 1 := ⟨calls - 1, by simp at hcalls; omega⟩
    rw [read, List.cons_append, skipBlanks_cons (by decide)]
    rfl
  | .number n, calls, level, indent, rest, _, hrest, hcalls => by
    rw [write] at hcalls ⊢
    obtain ⟨c, text, htext, -⟩ := n.exists_text_eq_cons
    obtain ⟨calls, rfl⟩ : ∃ n, calls = n + 1 := ⟨calls - 1, by simp [htext] at hcalls; omega⟩
    exact read_number calls level n hrest
  | .string s, calls, level, indent, rest, _, _, hcalls => by
    rw [write] at hcalls ⊢
    obtain ⟨calls, rfl⟩ : ∃ n, calls = n + 1 := ⟨calls - 1, by simp [stringText] at hcalls; omega⟩
    exact read_string calls level s rest
  | .array [], calls, level, indent, rest, _, _, hcalls => by
    rw [write] at hcalls ⊢
    obtain ⟨calls, rfl⟩ : ∃ n, calls = n + 2 := ⟨calls - 2, by simp at hcalls; omega⟩
    have hitems : readItems (calls + 1) (level + 1) (']' :: rest) = some ([], rest) := by
      rw [readItems, skipBlanks_cons (by decide)]
      rfl
    rw [clip_array, clipItems]
    exact read_array hitems
  | .array (item :: items), calls, level, indent, rest, hreadable, hrest, hcalls => by
    rw [Readable, readable, readableItems, Bool.and_eq_true] at hreadable
    have htext : (Document.array (item :: items)).write spacing indent ++ rest =
        '[' :: (spacing.lineBreak (indent + 1) ++ (item.write spacing (indent + 1) ++
          (writeItems spacing (indent + 1) items ++ (spacing.lineBreak indent ++ ']' :: rest)))) := by
      simp [write]
    rw [write] at hcalls
    simp only [List.length_append, List.length_cons, List.length_nil] at hcalls
    obtain ⟨calls, rfl⟩ : ∃ n, calls = n + 2 := ⟨calls - 2, by omega⟩
    rw [htext, clip_array, clipItems]
    apply read_array
    apply readItems_cons
    · exact read_write spacing hreadable.1 (delimited_writeItems items indent rest) (by omega)
    · exact readMoreItems_write spacing hreadable.2 (by omega)
  | .object [], calls, level, indent, rest, _, _, hcalls => by
    rw [write] at hcalls ⊢
    obtain ⟨calls, rfl⟩ : ∃ n, calls = n + 2 := ⟨calls - 2, by simp at hcalls; omega⟩
    have hmembers : readMembers (calls + 1) (level + 1) ('}' :: rest) = some ([], rest) := by
      rw [readMembers, skipBlanks_cons (by decide)]
      rfl
    rw [clip_object, clipMembers]
    exact read_object hmembers
  | .object ((key, item) :: members), calls, level, indent, rest, hreadable, hrest, hcalls => by
    rw [Readable, readable, readableMembers, Bool.and_eq_true] at hreadable
    have htext : (Document.object ((key, item) :: members)).write spacing indent ++ rest =
        '{' :: (spacing.lineBreak (indent + 1) ++ (stringText key ++ (spacing.colon ++
          (item.write spacing (indent + 1) ++ (writeMembers spacing (indent + 1) members ++
            (spacing.lineBreak indent ++ '}' :: rest)))))) := by
      simp [write]
    rw [write] at hcalls
    simp only [List.length_append, List.length_cons, List.length_nil] at hcalls
    obtain ⟨calls, rfl⟩ : ∃ n, calls = n + 3 := ⟨calls - 3, by omega⟩
    rw [htext, clip_object, clipMembers]
    apply read_object
    apply readMembers_cons
    · apply readMember_of_read
      exact read_write spacing hreadable.1 (delimited_writeMembers members indent rest) (by omega)
    · exact readMoreMembers_write spacing hreadable.2 (by omega)

theorem readMoreItems_write (spacing : Spacing) : ∀ {items : List Document}
    {calls level indent close : Nat} {rest : List Char}, readableItems items = true →
    3 * (writeItems spacing indent items).length + 1 ≤ calls →
    readMoreItems calls level
        (writeItems spacing indent items ++ (spacing.lineBreak close ++ ']' :: rest)) =
      some (clipItems level items, rest)
  | [], calls, level, indent, close, rest, _, hcalls => by
    obtain ⟨calls, rfl⟩ : ∃ n, calls = n + 1 := ⟨calls - 1, by omega⟩
    rw [writeItems, List.nil_append, readMoreItems, skipBlanks_lineBreak,
      skipBlanks_cons (by decide), clipItems]
    rfl
  | item :: items, calls, level, indent, close, rest, hreadable, hcalls => by
    rw [readableItems, Bool.and_eq_true] at hreadable
    rw [writeItems] at hcalls ⊢
    simp only [List.length_append, List.length_cons] at hcalls
    obtain ⟨calls, rfl⟩ : ∃ n, calls = n + 1 := ⟨calls - 1, by omega⟩
    simp only [List.cons_append, List.append_assoc]
    rw [clipItems]
    apply readMoreItems_cons
    · exact read_write spacing hreadable.1 (delimited_writeItems items close rest) (by omega)
    · exact readMoreItems_write spacing hreadable.2 (by omega)

theorem readMoreMembers_write (spacing : Spacing) : ∀ {members : List (String × Document)}
    {calls level indent close : Nat} {rest : List Char}, readableMembers members = true →
    3 * (writeMembers spacing indent members).length + 1 ≤ calls →
    readMoreMembers calls level
        (writeMembers spacing indent members ++ (spacing.lineBreak close ++ '}' :: rest)) =
      some (readKeys (clipMembers level members), rest)
  | [], calls, level, indent, close, rest, _, hcalls => by
    obtain ⟨calls, rfl⟩ : ∃ n, calls = n + 1 := ⟨calls - 1, by omega⟩
    rw [writeMembers, List.nil_append, readMoreMembers, skipBlanks_lineBreak,
      skipBlanks_cons (by decide), clipMembers]
    rfl
  | (key, item) :: members, calls, level, indent, close, rest, hreadable, hcalls => by
    rw [readableMembers, Bool.and_eq_true] at hreadable
    rw [writeMembers] at hcalls ⊢
    simp only [List.length_append, List.length_cons] at hcalls
    obtain ⟨calls, rfl⟩ : ∃ n, calls = n + 2 := ⟨calls - 2, by omega⟩
    simp only [List.cons_append, List.append_assoc]
    rw [clipMembers]
    apply readMoreMembers_cons
    · apply readMember_of_read
      exact read_write spacing hreadable.1 (delimited_writeMembers members close rest) (by omega)
    · exact readMoreMembers_write spacing hreadable.2 (by omega)

end

/-! ## Texts -/

/-- A text is read back up to the nesting limit. -/
theorem parse?_write (spacing : Spacing) {document : Document} (hreadable : document.Readable) :
    parse? (String.ofList (document.write spacing 0)) = some (document.clip 0) := by
  have hread : read (3 * (document.write spacing 0).length + 3) 0
      (document.write spacing 0 ++ []) = some (document.clip 0, []) :=
    read_write spacing hreadable delimited_nil (by omega)
  rw [List.append_nil] at hread
  rw [parse?, String.toList_ofList, parseChars?, hread]
  rfl

/-- **The indented text of a document is read back** up to the nesting limit. -/
theorem parse?_pretty {document : Document} (hreadable : document.Readable) :
    parse? document.pretty = some (document.clip 0) :=
  parse?_write .indented hreadable

/-- **The compact text of a document is read back** up to the nesting limit. -/
theorem parse?_compact {document : Document} (hreadable : document.Readable) :
    parse? document.compact = some (document.clip 0) :=
  parse?_write .compact hreadable

end Document

end SceneLogic.Json
