import SceneLogic.Project.Path

/-!
# Where paths lead

A path with a name below it leads to the place with that name, in the directory that the
path leads to.  What a path leads to depends only on the directories on its way; since an
update never takes a directory away, a path that leads somewhere goes on leading there.

## Main definitions

* `FileName.Proper` — the names that a directory can hold.
* `FileTree.WellFormed` — what lies in a tree lies in its directories, under proper names.
* `FileTree.LeadsTo` — the directory in which the names below a path lie.

## Main statements

* `Path.parts_join` — a path with a name below it, taken apart.
* `FileTree.LeadsTo.locate_join` — the place of a name below a path.
* `FileTree.find?_setNode` — what is found after an update.
-/

namespace SceneLogic

/-! ## Names -/

namespace FileName

/-- The byte between the names of a path. -/
def slash : UInt8 := 47

/-- The names that a directory can hold: none that leads elsewhere. -/
structure Proper (name : FileName) : Prop where
  slash_not_mem : slash ∉ name
  ne_nil : name ≠ []
  ne_dot : name ≠ ofString "."
  ne_dots : name ≠ ofString ".."

@[simp] theorem spelling?_ofString (text : String) : (ofString text).spelling? = some text := by
  simp [spelling?, ofString, String.fromUTF8?, text.isValidUTF8, String.fromUTF8]

theorem ofString_of_spelling? {name : FileName} {text : String}
    (hspelling : name.spelling? = some text) : ofString text = name := by
  simp only [spelling?, String.fromUTF8?, Option.dite_none_right_eq_some, Option.some.injEq,
    String.fromUTF8] at hspelling
  obtain ⟨hvalid, rfl⟩ := hspelling
  simp [ofString]

theorem ofString_append (first second : String) :
    ofString (first ++ second) = ofString first ++ ofString second := by
  simp [ofString]

theorem ofString_injective {first second : String} (heq : ofString first = ofString second) :
    first = second := by
  have hspelling := congrArg spelling? heq
  simpa using hspelling

theorem ofString_eq_flatMap (text : String) :
    ofString text = text.toList.flatMap String.utf8EncodeChar := by
  rw [ofString, String.toUTF8_eq_toByteArray, ← String.utf8Encode_toList, List.utf8Encode]
  simp

/-- No other character is written with the byte of the slash. -/
theorem slash_mem_utf8EncodeChar {c : Char} : slash ∈ String.utf8EncodeChar c ↔ c = '/' := by
  have hslash : slash.toNat = '/'.toNat := rfl
  have hvalue : c.toNat = c.val.toNat := rfl
  have hsmall : '/'.toNat = 47 := rfl
  constructor
  · intro hmem
    rw [← Char.toNat_inj]
    -- All bytes of a longer encoding are at least 128.
    simp only [String.utf8EncodeChar] at hmem
    repeat' split at hmem
    all_goals
      simp only [List.mem_cons, List.not_mem_nil, or_false, ← UInt8.toNat_inj,
        UInt8.toNat_ofNat'] at hmem
      omega
  · rintro rfl
    decide

/-- A slash in a text is a slash among its bytes. -/
theorem slash_mem_ofString {text : String} : slash ∈ ofString text ↔ '/' ∈ text.toList := by
  simp [ofString_eq_flatMap, slash_mem_utf8EncodeChar]

end FileName

/-! ## Written paths -/

namespace Path

theorem splitSlashes_of_not_mem {part : List Char} (hpart : '/' ∉ part) :
    splitSlashes part = [part] := by
  induction part with
  | nil => rfl
  | cons c rest ih =>
    rw [List.mem_cons, not_or] at hpart
    rw [splitSlashes, if_neg (Ne.symm hpart.1), ih hpart.2]

theorem splitSlashes_ne_nil (text : List Char) : splitSlashes text ≠ [] := by
  cases text with
  | nil => simp [splitSlashes]
  | cons c rest =>
    rw [splitSlashes]
    split
    · simp
    · split <;> simp

theorem splitSlashes_append_slash (first second : List Char) :
    splitSlashes (first ++ '/' :: second) = splitSlashes first ++ splitSlashes second := by
  induction first with
  | nil => simp [splitSlashes]
  | cons c rest ih =>
    rw [List.cons_append, splitSlashes, splitSlashes, ih]
    split
    · rfl
    · cases hrest : splitSlashes rest with
      | nil => exact absurd hrest (splitSlashes_ne_nil rest)
      | cons part parts => rfl

theorem slash_not_mem_of_mem_splitSlashes {text part : List Char}
    (hpart : part ∈ splitSlashes text) : '/' ∉ part := by
  induction text generalizing part with
  | nil =>
    rw [splitSlashes, List.mem_singleton] at hpart
    simp [hpart]
  | cons c rest ih =>
    rw [splitSlashes] at hpart
    split at hpart
    next =>
      rcases List.mem_cons.1 hpart with rfl | hpart
      · simp
      · exact ih hpart
    next hc =>
      cases hrest : splitSlashes rest with
      | nil => exact absurd hrest (splitSlashes_ne_nil rest)
      | cons first parts =>
        rw [hrest] at hpart ih
        rcases List.mem_cons.1 hpart with rfl | hpart
        · rw [List.mem_cons, not_or]
          exact ⟨Ne.symm hc, ih (List.mem_cons_self ..)⟩
        · exact ih (List.mem_cons_of_mem _ hpart)

/-- The parts of a path before a name below it: a slash at the end of the path does not
count. -/
def lead (path : String) : List (List Char) :=
  if path.toList.getLast? = some '/' then splitSlashes path.toList.dropLast else parts path

/-- A path with a name below it, taken apart. -/
theorem parts_join (path : String) {name : String} (hname : '/' ∉ name.toList) :
    parts (join path name) = lead path ++ [name.toList] := by
  have hsplit := splitSlashes_of_not_mem hname
  unfold join lead parts
  split
  next hlast =>
    obtain ⟨before, hbefore⟩ := List.getLast?_eq_some_iff.1 hlast
    rw [String.toList_append, hbefore, List.dropLast_concat, List.append_assoc,
      List.singleton_append, splitSlashes_append_slash, hsplit]
  next =>
    have htext : (path ++ "/" ++ name).toList = path.toList ++ '/' :: name.toList := by simp
    rw [htext, splitSlashes_append_slash, hsplit]

/-- The names below a path are written behind one and the same text. -/
theorem exists_stem (path : String) : ∃ stem : String, ∀ name, join path name = stem ++ name := by
  by_cases hlast : path.toList.getLast? = some '/'
  · exact ⟨path, fun name => by rw [join, if_pos hlast]⟩
  · exact ⟨path ++ "/", fun name => by rw [join, if_neg hlast]⟩

/-- A path with a name below it has no slash at its end. -/
theorem lead_join (path : String) {name : String} (hname : '/' ∉ name.toList)
    (hne : name ≠ "") : lead (join path name) = lead path ++ [name.toList] := by
  have hend : (join path name).toList.getLast? ≠ some '/' := by
    obtain ⟨stem, hstem⟩ := exists_stem path
    rw [hstem, String.toList_append, List.getLast?_append]
    cases hlast : name.toList.getLast? with
    | none => exact absurd (List.getLast?_eq_none_iff.1 hlast) (by simpa using hne)
    | some last =>
      rw [Option.some_or]
      rintro ⟨rfl⟩
      exact hname (List.mem_of_getLast? hlast)
  rw [lead, if_neg hend, parts_join path hname]

theorem isAbsolute_join {path : String} (hpath : path ≠ "") (name : String) :
    isAbsolute (join path name) = isAbsolute path := by
  have hlist : path.toList ≠ [] := by simpa using hpath
  obtain ⟨c, rest, htext⟩ := List.exists_cons_of_ne_nil hlist
  unfold isAbsolute join
  split <;> simp [htext]

theorem check_eq_ok {path : String} :
    check path = .ok () ↔ '\x00' ∉ path.toList ∧ path.utf8ByteSize ≤ maxLength ∧ path ≠ "" := by
  unfold check
  split
  next hnul => simp_all
  next hnul =>
    split
    next hlong => simp [Nat.not_le.2 hlong]
    next hshort =>
      split
      next hempty => simp_all
      next hempty => simp_all

/-- A shorter name can be written wherever a longer one can. -/
theorem check_join {path longer name : String} (hlonger : check (join path longer) = .ok ())
    (hnul : '\x00' ∉ name.toList) (hsize : name.utf8ByteSize ≤ longer.utf8ByteSize)
    (hne : name ≠ "") : check (join path name) = .ok () := by
  obtain ⟨stem, hstem⟩ := exists_stem path
  rw [hstem, check_eq_ok, String.toList_append, List.mem_append, not_or,
    String.utf8ByteSize_append] at hlonger ⊢
  refine ⟨⟨hlonger.1.1, hnul⟩, by omega, ?_⟩
  simp [hne]

end Path

/-! ## Trees -/

namespace FileTree

/-- What lies in a tree lies in its directories, in one place each and under proper
names. -/
structure WellFormed (tree : FileTree) : Prop where
  nodup : (tree.nodes.map (·.1)).Nodup
  parent : ∀ entry ∈ tree.nodes, tree.nodeAt? entry.1.dropLast = some .directory
  proper : ∀ entry ∈ tree.nodes, ∀ name ∈ entry.1, name.Proper

variable {tree : FileTree} {start place : Place} {node : Node}

/-- An update changes what there is at its place, and that alone. -/
theorem nodeAt?_setNode (hplace : place ≠ []) (node : Node) (other : Place) :
    (tree.setNode place node).nodeAt? other =
      if other = place then some node else tree.nodeAt? other := by
  by_cases hother : other = place
  · simp [nodeAt?, setNode, hother, hplace]
  · simp only [nodeAt?, setNode, lookup_entry, lookup_erase, hother, if_false]

/-- Only from a directory does a path lead on. -/
theorem isDirectory_of_enter {part : List Char} {next : Place}
    (henter : tree.enter place part = .ok next) : tree.nodeAt? place = some .directory := by
  unfold enter at henter
  split at henter
  · cases henter
  · cases henter
  next hdirectory => exact hdirectory

/-- What lies below a directory is entered by its name. -/
theorem enter_proper {name : String} (hdirectory : tree.nodeAt? place = some .directory)
    (hname : (FileName.ofString name).Proper) :
    tree.enter place name.toList =
      if FileName.maxLength < (FileName.ofString name).length then .error .tooLong
      else .ok (place ++ [FileName.ofString name]) := by
  have hne : ∀ text : String, FileName.ofString name ≠ FileName.ofString text →
      name.toList ≠ text.toList := by
    intro text hbytes htext
    exact hbytes (congrArg _ (String.toList_inj.1 htext))
  have hparts : ¬ (name.toList = [] ∨ name.toList = ['.']) := by
    rintro (hempty | hdot)
    · exact hne "" hname.ne_nil hempty
    · exact hne "." hname.ne_dot hdot
  have hdots : ¬ name.toList = ['.', '.'] := hne ".." hname.ne_dots
  simp only [enter, hdirectory, if_neg hparts, if_neg hdots, String.ofList_toList]

theorem follow_append_of_ok {first : List (List Char)} {middle : Place}
    (hfirst : tree.follow place first = .ok middle) (second : List (List Char)) :
    tree.follow place (first ++ second) = tree.follow middle second := by
  induction first generalizing place with
  | nil =>
    cases hfirst
    rfl
  | cons part parts ih =>
    rw [follow] at hfirst
    rw [List.cons_append, follow]
    split at hfirst
    · cases hfirst
    next next heq => exact ih hfirst

theorem exists_follow_of_append {first second : List (List Char)} {final : Place}
    (h : tree.follow place (first ++ second) = .ok final) :
    ∃ middle, tree.follow place first = .ok middle ∧ tree.follow middle second = .ok final := by
  induction first generalizing place with
  | nil => exact ⟨place, rfl, h⟩
  | cons part parts ih =>
    rw [List.cons_append, follow] at h
    rw [follow]
    split at h
    · cases h
    next next heq => exact ih h

/-- A path that leads to a directory starts from one. -/
theorem isDirectory_of_follow {parts : List (List Char)} {final : Place}
    (hparts : tree.follow place parts = .ok final)
    (hfinal : tree.nodeAt? final = some .directory) : tree.nodeAt? place = some .directory := by
  cases parts with
  | nil =>
    cases hparts
    exact hfinal
  | cons part parts =>
    rw [follow] at hparts
    split at hparts
    · cases hparts
    next heq => exact isDirectory_of_enter heq

theorem follow_singleton (part : List Char) : tree.follow place [part] = tree.enter place part := by
  rw [follow]
  split
  next heq => exact heq.symm
  next heq => exact heq.symm

/-- The last part of a path that leads somewhere is entered from a directory. -/
theorem exists_enter_of_locate {path : String} (hplace : tree.locate start path = .ok place) :
    ∃ dir part, '/' ∉ part ∧ tree.enter dir part = .ok place := by
  rw [locate] at hplace
  split at hplace
  · cases hplace
  next =>
    have hne : Path.parts path ≠ [] := Path.splitSlashes_ne_nil _
    have hslash := Path.slash_not_mem_of_mem_splitSlashes (List.getLast_mem hne)
    rw [← List.dropLast_concat_getLast hne] at hplace
    obtain ⟨dir, -, henter⟩ := exists_follow_of_append hplace
    rw [follow_singleton] at henter
    exact ⟨dir, _, hslash, henter⟩

/-! ## Names below a path -/

/-- The names below a path lie in this directory. -/
structure LeadsTo (tree : FileTree) (start : Place) (path : String) (dir : Place) : Prop where
  ne_empty : path ≠ ""
  follow_eq : tree.follow (Path.origin start path) (Path.lead path) = .ok dir
  isDirectory : tree.nodeAt? dir = some .directory

/-- The place of a name below a path. -/
theorem LeadsTo.locate_join {path : String} {dir : Place} (hpath : tree.LeadsTo start path dir)
    {name : String} (hname : '/' ∉ name.toList) :
    tree.locate start (Path.join path name) =
      match Path.check (Path.join path name) with
      | .error error => .error error
      | .ok () => tree.enter dir name.toList := by
  have horigin : Path.origin start (Path.join path name) = Path.origin start path := by
    rw [Path.origin, Path.isAbsolute_join hpath.ne_empty, ← Path.origin]
  rw [locate]
  cases Path.check (Path.join path name) with
  | error error => rfl
  | ok _ =>
    rw [horigin, Path.parts_join path hname]
    exact (follow_append_of_ok hpath.follow_eq _).trans (follow_singleton _)

/-- A path below which some name leads somewhere leads to a directory. -/
theorem exists_leadsTo_of_locate {path : String} (hpath : path ≠ "") {name : String}
    (hname : '/' ∉ name.toList) (hplace : tree.locate start (Path.join path name) = .ok place) :
    ∃ dir, tree.LeadsTo start path dir ∧ tree.enter dir name.toList = .ok place := by
  rw [locate] at hplace
  split at hplace
  · cases hplace
  next =>
    rw [Path.parts_join path hname, Path.origin, Path.isAbsolute_join hpath] at hplace
    obtain ⟨dir, hdir, henter⟩ := exists_follow_of_append hplace
    rw [follow_singleton] at henter
    exact ⟨dir, ⟨hpath, hdir, isDirectory_of_enter henter⟩, henter⟩

/-- A directory below a path leads on to what lies in it. -/
theorem LeadsTo.join {path : String} {dir : Place} (hpath : tree.LeadsTo start path dir)
    {name : String} (hname : (FileName.ofString name).Proper)
    (hshort : (FileName.ofString name).length ≤ FileName.maxLength)
    (hdir : tree.nodeAt? (dir ++ [FileName.ofString name]) = some .directory) :
    tree.LeadsTo start (Path.join path name) (dir ++ [FileName.ofString name]) := by
  have hslash : '/' ∉ name.toList := fun hmem =>
    hname.slash_not_mem (FileName.slash_mem_ofString.2 hmem)
  have hne : name ≠ "" := by
    rintro rfl
    exact hname.ne_nil rfl
  obtain ⟨stem, hstem⟩ := Path.exists_stem path
  refine ⟨by simp [hstem, hne], ?_, hdir⟩
  rw [Path.lead_join path hslash hne, Path.origin, Path.isAbsolute_join hpath.ne_empty,
    ← Path.origin, follow_append_of_ok hpath.follow_eq, follow_singleton,
    enter_proper hpath.isDirectory hname, if_neg (by omega)]

/-! ## Updates -/

/-- An update takes no directory away. -/
theorem isDirectory_setNode (hplace : place ≠ [])
    (hfree : tree.nodeAt? place ≠ some .directory) {other : Place}
    (hother : tree.nodeAt? other = some .directory) :
    (tree.setNode place node).nodeAt? other = some .directory := by
  have hne : other ≠ place := by
    rintro rfl
    exact hfree hother
  rw [nodeAt?_setNode hplace, if_neg hne, hother]

/-- A path that leads somewhere goes on leading there. -/
theorem follow_setNode (hplace : place ≠ []) (hfree : tree.nodeAt? place ≠ some .directory)
    {from' final : Place} {parts : List (List Char)}
    (hparts : tree.follow from' parts = .ok final) :
    (tree.setNode place node).follow from' parts = .ok final := by
  induction parts generalizing from' with
  | nil => exact hparts
  | cons part parts ih =>
    rw [follow] at hparts ⊢
    split at hparts
    · cases hparts
    next next heq =>
      have hdirectory := isDirectory_of_enter heq
      have hsame : (tree.setNode place node).enter from' part = tree.enter from' part := by
        simp only [enter, hdirectory, isDirectory_setNode hplace hfree hdirectory]
      rw [hsame, heq]
      exact ih hparts

theorem locate_setNode (hplace : place ≠ []) (hfree : tree.nodeAt? place ≠ some .directory)
    {path : String} {final : Place} (hpath : tree.locate start path = .ok final) :
    (tree.setNode place node).locate start path = .ok final := by
  rw [locate] at hpath ⊢
  split at hpath
  · cases hpath
  next => exact follow_setNode hplace hfree hpath

/-- What is found after an update, where something could be found before. -/
theorem find?_setNode (hplace : place ≠ []) (hfree : tree.nodeAt? place ≠ some .directory)
    {path : String} {final : Place} (hpath : tree.locate start path = .ok final) :
    (tree.setNode place node).find? start path =
      if final = place then some node else tree.find? start path := by
  rw [find?, find?, locate_setNode hplace hfree hpath, hpath]
  exact nodeAt?_setNode hplace node final

theorem LeadsTo.setNode (hplace : place ≠ []) (hfree : tree.nodeAt? place ≠ some .directory)
    {path : String} {dir : Place} (hpath : tree.LeadsTo start path dir) :
    (tree.setNode place node).LeadsTo start path dir :=
  ⟨hpath.ne_empty, follow_setNode hplace hfree hpath.follow_eq,
    isDirectory_setNode hplace hfree hpath.isDirectory⟩

end FileTree

end SceneLogic
