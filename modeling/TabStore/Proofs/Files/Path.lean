import Mathlib.Data.List.Basic
import TabStore.Files.Tree
import TabStore.Proofs.Name
import TabStore.Proofs.Text.Lines

/-!
# Paths of files in directories

The text of a path to an entry of a directory, the steps it takes, and the path of the temporary
file beside it.

Results:
1. `names_join`, `ofPath_join`, `fault?_join`: the path to an entry takes the steps to its directory
   and one more;
2. `addExtension_join`, `exists_addExtension_join`: the file beside an entry is an entry of the same
   directory;
3. `stemBefore?_eq_some`: which names have an extension.
-/

namespace TabStore

/-- A name that a directory can have an entry under. -/
structure IsFileName (name : String) : Prop where
  some : name ≠ ""
  noSeparator : '/' ∉ name.toList
  noNul : '\x00' ∉ name.toList
  ne_dot : name ≠ "."
  ne_dots : name ≠ ".."

theorem IsName.isFileName {name : String} (h : IsName name) : IsFileName name where
  some := by
    rintro rfl
    exact h.ne_nil rfl
  noSeparator := h.not_mem (by decide)
  noNul := h.not_mem (by decide)
  ne_dot := h.ne_dots.1
  ne_dots := h.ne_dots.2

/-- The extensions of the files of a table, and of the files that replace them. -/
def extensions : List String := ["txt", "tsv", "seq", "tmp"]

/-- A text that makes the name of a file with an extension behind it. -/
structure IsStem (stem : String) : Prop where
  noSeparator : '/' ∉ stem.toList
  noNul : '\x00' ∉ stem.toList

theorem IsFileName.isStem {name : String} (h : IsFileName name) : IsStem name :=
  ⟨h.noSeparator, h.noNul⟩

theorem IsStem.addExtension {stem extension : String} (h : IsStem stem)
    (known : extension ∈ extensions) : IsFileName (stem ++ "." ++ extension) := by
  have plain : ∀ extension ∈ extensions, '/' ∉ extension.toList ∧ '\x00' ∉ extension.toList ∧
      extension.toList.length = 3 := by
    decide
  obtain ⟨noSeparator, noNul, length⟩ := plain extension known
  have long : 4 ≤ (stem ++ "." ++ extension).toList.length := by
    rw [String.toList_append, String.toList_append, List.length_append, List.length_append, length]
    exact Nat.le_add_left 4 stem.toList.length
  refine ⟨?_, ?_, ?_, ?_, ?_⟩
  · intro same
    rw [same] at long
    exact absurd long (by decide)
  · simp [h.noSeparator, noSeparator]
  · simp [h.noNul, noNul]
  · intro same
    rw [same] at long
    exact absurd long (by decide)
  · intro same
    rw [same] at long
    exact absurd long (by decide)

theorem IsFileName.addExtension {name extension : String} (h : IsFileName name)
    (known : extension ∈ extensions) : IsFileName (name ++ "." ++ extension) :=
  h.isStem.addExtension known

theorem append_extension_inj {name other extension other' : String} (known : extension ∈ extensions)
    (known' : other' ∈ extensions) (h : name ++ "." ++ extension = other ++ "." ++ other') :
    name = other ∧ extension = other' := by
  have length : ∀ extension ∈ extensions, extension.toList.length = 3 := by decide
  have texts := congrArg String.toList h
  rw [String.toList_append, String.toList_append, String.toList_append,
    String.toList_append] at texts
  have parts := List.append_inj' texts ((length _ known).trans (length _ known').symm)
  exact ⟨String.toList_inj.mp (List.append_inj' parts.1 rfl).1, String.toList_inj.mp parts.2⟩

namespace Path

variable {path : Path} {name : String}

theorem splitOn_append (separator : Char) (left right : List Char) :
    Text.splitOn separator (left ++ separator :: right) =
      Text.splitOn separator left ++ Text.splitOn separator right := by
  induction left with
  | nil => simp [Text.splitOn]
  | cons c rest ih =>
    by_cases same : c = separator
    · simp [Text.splitOn, same, ih]
    · cases pieces : Text.splitOn separator rest with
      | nil => exact absurd pieces (Text.splitOn_ne_nil separator rest)
      | cons head tail => simp [Text.splitOn, same, ih, pieces]

/-- The path to an entry is the path to the directory and the name behind a separator, unless the
path ends in a separator or is empty. -/
theorem join_eq (h : IsFileName name) : path.join name =
    if path.text.toList.getLast?.all (· == '/') then ⟨path.text ++ name⟩
    else ⟨path.text ++ "/" ++ name⟩ := by
  have notRooted : name.toList.head? ≠ some '/' := fun head =>
    h.noSeparator (List.mem_of_mem_head? head)
  rw [join, if_neg notRooted]

theorem pieces_join (h : IsFileName name) :
    ∃ before, (path.join name).pieces = before ++ [name] ∧
      before.filter (· != "") = path.names := by
  have alone : Text.splitOn '/' name.toList = [name.toList] :=
    Text.splitOn_of_not_mem h.noSeparator
  rw [join_eq h]
  split
  · next ends =>
    cases last : path.text.toList.getLast? with
    | none =>
      have empty := List.getLast?_eq_none_iff.mp last
      refine ⟨[], ?_, ?_⟩
      · simp [pieces, empty, alone]
      · simp [names, pieces, empty, Text.splitOn]
    | some c =>
      rw [last, Option.all_some, beq_iff_eq] at ends
      subst ends
      obtain ⟨front, same⟩ := List.getLast?_eq_some_iff.mp last
      -- The separator at the end leaves an empty piece, which names nothing.
      refine ⟨(Text.splitOn '/' front).map String.ofList, ?_, ?_⟩
      · have whole : (path.text ++ name).toList = front ++ '/' :: name.toList := by simp [same]
        rw [pieces, whole, splitOn_append, alone, List.map_append]
        simp
      · rw [names, pieces, same, splitOn_append, List.map_append, List.filter_append]
        simp [Text.splitOn]
  · refine ⟨path.pieces, ?_, rfl⟩
    have whole : (path.text ++ "/" ++ name).toList = path.text.toList ++ '/' :: name.toList := by
      simp
    rw [pieces, whole, splitOn_append, alone, List.map_append]
    simp [pieces]

theorem names_join (h : IsFileName name) : (path.join name).names = path.names ++ [name] := by
  obtain ⟨before, same, kept⟩ := @pieces_join path name h
  rw [names, same, List.filter_append, kept]
  simp [h.some]

theorem exists_join_text (path : Path) (h : IsFileName name) :
    ∃ separator, (separator = "" ∨ separator = "/") ∧
      (path.join name).text = path.text ++ separator ++ name := by
  rw [join_eq h]
  split
  · exact ⟨"", .inl rfl, by simp⟩
  · exact ⟨"/", .inr rfl, rfl⟩

theorem join_text_ne_empty (h : IsFileName name) : (path.join name).text ≠ "" := by
  obtain ⟨separator, -, text⟩ := exists_join_text path h
  rw [text]
  simp [h.some]

theorem getLast?_join (h : IsFileName name) :
    (path.join name).text.toList.getLast? = name.toList.getLast? := by
  have some : name.toList ≠ [] := fun empty => h.some (String.toList_inj.mp empty)
  obtain ⟨separator, -, text⟩ := exists_join_text path h
  rw [text, String.toList_append, List.getLast?_append_of_ne_nil _ some]

theorem steps_join (h : IsFileName name) : (path.join name).steps = path.names ++ [name] := by
  have noSlash : (path.join name).text.toList.getLast? ≠ some '/' := by
    rw [getLast?_join h]
    exact fun last => h.noSeparator (List.mem_of_getLast? last)
  rw [steps, if_neg noSlash, names_join h]

theorem endsInDot_join (h : IsFileName name) : (path.join name).endsInDot = false := by
  rw [endsInDot, names_join h, List.getLast?_concat]
  simpa using h.ne_dot

theorem ofPath_mk (h : IsFileName name) : Origin.ofPath ⟨name⟩ = .above 0 :=
  if_neg fun head => h.noSeparator (List.mem_of_mem_head? head)

theorem ofPath_join (h : IsFileName name) :
    Origin.ofPath (path.join name) = Origin.ofPath path := by
  obtain ⟨separator, -, text⟩ := exists_join_text path h
  cases chars : path.text.toList with
  | nil =>
    have empty : path.text = "" := String.toList_inj.mp chars
    rw [join_eq h, chars, empty, String.empty_append]
    exact (ofPath_mk h).trans (by rw [Origin.ofPath, chars, if_neg nofun])
  | cons c rest =>
    rw [Origin.ofPath, Origin.ofPath, text, String.toList_append, String.toList_append, chars]
    rfl

theorem fault?_eq_none_iff : path.fault? = none ↔ '\x00' ∉ path.text.toList ∧
    path.text.utf8ByteSize ≤ lengthLimit ∧ path.text ≠ "" := by
  constructor
  · intro h
    unfold fault? at h
    split at h
    · cases h
    · next noNul =>
      split at h
      · cases h
      · next short =>
        split at h
        · cases h
        · next some => exact ⟨by simpa using noNul, by omega, by simpa using some⟩
  · rintro ⟨noNul, short, some⟩
    rw [fault?, if_neg (by simpa using noNul), if_neg (Nat.not_lt.mpr short),
      if_neg (by simpa using some)]

/-- The path to an entry is a path as long as it is not too long. -/
theorem fault?_join (h : IsFileName name) (valid : path.fault? = none) :
    (path.join name).fault? =
      if lengthLimit < (path.join name).text.utf8ByteSize then some .nameTooLong else none := by
  obtain ⟨noNul, -, -⟩ := fault?_eq_none_iff.mp valid
  obtain ⟨separator, plain, text⟩ := exists_join_text path h
  have stillNoNul : ¬ (path.join name).text.toList.contains '\x00' = true := by
    rw [text]
    rcases plain with rfl | rfl <;> simp [noNul, h.noNul]
  have stillSome : ¬ (path.join name).text.isEmpty = true := by
    simpa using join_text_ne_empty h
  rw [fault?, if_neg stillNoNul, if_neg stillSome]

/-- A name alone is a path of one step. -/
theorem names_mk (h : IsFileName name) : (Path.mk name).names = [name] := by
  rw [names, pieces, Text.splitOn_of_not_mem h.noSeparator]
  simp [h.some]

theorem steps_mk (h : IsFileName name) : (Path.mk name).steps = [name] := by
  rw [steps, names_mk h]
  exact if_neg fun last => h.noSeparator (List.mem_of_getLast? last)

theorem fault?_mk (h : IsFileName name) (short : name.utf8ByteSize ≤ lengthLimit) :
    (Path.mk name).fault? = none :=
  fault?_eq_none_iff.mpr ⟨h.noNul, short, h.some⟩

theorem intercalate_pieces (path : Path) : "/".intercalate path.pieces = path.text := by
  rw [← String.toList_inj, String.toList_intercalate, pieces, List.map_map]
  have same : (Text.splitOn '/' path.text.toList).map (String.toList ∘ String.ofList) =
      Text.splitOn '/' path.text.toList := by simp [Function.comp_def]
  rw [same]
  exact Text.intercalate_splitOn '/' path.text.toList

/-- A path is made of its pieces again, unless it is empty. -/
theorem ofPieces_pieces (some : path.text ≠ "") : ofPieces path.pieces = path := by
  have text := intercalate_pieces path
  unfold ofPieces
  split
  · next alone =>
    rw [alone, String.intercalate_singleton] at text
    exact absurd text.symm some
  · rw [text]

theorem namesNothing_eq_false (h : IsFileName name) : namesNothing name = false := by
  simp [namesNothing, h.some, h.ne_dot]

theorem splitLast?_join {entry : String} (h : IsFileName name) (hEntry : IsFileName entry) :
    ((path.join name).join entry).splitLast? = some (path.join name, entry) := by
  obtain ⟨before, same, -⟩ := @pieces_join path name h
  have pieces_eq : ((path.join name).join entry).pieces = before ++ [name] ++ [entry] := by
    have notRoot : (path.join name).text.toList.getLast?.all (· == '/') = false := by
      rw [getLast?_join h]
      cases last : name.toList.getLast? with
      | none =>
        have empty := List.getLast?_eq_none_iff.mp last
        exact absurd (String.toList_inj.mp empty) h.some
      | some c =>
        have apart : c ≠ '/' := by
          rintro rfl
          exact h.noSeparator (List.mem_of_getLast? last)
        simp [apart]
    have whole : ((path.join name).text ++ "/" ++ entry).toList =
        (path.join name).text.toList ++ '/' :: entry.toList := by simp
    rw [← same, join_eq hEntry, notRoot]
    show (Text.splitOn '/' ((path.join name).text ++ "/" ++ entry).toList).map String.ofList = _
    rw [whole, splitOn_append, Text.splitOn_of_not_mem hEntry.noSeparator, List.map_append]
    simp [pieces]
  have directory : ofPieces (before ++ [name]) = path.join name := by
    rw [← same, ofPieces_pieces (join_text_ne_empty h)]
  -- Neither of the last two names is dropped.
  have keepsEntry := namesNothing_eq_false hEntry
  have keepsName := namesNothing_eq_false h
  unfold splitLast?
  rw [pieces_eq]
  cases before with
  | nil => simpa [keepsEntry] using directory
  | cons first rest => simpa [keepsEntry, keepsName] using directory

theorem addExtension_join {entry extension : String} (h : IsFileName name)
    (hEntry : IsFileName entry) : ((path.join name).join entry).addExtension extension =
      (path.join name).join (entry ++ "." ++ extension) := by
  rw [addExtension, splitLast?_join h hEntry]

/-- The path to an entry is one text, behind which its extensions stand. -/
theorem exists_join_extension (path : Path) (name : String) :
    ∃ text, ∀ extension, path.join (name ++ "." ++ extension) = ⟨text ++ "." ++ extension⟩ := by
  have head : ∀ extension, (name ++ "." ++ extension).toList.head? = some '/' ↔
      name.toList.head? = some '/' := by
    intro extension
    cases chars : name.toList with
    | nil => simp [chars]
    | cons c rest => simp [chars]
  unfold join
  by_cases rooted : name.toList.head? = some '/'
  · exact ⟨name, fun extension => if_pos ((head extension).mpr rooted)⟩
  · by_cases ends : path.text.toList.getLast?.all (· == '/') = true
    · refine ⟨path.text ++ name, fun extension => ?_⟩
      rw [if_neg (mt (head extension).mp rooted), if_pos ends]
      simp only [String.append_assoc]
    · refine ⟨path.text ++ "/" ++ name, fun extension => ?_⟩
      rw [if_neg (mt (head extension).mp rooted), if_neg ends]
      simp only [String.append_assoc]

/-- A text is a path to a directory, up to the last separator, and a name. -/
theorem exists_directory_append (text : String) : ∃ directory name : String,
    text = directory ++ name ∧ directory.toList.getLast?.all (· == '/') = true ∧
      '/' ∉ name.toList := by
  let name := (text.toList.reverse.takeWhile (· != '/')).reverse
  let directory := (text.toList.reverse.dropWhile (· != '/')).reverse
  have whole : directory ++ name = text.toList := by
    rw [← List.reverse_append, List.takeWhile_append_dropWhile, List.reverse_reverse]
  refine ⟨.ofList directory, .ofList name, ?_, ?_, ?_⟩
  · rw [← String.ofList_append, whole, String.ofList_toList]
  · rw [String.toList_ofList, List.getLast?_reverse, Option.all_eq_true]
    intro c head
    have stopped := List.head?_dropWhile_not (· != '/') text.toList.reverse
    rw [Option.mem_def.mp head] at stopped
    simpa using stopped
  · rw [String.toList_ofList, List.mem_reverse]
    intro found
    exact absurd (List.all_eq_true.mp List.all_takeWhile _ found) (by decide)

/-! ### Paths as pieces -/

theorem not_mem_of_mem_pieces {piece : String} (h : piece ∈ path.pieces) : '/' ∉ piece.toList := by
  obtain ⟨chars, mem, rfl⟩ := List.mem_map.mp h
  rw [String.toList_ofList]
  exact Text.not_mem_of_mem_splitOn mem

theorem pieces_intercalate {pieces : List String} (some : pieces ≠ [])
    (free : ∀ piece ∈ pieces, '/' ∉ piece.toList) :
    (Path.mk ("/".intercalate pieces)).pieces = pieces := by
  have separate : Text.splitOn '/' ("/".intercalate pieces).toList = pieces.map String.toList := by
    rw [String.toList_intercalate]
    refine Text.splitOn_intercalate (by simpa using some) fun piece mem => ?_
    obtain ⟨name, present, rfl⟩ := List.mem_map.mp mem
    exact free name present
  rw [Path.pieces, separate, List.map_map]
  simp

theorem names_ofPieces {pieces : List String} (some : pieces ≠ [])
    (free : ∀ piece ∈ pieces, '/' ∉ piece.toList) :
    (ofPieces pieces).names = pieces.filter (· != "") := by
  unfold ofPieces
  split
  · decide
  · rw [names, pieces_intercalate some free]

/-- The first piece tells where a path starts. -/
theorem ofPath_ofPieces {first : String} (rest : List String) (free : '/' ∉ first.toList) :
    Origin.ofPath (ofPieces (first :: rest)) = if first = "" then .root else .above 0 := by
  split
  · next empty =>
    rw [empty]
    cases rest with
    | nil => rfl
    | cons second more => simp [Origin.ofPath, ofPieces]
  · next some =>
    obtain ⟨c, tail, chars⟩ : ∃ c tail, first.toList = c :: tail :=
      List.exists_cons_of_ne_nil fun empty => some (String.toList_inj.mp empty)
    have notRoot : c ≠ '/' := by
      rintro rfl
      exact free (chars ▸ List.mem_cons_self)
    cases rest with
    | nil => simp [Origin.ofPath, ofPieces, some, chars, notRoot]
    | cons second more => simp [Origin.ofPath, ofPieces, chars, notRoot]

/-- The file beside an entry lies in the same directory, but for dots that are dropped from the end
of the path to it. -/
theorem exists_addExtension_join {entry : String} (h : IsFileName entry) (extension : String) :
    ∃ directory dots, (path.join entry).addExtension extension =
        directory.join (entry ++ "." ++ extension) ∧
      path.names = directory.names ++ List.replicate dots "." ∧
      Origin.ofPath directory = Origin.ofPath path := by
  obtain ⟨before, same, kept⟩ := @pieces_join path entry h
  have keepsEntry := namesNothing_eq_false h
  have origin : Origin.ofPath (ofPieces (before ++ [entry])) = Origin.ofPath path := by
    rw [← same, ofPieces_pieces (join_text_ne_empty h), ofPath_join h]
  cases before with
  | nil =>
    refine ⟨⟨""⟩, 0, ?_, kept.symm, ?_⟩
    · rw [addExtension, splitLast?, same]
      simp [h.some]
    · rw [← origin, List.nil_append, ofPath_ofPieces [] h.noSeparator, if_neg h.some]
      rfl
  | cons first more =>
    have free : ∀ piece ∈ first :: more, '/' ∉ piece.toList := fun piece mem =>
      not_mem_of_mem_pieces (same ▸ List.mem_append_left [entry] mem)
    let stays := (more.reverse.dropWhile namesNothing).reverse
    let dropped := (more.reverse.takeWhile namesNothing).reverse
    have parts : more = stays ++ dropped := by
      rw [← List.reverse_append, List.takeWhile_append_dropWhile, List.reverse_reverse]
    have dots : ∀ piece ∈ dropped.filter (· != ""), piece = "." := by
      intro piece mem
      obtain ⟨mem, some⟩ := List.mem_filter.mp mem
      have nothing := List.all_eq_true.mp List.all_takeWhile piece (List.mem_reverse.mp mem)
      simpa [namesNothing, bne_iff_ne.mp some] using nothing
    have freeStays : ∀ piece ∈ first :: stays, '/' ∉ piece.toList := by
      intro piece mem
      refine free piece ?_
      rw [parts]
      exact List.mem_append_left dropped mem
    refine ⟨ofPieces (first :: stays), (dropped.filter (· != "")).length, ?_, ?_, ?_⟩
    · rw [addExtension, splitLast?, same]
      simp [keepsEntry, stays]
    · rw [← kept, names_ofPieces (List.cons_ne_nil _ _) freeStays,
        ← List.eq_replicate_of_mem dots, ← List.filter_append, List.cons_append, ← parts]
    · rw [← origin, List.cons_append, ofPath_ofPieces _ (free first List.mem_cons_self),
        ofPath_ofPieces _ (free first List.mem_cons_self)]

/-- The characters of a path, but for separators, are those of its names. -/
theorem mem_text_iff {c : Char} (apart : c ≠ '/') :
    c ∈ path.text.toList ↔ ∃ name ∈ path.names, c ∈ name.toList := by
  constructor
  · intro mem
    rw [← intercalate_pieces path, String.toList_intercalate] at mem
    rcases Text.mem_intercalate mem with separator | ⟨chars, inPieces, inside⟩
    · exact absurd (List.mem_singleton.mp separator) apart
    · obtain ⟨piece, present, rfl⟩ := List.mem_map.mp inPieces
      refine ⟨piece, List.mem_filter.mpr ⟨present, ?_⟩, inside⟩
      rw [bne_iff_ne]
      rintro rfl
      cases inside
  · rintro ⟨name, present, inside⟩
    obtain ⟨chars, inPieces, rfl⟩ := List.mem_map.mp (List.mem_filter.mp present).1
    rw [String.toList_ofList] at inside
    exact Text.mem_of_mem_splitOn inPieces inside

/-- The file beside an entry has a path as long as that is not too long. -/
theorem fault?_addExtension_join {entry extension : String} (h : IsFileName entry)
    (added : IsFileName (entry ++ "." ++ extension)) (valid : path.fault? = none)
    (short : ((path.join entry).addExtension extension).text.utf8ByteSize ≤ lengthLimit) :
    ((path.join entry).addExtension extension).fault? = none := by
  obtain ⟨directory, dots, same, names, -⟩ := @exists_addExtension_join path entry h extension
  rw [same] at short ⊢
  refine fault?_eq_none_iff.mpr ⟨fun found => ?_, short, join_text_ne_empty added⟩
  obtain ⟨name, present, inside⟩ := (mem_text_iff (by decide)).mp found
  rw [names_join added] at present
  rcases List.mem_append.mp present with inDirectory | last
  · refine (fault?_eq_none_iff.mp valid).1 ((mem_text_iff (by decide)).mpr ⟨name, ?_, inside⟩)
    rw [names]
    exact List.mem_append_left _ inDirectory
  · rw [List.mem_singleton.mp last] at inside
    exact added.noNul inside

end Path

/-- A file name has the extension exactly when it is a stem, a dot and the extension. -/
theorem stemBefore?_eq_some {extension fileName stem : String} (noDot : '.' ∉ extension.toList) :
    stemBefore? extension fileName = some stem ↔
      fileName = stem ++ "." ++ extension ∧ stem ≠ "" := by
  have noDotReversed : ∀ c ∈ extension.toList.reverse, (c != '.') = true := by
    intro c mem
    rw [bne_iff_ne]
    rintro rfl
    exact noDot (List.mem_reverse.mp mem)
  constructor
  · intro h
    unfold stemBefore? at h
    dsimp only at h
    split at h
    · next found =>
      cases h
      obtain ⟨last, some⟩ := found
      -- Read backwards, the name is the extension up to its first dot, and the stem behind it.
      have whole := @List.takeWhile_append_dropWhile _ (· != '.') fileName.toList.reverse
      have stopped := List.head?_dropWhile_not (· != '.') fileName.toList.reverse
      cases rest : fileName.toList.reverse.dropWhile (· != '.') with
      | nil =>
        rw [rest] at some
        exact absurd rfl some
      | cons dot before =>
        rw [rest] at whole stopped some
        have isDot : dot = '.' := by simpa using stopped
        subst isDot
        refine ⟨?_, fun empty => ?_⟩
        · rw [← String.toList_inj, ← List.reverse_inj, ← whole, List.reverse_eq_iff.mp last]
          simp
        · have texts := congrArg String.toList empty
          rw [String.toList_ofList] at texts
          exact some texts
    · cases h
  · rintro ⟨rfl, some⟩
    have reversed : (stem ++ "." ++ extension).toList.reverse =
        extension.toList.reverse ++ '.' :: stem.toList.reverse := by simp
    have taken : (stem ++ "." ++ extension).toList.reverse.takeWhile (· != '.') =
        extension.toList.reverse := by
      rw [reversed, List.takeWhile_append_of_pos noDotReversed]
      simp
    have dropped : (stem ++ "." ++ extension).toList.reverse.dropWhile (· != '.') =
        '.' :: stem.toList.reverse := by
      rw [reversed, List.dropWhile_append_of_pos noDotReversed]
      simp
    have someChars : stem.toList ≠ [] := fun empty => some (String.toList_inj.mp empty)
    unfold stemBefore?
    dsimp only
    rw [taken, dropped]
    simp [someChars]

end TabStore
