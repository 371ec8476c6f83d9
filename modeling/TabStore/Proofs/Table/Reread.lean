import TabStore.Proofs.Result
import TabStore.Proofs.Text.Blank
import TabStore.Proofs.Text.Classes
import TabStore.Proofs.Text.Lines
import TabStore.Table.Stored

/-!
# Tables written and read again

A table that was loaded may hold cells that no statement would put there. Written and read again it
still has the same schema, the same ids and as many cells in each row: all that can be lost is a
carriage return at the end of a row.

Results:
1. `readAttributes_unlines`, `Row.IsStorable.readRow_reread`, `readSequence_of_readText`: what each
   text is read as;
2. `load_eq_ok`: a table that is loaded is read from three texts;
3. `IsReadFrom.isStorable`: every table that is loaded can be written and read again;
4. `IsStorable.isReadFrom_reread`: what it is read again as. The last id need not be the recorded
   one if one of the rows has it.
-/

namespace TabStore

open Text

/-! ## Rows -/

/-- The row that is read from the line of a row. -/
def Row.reread (row : Row) : Row := Row.ofLine (dropReturn row.line.toList)

/-- A row whose cells can be told apart on one line, with an id up to `last`. -/
structure Row.IsStorable (width last : Nat) (row : Row) : Prop where
  width_eq : row.width = width
  free : ∀ cell ∈ row.cells, '\t' ∉ cell.toList ∧ '\n' ∉ cell.toList
  numbered : ∃ id ≤ last, Table.readId? row.id.toList = some id

/-- A number is read from digits, with or without a plus sign. -/
theorem Number.isDigits_of_readBelow {limit n : Nat} {text : List Char}
    (h : readBelow limit text = some n) :
    isDigits text = true ∨ ∃ digits, text = '+' :: digits ∧ isDigits digits = true := by
  have digitsOf : ∀ digits : List Char, (if isDigits digits && decide (value digits < limit)
      then some (value digits) else none) = some n → isDigits digits = true := by
    intro digits read
    split at read
    · next valid => exact (Bool.and_eq_true _ _ ▸ valid).1
    · cases read
  unfold readBelow at h
  dsimp only at h
  split at h
  · next digits => exact .inr ⟨digits, rfl, digitsOf digits h⟩
  · exact .inl (digitsOf _ h)

namespace Row.IsStorable

variable {width last number id : Nat} {row : Row}

theorem no_return {text : List Char} (h : Table.readId? text = some id) : '\r' ∉ text := by
  have digits : ∀ {text}, Number.isDigits text = true → '\r' ∉ text := by
    intro text digits found
    rw [Number.isDigits, Bool.and_eq_true] at digits
    exact absurd (List.all_eq_true.mp digits.2 _ found) (by decide)
  rcases Number.isDigits_of_readBelow h with plain | ⟨rest, rfl, plain⟩
  · exact digits plain
  · exact List.not_mem_cons_of_ne_of_not_mem (by decide) (digits plain)

/-- A row is read again without the carriage return that may end its last cell. -/
theorem cells_reread {before : List String} {cell : String}
    (free : ∀ cell ∈ row.cells, '\t' ∉ cell.toList) (cells : row.cells = before ++ [cell]) :
    row.reread.cells = before ++ [String.ofList (dropReturn cell.toList)] := by
  have line : dropReturn row.line.toList = ['\t'].intercalate
      (before.map String.toList ++ [dropReturn cell.toList]) := by
    rw [Row.line, String.toList_intercalate, cells, List.map_append, List.map_singleton]
    exact dropReturn_intercalate (by decide) _ _
  have pieces : splitOn '\t' (dropReturn row.line.toList) =
      before.map String.toList ++ [dropReturn cell.toList] := by
    rw [line]
    refine splitOn_intercalate (by simp) fun piece mem => ?_
    rcases List.mem_append.mp mem with old | new
    · obtain ⟨other, present, rfl⟩ := List.mem_map.mp old
      exact free other (cells ▸ List.mem_append_left _ present)
    · rw [List.mem_singleton.mp new]
      exact fun found => free cell (by simp [cells]) (mem_of_mem_dropReturn found)
  rw [Row.reread, Row.ofLine, pieces, List.map_append, List.map_map]
  simp

theorem cells_ne_nil (h : row.IsStorable width last) : row.cells ≠ [] := by
  obtain ⟨id, -, read⟩ := h.numbered
  intro empty
  rw [Row.id, empty] at read
  cases read

/-- The width stays, and the id: a number does not end with a carriage return. -/
theorem reread (h : row.IsStorable width last) :
    row.reread.width = width ∧ row.reread.id = row.id := by
  obtain ⟨before, cell, cells⟩ : ∃ before cell, row.cells = before ++ [cell] :=
    ⟨_, _, (List.dropLast_append_getLast h.cells_ne_nil).symm⟩
  have again := cells_reread (fun cell mem => (h.free cell mem).1) cells
  have width_eq := h.width_eq
  rw [Row.width, cells] at width_eq
  refine ⟨?_, ?_⟩
  · rw [Row.width, again, ← width_eq, List.length_append, List.length_append]
    rfl
  · rw [Row.id, Row.id, again, cells]
    cases before with
    | nil =>
      obtain ⟨id, -, read⟩ := h.numbered
      rw [Row.id, cells] at read
      have noReturn : '\r' ∉ cell.toList := no_return read
      show String.ofList (dropReturn cell.toList) = cell
      rw [dropReturn_of_not_mem noReturn, String.ofList_toList]
    | cons first rest => rfl

theorem line_ne_nil (h : row.IsStorable width last) : dropReturn row.line.toList ≠ [] := by
  obtain ⟨id, -, read⟩ := h.numbered
  intro empty
  rw [← h.reread.2, Row.reread, empty] at read
  cases read

theorem readRow_reread (h : row.IsStorable width last)
    (read : Table.readId? row.id.toList = some id) :
    Table.readRow width number (dropReturn row.line.toList) = .ok (id, row.reread) := by
  obtain ⟨width_eq, id_eq⟩ := h.reread
  rw [Row.reread] at width_eq id_eq
  simp only [Table.readRow, width_eq, id_eq, read, Row.reread, ne_eq, not_true, if_false]

end Row.IsStorable

namespace Table

variable {table : Table} {width last number : Nat} {rows : List Row}

/-- The ids that rows are numbered with. -/
def idsOf (rows : List Row) : List Nat := rows.filterMap fun row => readId? row.id.toList

theorem readRows_reread (h : ∀ row ∈ rows, row.IsStorable width last) :
    ∃ numbered,
      readRows width number (rows.map fun row => dropReturn row.line.toList) = .ok numbered ∧
      numbered.map (·.2) = rows.map Row.reread ∧ numbered.map (·.1) = idsOf rows := by
  induction rows generalizing number with
  | nil => exact ⟨[], rfl, rfl, rfl⟩
  | cons row rest ih =>
    rw [List.forall_mem_cons] at h
    obtain ⟨id, -, read⟩ := h.1.numbered
    obtain ⟨numbered, found, sameRows, sameIds⟩ := @ih (number + 1) h.2
    refine ⟨(id, row.reread) :: numbered, ?_, ?_, ?_⟩
    · rw [List.map_cons, readRows, if_neg (by simpa using h.1.line_ne_nil), h.1.readRow_reread read,
        ok_bind, found]
      rfl
    · rw [List.map_cons, List.map_cons, sameRows]
    · rw [List.map_cons, sameIds, idsOf, idsOf, List.filterMap_cons, read]

theorem foldl_max_eq {recorded last : Nat} {ids : List Nat} (le : recorded ≤ last)
    (bound : ∀ id ∈ ids, id ≤ last) (attained : recorded = last ∨ last ∈ ids) :
    ids.foldl max recorded = last := by
  induction ids generalizing recorded with
  | nil =>
    rcases attained with same | mem
    · exact same
    · cases mem
  | cons id rest ih =>
    rw [List.forall_mem_cons] at bound
    refine ih (Nat.max_le.mpr ⟨le, bound.1⟩) bound.2 ?_
    rcases attained with rfl | mem
    · exact .inl (Nat.max_eq_left bound.1)
    · rcases List.mem_cons.mp mem with rfl | later
      · exact .inl (Nat.max_eq_right le)
      · exact .inr later

theorem le_foldl_max (ids : List Nat) (recorded : Nat) :
    recorded ≤ ids.foldl max recorded ∧ ∀ id ∈ ids, id ≤ ids.foldl max recorded := by
  induction ids generalizing recorded with
  | nil => exact ⟨Nat.le_refl _, nofun⟩
  | cons id rest ih =>
    obtain ⟨start, later⟩ := ih (max recorded id)
    rw [List.foldl_cons, List.forall_mem_cons]
    exact ⟨Nat.le_trans (Nat.le_max_left _ _) start, Nat.le_trans (Nat.le_max_right _ _) start,
      later⟩

theorem readRow_eq_ok {line : List Char} {entry : Nat × Row}
    (h : readRow width number line = .ok entry) :
    entry.2 = Row.ofLine line ∧ entry.2.width = width ∧
      readId? entry.2.id.toList = some entry.1 := by
  unfold readRow at h
  dsimp only at h
  split at h
  · cases h
  · next width_eq =>
    split at h
    · next id read =>
      cases h
      exact ⟨rfl, not_not.mp width_eq, read⟩
    · cases h

theorem exists_of_mem_readRows {lines : List (List Char)} {numbered : List (Nat × Row)}
    (h : readRows width number lines = .ok numbered) {entry : Nat × Row} (mem : entry ∈ numbered) :
    ∃ line ∈ lines, ∃ number, readRow width number line = .ok entry := by
  induction lines generalizing number numbered with
  | nil =>
    cases h
    cases mem
  | cons line rest ih =>
    rw [readRows] at h
    split at h
    · obtain ⟨other, present, found⟩ := ih h mem
      exact ⟨other, List.mem_cons_of_mem line present, found⟩
    · obtain ⟨first, read, h⟩ := bind_eq_ok.mp h
      obtain ⟨later, readLater, h⟩ := bind_eq_ok.mp h
      cases h
      rcases List.mem_cons.mp mem with rfl | inLater
      · exact ⟨line, List.mem_cons_self, number, read⟩
      · obtain ⟨other, present, found⟩ := ih readLater inLater
        exact ⟨other, List.mem_cons_of_mem line present, found⟩

/-! ## Attributes -/

/-- A name that is read as it is from a line of its own. -/
structure IsSchemaLine (name : String) : Prop where
  noFeed : '\n' ∉ name.toList
  trimmed : trim name.toList = name.toList
  notBlank : name.toList.all isBlank = false

theorem isSchemaLine_of_mem_readAttributes {text name : String} (h : name ∈ readAttributes text) :
    IsSchemaLine name := by
  obtain ⟨line, mem, rfl⟩ := List.mem_map.mp h
  obtain ⟨mem, some⟩ := List.mem_filter.mp mem
  have ends := ends_trim line
  constructor
  · rw [String.toList_ofList]
    exact fun found => not_mem_of_mem_lines mem (mem_of_mem_trim found)
  · rw [String.toList_ofList, trim_of_ends ends.1 ends.2]
  · obtain ⟨c, rest, same⟩ := List.exists_cons_of_ne_nil (trim_ne_nil (by simpa using some))
    have notBlank := ends.1 c (by rw [same]; rfl)
    simp [same, notBlank]

theorem readAttributes_unlines {names : List String} (h : ∀ name ∈ names, IsSchemaLine name) :
    readAttributes (unlines names) = names := by
  have read : lines (unlines names).toList = names.map String.toList := by
    rw [lines_unlines fun name mem => (h name mem).noFeed]
    refine List.map_congr_left fun name mem => ?_
    have ends := (ends_trim name.toList).2
    rw [(h name mem).trimmed] at ends
    exact if_neg fun last => absurd (ends _ last) (by decide)
  have kept : (names.map String.toList).filter (fun line => !line.all isBlank) =
      names.map String.toList := by
    refine List.filter_eq_self.mpr fun line mem => ?_
    obtain ⟨name, present, rfl⟩ := List.mem_map.mp mem
    simpa using (h name present).notBlank
  have trimmed : ∀ name ∈ names, String.ofList (trim name.toList) = name := by
    intro name mem
    rw [(h name mem).trimmed, String.ofList_toList]
  rw [readAttributes, read, kept, List.map_map]
  exact (List.map_congr_left trimmed).trans (List.map_id _)

/-! ## Files -/

theorem contains_of_readText {tree : Tree} {path : Path} {text : String}
    (h : tree.readText path = .ok text) : tree.contains path = true := by
  obtain ⟨entry, found, -⟩ := bind_eq_ok.mp h
  rw [Tree.contains, found]
  rfl

theorem readFile_of_readText {tree : Tree} {path : Path} {text : String}
    (h : tree.readText path = .ok text) : readFile tree path = .ok text := by
  rw [readFile, h]

theorem readText_of_readFile {tree : Tree} {path : Path} {text : String}
    (h : readFile tree path = .ok text) : tree.readText path = .ok text := by
  unfold readFile at h
  split at h
  · next read =>
    cases h
    exact read
  · cases h

theorem readSequence_of_readText {tree : Tree} {path : Path} (fits : table.lastId < idLimit)
    (h : tree.readText path = .ok table.sequenceText) :
    readSequence tree path = .ok table.lastId := by
  have text : table.sequenceText.toList = (toString table.lastId).toList ++ ['\n'] := by
    simp [sequenceText, unlines]
  have notBlank : ∀ c ∈ (toString table.lastId).toList, isBlank c = false := by
    intro c mem
    have digits := Number.isDigits_toString table.lastId
    rw [Number.isDigits, Bool.and_eq_true] at digits
    have digit := List.all_eq_true.mp digits.2 c mem
    exact isBlank_eq_false_of_isAlphanum (by simp [Char.isAlphanum, digit])
  have some : (toString table.lastId).toList ≠ [] := by
    rw [Nat.toString_eq_repr, Nat.toList_repr]
    exact Nat.toDigits_ne_nil
  have trimmed : trim table.sequenceText.toList = (toString table.lastId).toList := by
    obtain ⟨c, rest, same⟩ := List.exists_cons_of_ne_nil some
    rw [text, trim, trimStart_of_head, trimEnd_append_blank (by decide), trimEnd_of_last]
    · exact fun c last => notBlank c (List.mem_of_getLast? last)
    · intro d head
      rw [same] at head notBlank
      cases head
      exact notBlank c List.mem_cons_self
  rw [readSequence, h]
  dsimp only
  rw [trimmed, readId?, Number.readBelow_toString fits]

/-- A table as it is read from the texts of its schema and its rows, with the recorded last id. -/
structure IsReadFrom (table : Table) (schema rows : String) (recorded : Nat) : Prop where
  attributes_eq : readAttributes schema = table.attributes
  head : table.attributes.head? = some idAttribute
  rows_eq : ∃ numbered, readRows table.attributes.length 1 (lines rows.toList) = .ok numbered ∧
    numbered.map (·.2) = table.rows ∧ (numbered.map (·.1)).foldl max recorded = table.lastId

/-- The loader reads all three files and puts the table together. -/
theorem load_eq_ok {tree : Tree} {directory : Path} {name : String} :
    load tree directory name = .ok table ↔ table.directory = directory ∧ table.name = name ∧
      ∃ schema rows recorded, tree.readText (new directory name).schemaPath = .ok schema ∧
        tree.readText (new directory name).rowsPath = .ok rows ∧
        readSequence tree (new directory name).sequencePath = .ok recorded ∧
        table.IsReadFrom schema rows recorded := by
  constructor
  · intro h
    unfold load at h
    dsimp only at h
    split at h
    · cases h
    · obtain ⟨schema, readSchema, h⟩ := bind_eq_ok.mp h
      split at h
      · cases h
      · next head =>
        obtain ⟨rows, readRows, h⟩ := bind_eq_ok.mp h
        split at h
        · cases h
        · next numbered found =>
          obtain ⟨recorded, sequence, h⟩ := bind_eq_ok.mp h
          cases h
          exact ⟨rfl, rfl, schema, rows, recorded, readText_of_readFile readSchema,
            readText_of_readFile readRows, sequence, rfl, not_not.mp head, numbered, found, rfl,
            rfl⟩
  · rintro ⟨rfl, rfl, schema, rows, recorded, readSchema, readRows, sequence, read⟩
    obtain ⟨numbered, found, sameRows, sameLast⟩ := read.rows_eq
    show (if !tree.contains (new table.directory table.name).schemaPath then _ else _) = _
    rw [contains_of_readText readSchema]
    show (readFile tree (new table.directory table.name).schemaPath >>= _) = _
    rw [readFile_of_readText readSchema, ok_bind, read.attributes_eq,
      if_neg (not_not_intro read.head)]
    show (readFile tree (new table.directory table.name).rowsPath >>= _) = _
    rw [readFile_of_readText readRows, ok_bind]
    dsimp only
    rw [found]
    show (readSequence tree (new table.directory table.name).sequencePath >>= _) = _
    rw [sequence, ok_bind, sameRows, sameLast]
    rfl

theorem load_of_missing {tree : Tree} {directory : Path} {name : String}
    (missing : tree.contains (new directory name).schemaPath = false) :
    load tree directory name = .error (.tableNotFound name) := by
  show (if !tree.contains (new directory name).schemaPath then _ else _) = _
  rw [missing]
  rfl

/-! ## Tables -/

/-- A table that can be written and read again. -/
structure IsStorable (table : Table) : Prop where
  head : table.attributes.head? = some idAttribute
  attributes : ∀ name ∈ table.attributes, IsSchemaLine name
  rows : ∀ row ∈ table.rows, row.IsStorable table.attributes.length table.lastId

/-- What a table is written and read again as. -/
def reread (table : Table) : Table := { table with rows := table.rows.map Row.reread }

theorem reread_eq_iff : table.reread = table ↔ ∀ row ∈ table.rows, row.reread = row := by
  rw [reread]
  constructor
  · intro same row mem
    have rows := congrArg Table.rows same
    exact List.map_inj_left.mp (rows.trans (List.map_id' _).symm) row mem
  · intro same
    rw [List.map_congr_left same, List.map_id']

theorem IsReadFrom.isStorable {schema rows : String} {recorded : Nat}
    (read : table.IsReadFrom schema rows recorded) : table.IsStorable := by
  obtain ⟨numbered, found, sameRows, sameLast⟩ := read.rows_eq
  refine ⟨read.head, fun name mem => ?_, fun row mem => ?_⟩
  · rw [← read.attributes_eq] at mem
    exact isSchemaLine_of_mem_readAttributes mem
  · rw [← sameRows] at mem
    obtain ⟨entry, present, rfl⟩ := List.mem_map.mp mem
    obtain ⟨line, inLines, number, readLine⟩ := exists_of_mem_readRows found present
    obtain ⟨row_eq, width_eq, numberedBy⟩ := readRow_eq_ok readLine
    have bound := (le_foldl_max (numbered.map (·.1)) recorded).2 _ (List.mem_map_of_mem present)
    rw [sameLast] at bound
    refine ⟨width_eq, fun cell inRow => ?_, entry.1, bound, numberedBy⟩
    rw [row_eq] at inRow
    obtain ⟨piece, inLine, rfl⟩ := List.mem_map.mp inRow
    rw [String.toList_ofList]
    exact ⟨not_mem_of_mem_splitOn inLine, fun feed =>
      not_mem_of_mem_lines inLines (mem_of_mem_splitOn inLine feed)⟩

namespace IsStorable

theorem lines_rowsText (h : table.IsStorable) :
    lines table.rowsText.toList = table.rows.map fun row => dropReturn row.line.toList := by
  rw [rowsText, lines_unlines, List.map_map]
  · rfl
  · intro line mem
    obtain ⟨row, present, rfl⟩ := List.mem_map.mp mem
    intro feed
    rw [Row.line, String.toList_intercalate] at feed
    rcases mem_intercalate feed with tab | ⟨piece, inRow, inside⟩
    · exact absurd tab (by decide)
    · obtain ⟨cell, inCells, rfl⟩ := List.mem_map.mp inRow
      exact ((h.rows row present).free cell inCells).2 inside

/-- A table is read again as what it was written as, and its last id is found even where an older
one is recorded, if one of the rows has it. -/
theorem isReadFrom_reread (h : table.IsStorable) {schema : String} {recorded : Nat}
    (schema_eq : readAttributes schema = table.attributes) (le : recorded ≤ table.lastId)
    (attained : recorded = table.lastId ∨ table.lastId ∈ idsOf table.rows) :
    table.reread.IsReadFrom schema table.rowsText recorded := by
  obtain ⟨numbered, found, sameRows, sameIds⟩ := @readRows_reread _ _ 1 _ h.rows
  refine ⟨schema_eq, h.head, numbered, ?_, sameRows, ?_⟩
  · rw [h.lines_rowsText]
    exact found
  · rw [sameIds]
    refine foldl_max_eq le (fun id mem => ?_) attained
    obtain ⟨row, present, read⟩ := List.mem_filterMap.mp mem
    obtain ⟨other, bound, numbered⟩ := (h.rows row present).numbered
    rw [read] at numbered
    cases numbered
    exact bound

end IsStorable

end Table

end TabStore
