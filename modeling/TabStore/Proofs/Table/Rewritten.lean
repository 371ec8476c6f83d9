import TabStore.Proofs.Table.Loaded
import TabStore.Proofs.Table.Parts

/-!
# Tables stored where they were loaded

A table is stored over the files that it was loaded from, and it is loaded again. Nothing is assumed
of these files, nor of how far the storing got.

Results:
1. `Becomes.load_of_stopsIn`: wherever storing another table over one stops, one of the two is
   loaded;
2. `load_of_rewritten`: a table that is stored again is loaded again as it was, unless a line of its
   rows ends in a carriage return, which is lost;
3. `load_of_rewritten_return`: such a line.
-/

namespace TabStore

open Text

namespace Row

theorem toList_line_ofLine (line : List Char) : (ofLine line).line.toList = line := by
  rw [Row.line, String.toList_intercalate, ofLine, List.map_map]
  have pieces : (splitOn '\t' line).map (String.toList ∘ String.ofList) = splitOn '\t' line := by
    simp [Function.comp_def]
  rw [pieces]
  exact intercalate_splitOn '\t' line

theorem toList_line_reread (row : Row) : row.reread.line.toList = dropReturn row.line.toList :=
  toList_line_ofLine _

/-- A row is read again as it was unless its line ends in a carriage return. -/
theorem IsStorable.reread_eq_iff {row : Row} {width last : Nat} (h : row.IsStorable width last) :
    row.reread = row ↔ row.line.toList.getLast? ≠ some '\r' := by
  constructor
  · intro same ends
    have lines := congrArg (fun row => (Row.line row).toList.length) same
    rw [toList_line_reread, dropReturn, if_pos ends, List.length_dropLast] at lines
    have some : row.line.toList ≠ [] := by
      intro empty
      rw [empty] at ends
      cases ends
    have positive := List.length_pos_of_ne_nil some
    omega
  · intro ends
    have pieces : splitOn '\t' row.line.toList = row.cells.map String.toList := by
      rw [Row.line, String.toList_intercalate]
      refine splitOn_intercalate (by simpa using h.cells_ne_nil) fun piece mem => ?_
      obtain ⟨cell, present, rfl⟩ := List.mem_map.mp mem
      exact (h.free cell present).1
    rw [Row.reread, ofLine, dropReturn, if_neg ends, pieces, List.map_map]
    simp [Function.comp_def]

end Row

namespace Table

variable {table before after : Table} {tree other stopped finished : Tree} {directory path : Path}
  {name stem : String} {recorded : Nat}

/-- A table that can be stored where another one is: it has the same schema, and its last id is
found under the record of the other one. -/
structure Becomes (before after : Table) (recorded : Nat) : Prop where
  storable : after.IsStorable
  directory_eq : after.directory = before.directory
  name_eq : after.name = before.name
  attributes_eq : after.attributes = before.attributes
  recorded_le : recorded ≤ after.lastId
  lastId_known : recorded = after.lastId ∨ after.lastId ∈ idsOf after.rows

theorem Becomes.lastId_lt (becomes : before.Becomes after recorded) (fits : recorded < idLimit) :
    after.lastId < idLimit :=
  lt_of_known fits becomes.lastId_known

theorem readSequence_eq (same : other.readText path = tree.readText path) :
    readSequence other path = readSequence tree path := by
  rw [readSequence, readSequence, same]

/-- A table that is stored to the end is loaded as it is written and read again. -/
theorem IsFiledAt.load_of_persist (filed : table.IsFiledAt path stem) (h : table.IsStorable)
    (fits : table.lastId < idLimit) (stored : table.persist tree = (.ok (), finished)) :
    load finished table.directory table.name = .ok table.reread := by
  have read := filed.readText_of_persist stored
  have sequence := readSequence_of_readText fits (read .sequence)
  exact load_eq_ok.mpr ⟨rfl, rfl, _, _, _, read .schema, read .rows, sequence,
    h.isReadFrom_reread (readAttributes_unlines h.attributes) (Nat.le_refl _) (.inl rfl)⟩

/-- Wherever storing the new table stops, the old table is loaded or the new one. -/
theorem Becomes.load_of_stopsIn (becomes : before.Becomes after recorded)
    (filed : before.IsFiledAt path stem)
    (loaded : load tree before.directory before.name = .ok before)
    (sequence : readSequence tree before.sequencePath = .ok recorded)
    (stops : Change.StopsIn after.persistChanges tree stopped) :
    load stopped before.directory before.name = .ok before ∨
      load stopped before.directory before.name = .ok after.reread := by
  obtain ⟨-, -, schema, rows, found, readSchema, readRows, readRecord, read⟩ :=
    load_eq_ok.mp loaded
  cases sequence.symm.trans readRecord
  have samePath : ∀ part, after.partPath part = before.partPath part := by
    intro part
    rw [partPath, partPath, file, file, becomes.directory_eq, becomes.name_eq]
  have filedAfter : after.IsFiledAt path stem :=
    ⟨filed.isStem, fun part => (samePath part).trans (filed.partPath_eq part)⟩
  have readPart : tree.readText (before.partPath .schema) = .ok schema := readSchema
  obtain ⟨home, enters⟩ := filed.exists_enters readPart
  obtain ⟨count, readParts⟩ := filedAfter.readText_of_stopsIn enters stops
  simp only [samePath] at readParts
  have sameSchema : readAttributes after.schemaText = before.attributes := by
    rw [← becomes.attributes_eq]
    exact readAttributes_unlines becomes.storable.attributes
  -- The last id of the new table is found under the old record and under its own.
  have readNew : ∀ {recorded}, recorded ≤ after.lastId →
      recorded = after.lastId ∨ after.lastId ∈ idsOf after.rows →
      after.reread.IsReadFrom after.schemaText after.rowsText recorded :=
    becomes.storable.isReadFrom_reread (readAttributes_unlines becomes.storable.attributes)
  rcases count with _ | _ | _ | count
  · exact .inl (load_eq_ok.mpr ⟨rfl, rfl, _, _, _, (readParts .schema).trans readSchema,
      (readParts .rows).trans readRows, (readSequence_eq (readParts .sequence)).trans sequence,
      read⟩)
  · exact .inl (load_eq_ok.mpr ⟨rfl, rfl, _, _, _, readParts .schema,
      (readParts .rows).trans readRows, (readSequence_eq (readParts .sequence)).trans sequence,
      sameSchema, read.head, read.rows_eq⟩)
  · exact .inr (load_eq_ok.mpr ⟨becomes.directory_eq, becomes.name_eq, _, _, _, readParts .schema,
      readParts .rows, (readSequence_eq (readParts .sequence)).trans sequence,
      readNew becomes.recorded_le becomes.lastId_known⟩)
  · exact .inr (load_eq_ok.mpr ⟨becomes.directory_eq, becomes.name_eq, _, _, _, readParts .schema,
      readParts .rows,
      readSequence_of_readText (becomes.lastId_lt (readSequence_lt sequence)) (readParts .sequence),
      readNew (Nat.le_refl _) (.inl rfl)⟩)

/-- A table that is stored where it was loaded is loaded again, whatever the texts of its files were
and wherever the storing stops, unless one of its rows ends in a carriage return. That one is part
of a cell where the line had one more, or no line feed behind it; it is lost, and nothing else is. -/
theorem load_of_rewritten (loaded : load tree directory name = .ok table) :
    ((∀ row ∈ table.rows, row.line.toList.getLast? ≠ some '\r') → ∀ stopped,
      Change.StopsIn table.persistChanges tree stopped →
        load stopped directory name = .ok table) ∧
    ∀ finished, table.persist tree = (.ok (), finished) →
      ∃ again, load finished directory name = .ok again ∧
        again.attributes = table.attributes ∧ again.lastId = table.lastId ∧
        again.rows.map (·.line.toList) = table.rows.map (dropReturn ·.line.toList) ∧
        (again = table ↔ ∀ row ∈ table.rows, row.line.toList.getLast? ≠ some '\r') := by
  obtain ⟨rfl, rfl, schema, rows, recorded, readSchema, -, sequence, read⟩ := load_eq_ok.mp loaded
  have storable := read.isStorable
  have fits := read.lastId_lt (readSequence_lt sequence)
  obtain ⟨path, stem, filed⟩ := @exists_isFiledAt table tree _ readSchema
  have same : table.reread = table ↔
      ∀ row ∈ table.rows, row.line.toList.getLast? ≠ some '\r' := by
    rw [reread_eq_iff]
    exact forall₂_congr fun row mem => (storable.rows row mem).reread_eq_iff
  refine ⟨fun noReturn stopped stops => ?_, fun finished stored => ?_⟩
  · have becomes : table.Becomes table recorded :=
      ⟨storable, rfl, rfl, rfl, read.lastId_cases.1, read.lastId_cases.2⟩
    rcases becomes.load_of_stopsIn filed loaded sequence stops with old | new
    · exact old
    · rw [new, same.mpr noReturn]
  · refine ⟨_, filed.load_of_persist storable fits stored, rfl, rfl, ?_, same⟩
    rw [reread, List.map_map]
    exact List.map_congr_left fun row _ => row.toList_line_reread

theorem load_of_rewritten_untidy :
    ∃ table, load untidyTable ⟨"d"⟩ "t" = .ok table ∧ (table.persist untidyTable).1 = .ok () ∧
      load (table.persist untidyTable).2 ⟨"d"⟩ "t" = .ok table := by
  let table : Table := ⟨"t", ⟨"d"⟩, ["id", "n"], [⟨["+7", "5"]⟩, ⟨["3", "''"]⟩], 7⟩
  have loaded : load untidyTable ⟨"d"⟩ "t" = .ok table := by decide +kernel
  refine ⟨table, loaded, by decide +kernel, (load_of_rewritten loaded).1 (by decide +kernel) _ ?_⟩
  exact Change.stopsIn_applyAll table.persistChanges untidyTable

/-- A line with two carriage returns keeps one of them, and loses it when it is written. -/
theorem load_of_rewritten_return :
    let tree := directoryOf [("t.txt", "id\nn\n"), ("t.tsv", "1\t'x'\r\r\n"), ("t.seq", "1\n")]
    ∃ table again, load tree ⟨"d"⟩ "t" = .ok table ∧ (table.persist tree).1 = .ok () ∧
      load (table.persist tree).2 ⟨"d"⟩ "t" = .ok again ∧
      table.rows = [⟨["1", "'x'\r"]⟩] ∧ again.rows = [⟨["1", "'x'"]⟩] :=
  ⟨⟨"t", ⟨"d"⟩, ["id", "n"], [⟨["1", "'x'\r"]⟩], 1⟩, ⟨"t", ⟨"d"⟩, ["id", "n"], [⟨["1", "'x'"]⟩], 1⟩,
    by decide +kernel⟩

end Table

end TabStore
