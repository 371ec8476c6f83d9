import Mathlib.Data.List.Forall2
import TabStore.Proofs.Condition.Composition
import TabStore.Proofs.Table.Stored

/-!
# What selections show

The text of a selection is a line for each row with tabs between the cells, and nothing in it is
escaped. It is read back all the same: a selection finds every column that it looks for in every
row, and no name and no cell of a sound table has a tab or a line feed.

Results:
1. `Text.fields_unlines`: lines of fields without tabs and line feeds are read back;
2. `Condition.mask_eq_of_filter`: a mask tells of each row whether it satisfies the condition;
3. `ArePositions.filterMap_eq`, `IsSound.map_cellUnder?`: what stands at the positions of attributes
   is what is looked up under their names, and no cell is missing;
4. `selectText_eq`, `fields_selectText`: the text of a selection, and its fields.
-/

namespace TabStore

open Text

/-! ## Fields -/

/-- The fields of a text: what stands between tabs, line by line. -/
def Text.fields (text : String) : List (List String) :=
  (splitOn '\n' text.toList).map fun line => (splitOn '\t' line).map String.ofList

/-- A line with tabs between its fields. -/
structure IsFields (fields : List String) : Prop where
  some : fields ≠ []
  noTab : ∀ field ∈ fields, '\t' ∉ field.toList
  noFeed : ∀ field ∈ fields, '\n' ∉ field.toList

theorem IsFields.splitOn {fields : List String} (h : IsFields fields) :
    (Text.splitOn '\t' ("\t".intercalate fields).toList).map String.ofList = fields := by
  have pieces : Text.splitOn '\t' ("\t".intercalate fields).toList = fields.map String.toList := by
    rw [String.toList_intercalate]
    refine splitOn_intercalate (by simpa using h.some) fun piece mem => ?_
    obtain ⟨field, present, rfl⟩ := List.mem_map.mp mem
    exact h.noTab field present
  rw [pieces, List.map_map]
  simp [Function.comp_def]

theorem IsFields.no_feed {fields : List String} (h : IsFields fields) :
    '\n' ∉ ("\t".intercalate fields).toList := by
  intro mem
  rw [String.toList_intercalate] at mem
  rcases mem_intercalate mem with between | ⟨piece, present, inside⟩
  · exact absurd between (by decide)
  · obtain ⟨field, found, rfl⟩ := List.mem_map.mp present
    exact h.noFeed field found inside

/-- Lines of fields are read back; the last one ends with a line feed, and nothing follows it. -/
theorem Text.fields_unlines {rows : List (List String)} (h : ∀ row ∈ rows, IsFields row) :
    fields (unlines (rows.map "\t".intercalate)) = rows ++ [[""]] := by
  have lines : splitOn '\n' (unlines (rows.map "\t".intercalate)).toList =
      rows.map (fun row => ("\t".intercalate row).toList) ++ [[]] := by
    rw [splitOn_unlines, List.map_map]
    · rfl
    · intro line mem
      obtain ⟨row, present, rfl⟩ := List.mem_map.mp mem
      exact (h row present).no_feed
  have again : rows.map (fun row =>
      (splitOn '\t' ("\t".intercalate row).toList).map String.ofList) = rows :=
    (List.map_congr_left fun row mem => (h row mem).splitOn).trans rows.map_id'
  rw [fields, lines, List.map_append, List.map_map, Function.comp_def, again]
  rfl

/-! ## The rows that satisfy a condition -/

/-- Whether a row of a table satisfies a condition. -/
def Condition.holds (condition : Condition) (table : Table) (row : Row) : Bool :=
  decide (condition.evaluate table row = .ok true)

/-- The rows that satisfy a condition, which are all rows if there is none. -/
def Table.satisfying (table : Table) : Option Condition → List Row
  | none => table.rows
  | some condition => table.rows.filter (condition.holds table)

theorem Table.satisfying_sublist (table : Table) (condition : Option Condition) :
    (table.satisfying condition).Sublist table.rows := by
  cases condition with
  | none => exact List.Sublist.refl _
  | some condition => exact List.filter_sublist

/-- A mask tells of each row whether it satisfies the condition. -/
theorem Condition.mask_eq_of_filter {condition : Condition} {table : Table} {mask : List Bool}
    (h : condition.filter table = .ok mask) :
    mask = table.rows.map (condition.holds table) := by
  obtain ⟨-, evaluated⟩ := check_bind_eq_ok.mp h
  have outcomes := mapM_eq_ok.mp evaluated
  clear h evaluated
  generalize table.rows = rows at outcomes ⊢
  induction outcomes with
  | nil => rfl
  | cons evaluated _ ih =>
    rw [List.map_cons, ← ih, holds, evaluated]
    simp

theorem Table.selected_map (p : Row → Bool) (rows : List Row) :
    selected (rows.map p) rows = rows.filter p := by
  induction rows with
  | nil => rfl
  | cons row rest ih => rw [List.map_cons, selected, List.filter_cons, ih]

/-! ## Cells by names -/

/-- The cell of a row that stands under the name of an attribute. -/
def Row.cellUnder? (attributes : List String) (row : Row) (name : String) : Option String :=
  (attributes.zip row.cells).lookup name

/-- The names of the attributes that a projection shows. -/
def Projection.namesIn (attributes : List String) : Projection → List String
  | .all => attributes
  | .columns names => names

/-- What is looked up under a name stands where the name is found first. -/
theorem lookup_zip {names cells : List String} {name : String} {index : Nat}
    (found : names.findIdx? (· == name) = some index) :
    (names.zip cells).lookup name = cells[index]? := by
  induction names generalizing cells index with
  | nil => cases found
  | cons first rest ih =>
    cases cells with
    | nil => rfl
    | cons cell more =>
      rw [List.findIdx?_cons] at found
      rw [List.zip_cons_cons, List.lookup_cons]
      cases here : first == name with
      | true =>
        rw [here] at found
        cases found
        rw [beq_iff_eq.mp here, beq_self_eq_true]
        rfl
      | false =>
        rw [here] at found
        obtain ⟨before, later, rfl⟩ := Option.map_eq_some_iff.mp found
        rw [BEq.comm, here, ih later]
        rfl

/-- Every attribute has a cell in a row of the schema's width. -/
theorem Row.cellUnder?_of_mem {attributes : List String} {name : String}
    (present : name ∈ attributes) {row : Row} (width : row.width = attributes.length) :
    ∃ inside : attributes.idxOf name < row.cells.length,
      row.cellUnder? attributes name = some row.cells[attributes.idxOf name] := by
  have found : attributes.findIdx? (· == name) = some (attributes.idxOf name) :=
    List.findIdx?_eq_some_of_exists ⟨name, present, beq_self_eq_true name⟩
  have inside : attributes.idxOf name < row.cells.length :=
    (List.idxOf_lt_length_of_mem present).trans_eq width.symm
  exact ⟨inside, (lookup_zip found).trans (List.getElem?_eq_getElem inside)⟩

theorem filterMap_range {α : Type} (list : List α) :
    (List.range list.length).filterMap (list[·]?) = list := by
  induction list with
  | nil => rfl
  | cons first rest ih =>
    rw [List.length_cons, List.range_succ_eq_map, List.filterMap_cons, List.filterMap_map]
    exact congrArg (first :: ·) ih

namespace Table

variable {table : Table}

theorem cellUnder?_eq {name : String} {index : Nat} (found : table.attributeIndex name = .ok index)
    (row : Row) : row.cellUnder? table.attributes name = row.cell? index := by
  unfold attributeIndex at found
  split at found
  · next first =>
    cases found
    exact lookup_zip first
  · cases found

theorem exists_attributeIndex {name : String} (mem : name ∈ table.attributes) :
    ∃ index, table.attributeIndex name = .ok index :=
  ⟨_, attributeIndex_of_mem mem⟩

/-- The positions that stand for the names of attributes. -/
def ArePositions (table : Table) (names : List String) (indices : List Nat) : Prop :=
  List.Forall₂ (fun name index => table.attributeIndex name = .ok index) names indices

theorem exists_arePositions {names : List String} (h : ∀ name ∈ names, name ∈ table.attributes) :
    ∃ indices, table.ArePositions names indices := by
  induction names with
  | nil => exact ⟨[], .nil⟩
  | cons name rest ih =>
    rw [List.forall_mem_cons] at h
    obtain ⟨index, found⟩ := exists_attributeIndex h.1
    obtain ⟨later, positions⟩ := ih h.2
    exact ⟨index :: later, .cons found positions⟩

/-- All attributes stand at all positions, since no name is there twice. -/
theorem arePositions_range (nodup : table.attributes.Nodup) :
    table.ArePositions table.attributes (List.range table.attributes.length) := by
  rw [ArePositions, List.forall₂_iff_get]
  refine ⟨List.length_range.symm, fun i inside _ => ?_⟩
  obtain ⟨index, found⟩ := exists_attributeIndex (List.getElem_mem inside)
  obtain ⟨bound, same⟩ := attributeIndex_ok found
  have first : index = i := (nodup.getElem_inj_iff).mp same
  simpa [first] using found

/-- A projection of attributes finds the position of each of them. -/
theorem exists_indices (nodup : table.attributes.Nodup) {columns : Projection}
    (present : ∀ name ∈ columns.namesIn table.attributes, name ∈ table.attributes) :
    ∃ indices, table.projectionIndices columns = .ok indices ∧
      table.ArePositions (columns.namesIn table.attributes) indices := by
  cases columns with
  | all => exact ⟨_, rfl, arePositions_range nodup⟩
  | columns names =>
    obtain ⟨indices, positions⟩ := exists_arePositions present
    exact ⟨indices, mapM_eq_ok.mpr positions, positions⟩

namespace ArePositions

variable {names : List String} {indices : List Nat}

/-- What stands at the positions of some names is what is looked up under these names. -/
theorem filterMap_eq {α : Type} (h : table.ArePositions names indices) {at? : Nat → Option α}
    {under? : String → Option α}
    (same : ∀ name index, table.attributeIndex name = .ok index → at? index = under? name) :
    indices.filterMap at? = names.filterMap under? := by
  induction h with
  | nil => rfl
  | cons found _ ih => rw [List.filterMap_cons, List.filterMap_cons, same _ _ found, ih]

theorem attributes_eq (h : table.ArePositions names indices) :
    indices.filterMap (table.attributes[·]?) = names := by
  have named : indices.filterMap (table.attributes[·]?) = names.filterMap some := by
    refine h.filterMap_eq fun name index found => ?_
    obtain ⟨inside, same⟩ := attributeIndex_ok found
    exact List.getElem?_eq_some_iff.mpr ⟨inside, same⟩
  rw [named, List.filterMap_some]

end ArePositions

/-! ## The data of a selection -/

/-- What a selection is to show: the names of the attributes, and the cells under them of each row
that satisfies the condition. -/
def shown (table : Table) (columns : Projection) (condition : Option Condition) :
    List (List (Option String)) :=
  let names := columns.namesIn table.attributes
  names.map some :: (table.satisfying condition).map fun row =>
    names.map (row.cellUnder? table.attributes)

/-- A selection that goes through: it names attributes, and its condition filters the table. -/
structure Admits (table : Table) (columns : Projection) (condition : Option Condition) : Prop where
  notNone : columns ≠ .columns []
  present : ∀ name ∈ columns.namesIn table.attributes, name ∈ table.attributes
  filters : ∀ c, condition = some c → ∃ mask, c.filter table = .ok mask

namespace IsSound

variable {row : Row} {names : List String}

theorem cellUnder?_eq_some (sound : table.IsSound) (mem : row ∈ table.rows) {name : String}
    (present : name ∈ table.attributes) :
    ∃ cell ∈ row.cells, row.cellUnder? table.attributes name = some cell := by
  obtain ⟨index, found⟩ := exists_attributeIndex present
  obtain ⟨inside, -⟩ := attributeIndex_ok found
  have width : row.cells.length = table.attributes.length := (sound.rows row mem).width_eq
  rw [← width] at inside
  refine ⟨row.cells[index], List.getElem_mem inside, ?_⟩
  rw [cellUnder?_eq found, Row.cell?, List.getElem?_eq_getElem inside]

/-- No cell is passed over. -/
theorem map_cellUnder? (sound : table.IsSound) (mem : row ∈ table.rows)
    (present : ∀ name ∈ names, name ∈ table.attributes) :
    (names.filterMap (row.cellUnder? table.attributes)).map some =
      names.map (row.cellUnder? table.attributes) := by
  induction names with
  | nil => rfl
  | cons name rest ih =>
    rw [List.forall_mem_cons] at present
    obtain ⟨cell, -, found⟩ := sound.cellUnder?_eq_some mem present.1
    rw [List.filterMap_cons, found, List.map_cons, List.map_cons, ih present.2, found]

/-- Under all attributes stand all cells. -/
theorem filterMap_cellUnder? (sound : table.IsSound) (mem : row ∈ table.rows) :
    table.attributes.filterMap (row.cellUnder? table.attributes) = row.cells := by
  have width : row.cells.length = table.attributes.length := (sound.rows row mem).width_eq
  have positions := arePositions_range sound.nodup
  rw [← positions.filterMap_eq fun _ _ found => (cellUnder?_eq found row).symm, ← width]
  exact filterMap_range row.cells

theorem isFields_names (sound : table.IsSound) (some : names ≠ [])
    (present : ∀ name ∈ names, name ∈ table.attributes) : IsFields names where
  some := some
  noTab name mem := (sound.isName name (present name mem)).no_break (by decide)
  noFeed name mem := (sound.isName name (present name mem)).no_break (by decide)

theorem isFields_cells (sound : table.IsSound) (mem : row ∈ table.rows) (some : names ≠ [])
    (present : ∀ name ∈ names, name ∈ table.attributes) :
    IsFields (names.filterMap (row.cellUnder? table.attributes)) := by
  obtain ⟨rest, attributes⟩ := sound.exists_attributes
  obtain ⟨n, numbered, -⟩ := sound.exists_number mem
  have soundRow := sound.rows row mem
  rw [attributes, List.length_cons] at soundRow
  have noBreak : ∀ cell ∈ names.filterMap (row.cellUnder? table.attributes), ∀ c ∈ breaks,
      c ∉ cell.toList := by
    intro cell among
    obtain ⟨name, asked, found⟩ := List.mem_filterMap.mp among
    obtain ⟨other, inRow, same⟩ := sound.cellUnder?_eq_some mem (present name asked)
    cases same.symm.trans found
    exact fun c => soundRow.no_break numbered inRow
  refine ⟨fun empty => ?_, fun cell among => ?_, fun cell among => ?_⟩
  · have none := sound.map_cellUnder? mem present
    rw [empty, List.map_nil, eq_comm, List.map_eq_nil_iff] at none
    exact some none
  · exact noBreak cell among _ (by decide)
  · exact noBreak cell among _ (by decide)

end IsSound

end Table

namespace TableStatement

variable {table : Table} {columns : Projection} {condition : Option Condition}

/-- The text of a selection is that of the names and of the cells under them. -/
theorem selectText_eq (sound : table.IsSound) (admits : table.Admits columns condition) :
    selectText table columns condition = .ok (Text.unlines
      ((columns.namesIn table.attributes :: (table.satisfying condition).map fun row =>
        (columns.namesIn table.attributes).filterMap (row.cellUnder? table.attributes)).map
          "\t".intercalate)) := by
  obtain ⟨indices, found, positions⟩ := Table.exists_indices sound.nodup admits.present
  have cells : ∀ row : Row, indices.filterMap row.cell? =
      (columns.namesIn table.attributes).filterMap (row.cellUnder? table.attributes) :=
    fun row => positions.filterMap_eq fun _ _ at? => (Table.cellUnder?_eq at? row).symm
  rw [selectText, found, ok_bind]
  cases condition with
  | none =>
    simp only [ok_bind, pure_eq_ok, Table.render, positions.attributes_eq, cells, Table.satisfying]
  | some condition =>
    obtain ⟨mask, filtered⟩ := admits.filters condition rfl
    simp only [filtered, map_ok, ok_bind, pure_eq_ok, Table.render, positions.attributes_eq, cells,
      Table.satisfying, Condition.mask_eq_of_filter filtered, Table.selected_map]

/-- The fields of the text of a selection are what it is to show; its last line ends as well. -/
theorem fields_selectText (sound : table.IsSound) (admits : table.Admits columns condition) :
    ∃ text, selectText table columns condition = .ok text ∧
      (Text.fields text).map (·.map some) = table.shown columns condition ++ [[some ""]] := by
  refine ⟨_, selectText_eq sound admits, ?_⟩
  have rows := (table.satisfying_sublist condition).subset
  have named : columns.namesIn table.attributes ≠ [] := by
    cases columns with
    | all =>
      obtain ⟨rest, attributes⟩ := sound.exists_attributes
      exact attributes ▸ List.cons_ne_nil _ _
    | columns names => exact fun empty => admits.notNone (congrArg Projection.columns empty)
  rw [Text.fields_unlines, List.map_append, List.map_cons, List.map_map, Table.shown]
  · refine congrArg (fun cells => _ :: cells ++ _) (List.map_congr_left fun row mem => ?_)
    exact sound.map_cellUnder? (rows mem) admits.present
  · rw [List.forall_mem_cons, List.forall_mem_map]
    exact ⟨sound.isFields_names named admits.present, fun row mem =>
      sound.isFields_cells (rows mem) named admits.present⟩

end TableStatement

end TabStore
