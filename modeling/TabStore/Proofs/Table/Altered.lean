import TabStore.Proofs.Table.Shown

/-!
# Tables with a column added or removed

The schema and the rows are edited apart, by position, and all columns behind a removed one move up.
Looked up by its name, every other column is as before, and a column that is added and removed again
leaves no trace.

Results:
1. `cellUnder?_push`, `lookup_zip_eraseIdx`: what a row holds under the other attributes;
2. `removeCells_eq`: the cells of a column can be removed if all rows reach it;
3. `altered_columns`: what adding and removing a column does to a table.
-/

namespace TabStore

theorem eraseIdx_concat {α : Type} (list : List α) (a : α) :
    (list ++ [a]).eraseIdx list.length = list := by
  rw [List.eraseIdx_append_of_length_le (Nat.le_refl _), Nat.sub_self, List.eraseIdx_cons_zero,
    List.append_nil]

/-- Without one name and what stands there, all else is looked up as before. -/
theorem lookup_zip_eraseIdx {names cells : List String} {name other : String}
    (different : other ≠ name) :
    ((names.eraseIdx (names.idxOf name)).zip (cells.eraseIdx (names.idxOf name))).lookup other =
      (names.zip cells).lookup other := by
  induction names generalizing cells with
  | nil => rfl
  | cons first rest ih =>
    cases cells with
    | nil => rw [List.eraseIdx_nil, List.zip_nil_right, List.zip_nil_right]
    | cons cell more =>
      by_cases here : first = name
      · subst here
        rw [List.idxOf_cons_self, List.eraseIdx_cons_zero, List.eraseIdx_cons_zero,
          List.zip_cons_cons, List.lookup_cons, beq_false_of_ne different]
      · rw [List.idxOf_cons_ne _ here, List.eraseIdx_cons_succ, List.eraseIdx_cons_succ,
          List.zip_cons_cons, List.zip_cons_cons, List.lookup_cons, List.lookup_cons, ih]

namespace Row

variable {attributes : List String} {row : Row} {name : String}

theorem cellUnder?_of_not_mem (absent : name ∉ attributes) :
    row.cellUnder? attributes name = none := by
  rw [cellUnder?, List.lookup_eq_none_iff]
  intro entry mem
  exact bne_iff_ne.mpr fun same => absent (same ▸ (List.of_mem_zip mem).1)

/-- A cell that is pushed stands under the name behind the others. -/
theorem cellUnder?_push (width : row.width = attributes.length) (last cell : String) :
    (row.push cell).cellUnder? (attributes ++ [last]) name =
      (row.cellUnder? attributes name).or ([(last, cell)].lookup name) := by
  rw [cellUnder?, push, List.zip_append width.symm, List.lookup_append]
  rfl

end Row

namespace Table

variable {table : Table} {name other : String}

/-- The cells of a column, row by row, looked up by its name. -/
def column (table : Table) (name : String) : List (Option String) :=
  table.rows.map (·.cellUnder? table.attributes name)

/-! ## Adding a column -/

/-- A table with a column of placeholders at the end. -/
def withColumn (table : Table) (name : String) : Table :=
  { table with
    attributes := table.attributes ++ [name]
    rows := table.rows.map (·.push placeholder) }

theorem appendAttribute_eq (new : name ∉ table.attributes) :
    table.appendAttribute name = .ok (table.withColumn name) :=
  if_neg (by rwa [List.contains_iff_mem])

theorem IsRectangular.withColumn (rectangular : table.IsRectangular) (name : String) :
    (table.withColumn name).IsRectangular := by
  refine List.forall_mem_map.mpr fun row mem => ?_
  have width : row.cells.length = table.attributes.length := rectangular row mem
  rw [Row.width, Row.push, Table.withColumn, List.length_append, List.length_append, width]
  rfl

theorem column_withColumn_self (rectangular : table.IsRectangular) (new : name ∉ table.attributes) :
    (table.withColumn name).column name = List.replicate table.rows.length (some placeholder) := by
  rw [column, withColumn, List.map_map, ← List.map_const']
  refine List.map_congr_left fun row mem => ?_
  rw [Function.comp_apply, Row.cellUnder?_push (rectangular row mem), Row.cellUnder?_of_not_mem new,
    List.lookup_cons, beq_self_eq_true]
  rfl

theorem column_withColumn_of_mem (rectangular : table.IsRectangular)
    (old : other ∈ table.attributes) :
    (table.withColumn name).column other = table.column other := by
  rw [column, column, withColumn, List.map_map]
  refine List.map_congr_left fun row mem => ?_
  obtain ⟨_, found⟩ := Row.cellUnder?_of_mem old (rectangular row mem)
  rw [Function.comp_apply, Row.cellUnder?_push (rectangular row mem), found]
  rfl

/-! ## Removing a column -/

/-- A table without the column of an attribute. -/
def withoutColumn (table : Table) (name : String) : Table :=
  let index := table.attributes.idxOf name
  { table with
    attributes := table.attributes.eraseIdx index
    rows := table.rows.map fun row => ⟨row.cells.eraseIdx index⟩ }

theorem removeCells_eq {index : Nat} {rows : List Row} (reached : ∀ row ∈ rows, index < row.width) :
    removeCells index rows = (.ok (), rows.map fun row => ⟨row.cells.eraseIdx index⟩) := by
  induction rows with
  | nil => rfl
  | cons row rest ih =>
    rw [List.forall_mem_cons] at reached
    have removed : row.remove index = .ok ⟨row.cells.eraseIdx index⟩ := if_pos reached.1
    rw [removeCells, removed, List.map_cons]
    dsimp only
    rw [ih reached.2]

theorem removeAttribute_eq (rectangular : table.IsRectangular) (notId : name ≠ idAttribute)
    (present : name ∈ table.attributes) :
    table.removeAttribute name = (.ok (), table.withoutColumn name) := by
  have reached : ∀ row ∈ table.rows, table.attributes.idxOf name < row.width := fun row mem =>
    (List.idxOf_lt_length_of_mem present).trans_eq (rectangular row mem).symm
  rw [removeAttribute, if_neg notId, attributeIndex_of_mem present]
  dsimp only
  rw [removeCells_eq reached]
  rfl

theorem IsRectangular.withoutColumn (rectangular : table.IsRectangular)
    (present : name ∈ table.attributes) :
    (table.withoutColumn name).IsRectangular := by
  refine List.forall_mem_map.mpr fun row mem => ?_
  have width : row.cells.length = table.attributes.length := rectangular row mem
  have inside := List.idxOf_lt_length_of_mem present
  rw [Row.width, Table.withoutColumn, List.length_eraseIdx_of_lt inside,
    List.length_eraseIdx_of_lt (inside.trans_eq width.symm), width]

theorem column_withoutColumn (different : other ≠ name) :
    (table.withoutColumn name).column other = table.column other := by
  rw [column, column, withoutColumn, List.map_map]
  exact List.map_congr_left fun row _ => lookup_zip_eraseIdx different

/-- A column that is added stands at the end, so removing it moves nothing. -/
theorem withoutColumn_withColumn (rectangular : table.IsRectangular)
    (new : name ∉ table.attributes) :
    (table.withColumn name).withoutColumn name = table := by
  have last : (table.attributes ++ [name]).idxOf name = table.attributes.length := by
    rw [List.idxOf_append_of_notMem new, List.idxOf_cons_self, Nat.add_zero]
  have rows : (table.rows.map (·.push placeholder)).map (fun row =>
      Row.mk (row.cells.eraseIdx table.attributes.length)) = table.rows := by
    rw [List.map_map]
    refine (List.map_congr_left fun row mem => ?_).trans (List.map_id _)
    exact congrArg Row.mk (rectangular row mem ▸ eraseIdx_concat row.cells placeholder)
  rw [withoutColumn, withColumn]
  dsimp only
  rw [last, rows, eraseIdx_concat]

/-! ## Main result -/

/-- A new attribute gets a column of empty string literals at the end, every other column stays, and
removing the attribute again gives the table back. Every attribute but `id` can be removed: the
others keep their order and their columns, and all rows are as wide as the schema again. -/
theorem altered_columns (head : table.attributes.head? = some idAttribute)
    (rectangular : table.IsRectangular) :
    (∀ name ∉ table.attributes, ∃ after, table.appendAttribute name = .ok after ∧
      after.attributes = table.attributes ++ [name] ∧ after.lastId = table.lastId ∧
      (∀ other ∈ table.attributes, after.column other = table.column other) ∧
      after.column name = List.replicate table.rows.length (some "''") ∧
      after.IsRectangular ∧
      after.removeAttribute name = (.ok (), table)) ∧
    ∀ name ∈ table.attributes, name ≠ idAttribute → ∃ after,
      table.removeAttribute name = (.ok (), after) ∧
      after.attributes = table.attributes.erase name ∧ after.lastId = table.lastId ∧
      (∀ other ∈ table.attributes, other ≠ name → after.column other = table.column other) ∧
      after.IsRectangular := by
  refine ⟨fun name new => ?_, fun name present notId => ?_⟩
  · have notId : name ≠ idAttribute := fun same => new (same ▸ List.mem_of_mem_head? head)
    have restored : (table.withColumn name).removeAttribute name = (.ok (), table) := by
      rw [removeAttribute_eq (IsRectangular.withColumn rectangular name) notId
        (List.mem_append_right _ (List.mem_singleton_self name)),
        withoutColumn_withColumn rectangular new]
    exact ⟨_, appendAttribute_eq new, rfl, rfl,
      fun other old => column_withColumn_of_mem rectangular old,
      column_withColumn_self rectangular new, IsRectangular.withColumn rectangular name, restored⟩
  · exact ⟨_, removeAttribute_eq rectangular notId present,
      List.eraseIdx_idxOf_eq_erase name table.attributes, rfl,
      fun other _ different => column_withoutColumn different,
      IsRectangular.withoutColumn rectangular present⟩

/-- The column in the middle is removed, and a column is added and removed. -/
theorem altered_columns_middle :
    let table : Table := ⟨"t", ⟨"d"⟩, ["id", "n", "m"], [⟨["1", "2", "3"]⟩, ⟨["4", "5", "6"]⟩], 4⟩
    table.attributes.head? = some idAttribute ∧
      table.IsRectangular ∧
      (∃ after, table.appendAttribute "x" = .ok after ∧
        after.column "x" = [some "''", some "''"] ∧ after.column "m" = [some "3", some "6"] ∧
        after.removeAttribute "x" = (.ok (), table)) ∧
      ∃ after, table.removeAttribute "n" = (.ok (), after) ∧ after.attributes = ["id", "m"] ∧
        after.column "m" = [some "3", some "6"] := by
  intro table
  have head : table.attributes.head? = some idAttribute := rfl
  have rectangular : table.IsRectangular := by decide
  obtain ⟨adds, removes⟩ := altered_columns head rectangular
  obtain ⟨added, appended, -, -, stays, new, -, restored⟩ := adds "x" (by decide)
  obtain ⟨left, removed, names, -, kept, -⟩ := removes "n" (by decide) (by decide)
  exact ⟨head, rectangular, ⟨added, appended, new, stays "m" (by decide), restored⟩, left, removed,
    names, kept "m" (by decide) (by decide)⟩

end Table

end TabStore
