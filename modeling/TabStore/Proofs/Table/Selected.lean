import TabStore.Proofs.Table.Masked

/-!
# Rows that a condition selects

SELECT shows the rows that its mask selects, DELETE drops them while it runs through the rows, and
UPDATE sets their cells in place, by position. All three deal with the rows that satisfy the
condition, and with these rows only.

Results:
1. `setCells_eq`: setting cells by position assigns values to attributes;
2. `selectText_all`, `deleteRows_eq`, `updateTable_eq`: what the three statements do, told by the
   rows that satisfy the condition;
3. `fails_alike`: they fail alike where the condition fails.
-/

namespace TabStore

/-- A row with values assigned to some of its attributes. -/
def Row.assigned (attributes : List String) (assignments : List Assignment) (row : Row) : Row :=
  ⟨List.zipWith (fun name cell =>
    ((assignments.find? (·.target = name)).map Assignment.value).getD cell) attributes row.cells⟩

/-- Which of some assignments to different attributes comes last makes no difference. -/
theorem find?_reverse {assignments : List Assignment}
    (targets : (assignments.map Assignment.target).Nodup) (name : String) :
    assignments.reverse.find? (·.target = name) = assignments.find? (·.target = name) := by
  induction assignments with
  | nil => rfl
  | cons a rest ih =>
    rw [List.map_cons, List.nodup_cons] at targets
    rw [List.reverse_cons, List.find?_append, ih targets.2, List.find?_cons]
    by_cases here : a.target = name
    · have later : rest.find? (·.target = name) = none := by
        rw [List.find?_eq_none]
        intro other mem found
        have target := (of_decide_eq_true found).trans here.symm
        exact targets.1 (target ▸ List.mem_map_of_mem mem)
      simp [later, here]
    · simp [here]

/-- Cells that are set by position are values that are assigned to attributes, if no name is there
twice and no attribute is assigned twice. -/
theorem Row.overwritten_eq_assigned {attributes : List String} (nodup : attributes.Nodup)
    {assignments : List Assignment} (targets : (assignments.map Assignment.target).Nodup)
    {row : Row} (width : row.width = attributes.length) :
    row.overwritten attributes assignments = row.assigned attributes assignments := by
  have cells : row.cells.length = attributes.length := width
  refine congrArg Row.mk (List.ext_getElem ?_ fun i _ second => ?_)
  · rw [List.length_mapIdx, List.length_zipWith, cells, Nat.min_self]
  · have inside : i < attributes.length :=
      (List.length_zipWith ▸ second).trans_le (Nat.min_le_left _ _)
    have same : ∀ a : Assignment,
        decide (attributes.idxOf a.target = i) = decide (a.target = attributes[i]) := by
      intro a
      refine decide_eq_decide.mpr ⟨?_, fun named => named ▸ nodup.idxOf_getElem i inside⟩
      rintro rfl
      exact (List.getElem_idxOf inside).symm
    rw [List.getElem_mapIdx, List.getElem_zipWith, funext same, find?_reverse targets]

namespace Table

variable {table : Table}

/-- Cells that are set by position are values that are assigned to attributes. -/
theorem setCells_eq (nodup : table.attributes.Nodup) {assignments : List Assignment}
    (targets : (assignments.map Assignment.target).Nodup) {changes : List (Nat × String)}
    (resolved : table.resolveAssignments assignments = .ok changes) :
    (∀ a ∈ assignments, a.target ∈ table.attributes) ∧
    ∀ row : Row, row.cells.length = table.attributes.length →
      setCells changes row = (.ok (), row.assigned table.attributes assignments) := by
  cases accepted : assignments.findSome? table.refusal? with
  | some e => cases (resolveAssignments_eq_error accepted).symm.trans resolved
  | none =>
    cases (resolveAssignments_eq_ok accepted).symm.trans resolved
    have present : ∀ a ∈ assignments, a.target ∈ table.attributes := fun a mem =>
      (refusal?_eq_none.mp (List.findSome?_eq_none_iff.mp accepted a mem)).2
    refine ⟨present, fun row width => ?_⟩
    rw [setCells_eq_overwritten present width, Row.overwritten_eq_assigned nodup targets width]

theorem unselected_map (p : Row → Bool) (rows : List Row) :
    unselected (rows.map p) rows = rows.filter fun row => !p row := by
  induction rows with
  | nil => rfl
  | cons row rest ih =>
    rw [List.map_cons, unselected, List.filter_cons, ih]
    cases p row <;> rfl

theorem setRows_map {p : Row → Bool} {f : Row → Row} {changes : List (Nat × String)}
    {rows : List Row} (set : ∀ row ∈ rows, setCells changes row = (.ok (), f row)) :
    setRows changes (rows.map p) rows =
      (.ok (rows.countP p), rows.map fun row => if p row then f row else row) := by
  induction rows with
  | nil => rfl
  | cons row rest ih =>
    rw [List.forall_mem_cons] at set
    rw [List.map_cons, setRows, ih set.2, set.1, List.countP_cons, List.map_cons]
    cases p row <;> rfl

end Table

namespace TableStatement

variable {table : Table} {condition : Condition}

/-- Where the condition fails, all three statements fail with the same error. -/
theorem fails_alike {e : Error} (failed : condition.filter table = .error e) :
    selectText table .all (some condition) = .error e ∧
      deleteRows table condition = .error e ∧
      ∀ assignments, updateTable table assignments condition = .error e := by
  refine ⟨?_, ?_, fun assignments => ?_⟩
  · rw [selectText, Table.projectionIndices, ok_bind]
    dsimp only
    rw [failed, map_error, error_bind]
  · rw [deleteRows, failed, error_bind]
  · rw [updateTable, failed, error_bind]

variable {mask : List Bool}

/-- SELECT shows the attributes and the rows that satisfy the condition. -/
theorem selectText_all (sound : table.IsSound) (filtered : condition.filter table = .ok mask) :
    selectText table .all (some condition) = .ok (Text.unlines ("\t".intercalate table.attributes ::
      (table.rows.filter (condition.holds table)).map Row.line)) := by
  have admits : table.Admits .all (some condition) := by
    refine ⟨nofun, fun _ mem => mem, ?_⟩
    rintro _ ⟨⟩
    exact ⟨mask, filtered⟩
  have lines : (table.rows.filter (condition.holds table)).map (fun row => "\t".intercalate
      (table.attributes.filterMap (row.cellUnder? table.attributes))) =
        (table.rows.filter (condition.holds table)).map Row.line := by
    refine List.map_congr_left fun row mem => congrArg "\t".intercalate ?_
    exact sound.filterMap_cellUnder? (List.mem_of_mem_filter mem)
  rw [selectText_eq sound admits, List.map_cons, List.map_map, ← lines]
  rfl

/-- DELETE leaves the rows that do not satisfy the condition. -/
theorem deleteRows_eq (filtered : condition.filter table = .ok mask) :
    deleteRows table condition = .ok { table with
      rows := table.rows.filter fun row => !condition.holds table row } := by
  rw [deleteRows, filtered, ok_bind, pure_eq_ok, Table.delete,
    Condition.mask_eq_of_filter filtered, Table.unselected_map]

/-- Where the attributes are found and the condition filters the table, UPDATE succeeds. -/
theorem updateTable_of_resolved (sound : table.IsSound)
    (filtered : condition.filter table = .ok mask) {assignments : List Assignment}
    (targets : (assignments.map Assignment.target).Nodup) {changes : List (Nat × String)}
    (resolved : table.resolveAssignments assignments = .ok changes) :
    updateTable table assignments condition = .ok { table with
      rows := table.rows.map fun row =>
        if condition.holds table row then row.assigned table.attributes assignments else row } := by
  obtain ⟨-, set⟩ := Table.setCells_eq sound.nodup targets resolved
  rw [updateTable, filtered, ok_bind, Table.update, resolved]
  dsimp only
  rw [Condition.mask_eq_of_filter filtered,
    Table.setRows_map fun row mem => set row (sound.rows row mem).width_eq]
  rfl

/-- An UPDATE that succeeds has found its attributes. -/
theorem resolved_of_updateTable {assignments : List Assignment} {after : Table}
    (updated : updateTable table assignments condition = .ok after) :
    ∃ changes, table.resolveAssignments assignments = .ok changes := by
  obtain ⟨_, -, updated⟩ := bind_eq_ok.mp updated
  obtain ⟨_, updated⟩ := changed_ok updated
  unfold Table.update at updated
  split at updated
  · cases updated
  · next changes resolved => exact ⟨changes, resolved⟩

/-- UPDATE assigns values in the rows that satisfy the condition. -/
theorem updateTable_eq (sound : table.IsSound) (filtered : condition.filter table = .ok mask)
    {assignments : List Assignment} (targets : (assignments.map Assignment.target).Nodup)
    {after : Table} (updated : updateTable table assignments condition = .ok after) :
    (∀ a ∈ assignments, a.target ∈ table.attributes) ∧
      after = { table with
        rows := table.rows.map fun row =>
          if condition.holds table row then row.assigned table.attributes assignments
          else row } := by
  obtain ⟨_, resolved⟩ := resolved_of_updateTable updated
  cases updated.symm.trans (updateTable_of_resolved sound filtered targets resolved)
  exact ⟨(Table.setCells_eq sound.nodup targets resolved).1, rfl⟩

/-- Whether or not a condition could be read and filters a table, the three statements fail
alike, or one choice of rows tells what each of them does. -/
theorem fail_or_choose (sound : table.IsSound) (read : Result Condition) :
    (∃ e, (do selectText table .all (some (← read))) = .error e ∧
      (do deleteRows table (← read)) = .error e ∧
      ∀ assignments, (do updateTable table assignments (← read)) = .error e) ∨
    ∃ chosen : Row → Bool,
      (do selectText table .all (some (← read))) = .ok (Text.unlines
        ("\t".intercalate table.attributes :: (table.rows.filter chosen).map Row.line)) ∧
      (do deleteRows table (← read)) = .ok { table with
        rows := table.rows.filter fun row => !chosen row } ∧
      ∀ assignments after, (assignments.map Assignment.target).Nodup →
        (do updateTable table assignments (← read)) = .ok after →
        (∀ a ∈ assignments, a.target ∈ table.attributes) ∧ after = { table with
          rows := table.rows.map fun row =>
            if chosen row then row.assigned table.attributes assignments else row } := by
  cases read with
  | error e => exact .inl ⟨e, rfl, rfl, fun _ => rfl⟩
  | ok condition =>
    cases filtered : condition.filter table with
    | error e => exact .inl ⟨e, fails_alike filtered⟩
    | ok mask =>
      refine .inr ⟨condition.holds table, selectText_all sound filtered, deleteRows_eq filtered, ?_⟩
      exact fun assignments after targets updated => updateTable_eq sound filtered targets updated

end TableStatement

end TabStore
