import TabStore.Proofs.Table.Sound

/-!
# Ids of rows

What the operations that edit a table do to the ids of its rows: they keep them. A table that has
just been created has no rows.

Results: `TableStatement.ids_alterTable`, `TableStatement.ids_updateTable` and
`TableStatement.rows_withAttributes`.
-/

namespace TabStore

/-- The ids of the rows of a table, as they are stored. -/
def Table.ids (table : Table) : List String := table.rows.map Row.id

namespace Table

variable {table after : Table}

theorem ids_update (sound : table.IsSound) {mask : List Bool} {assignments : List Assignment}
    (literals : ∀ a ∈ assignments, Value.isLiteral a.value = true) {count : Nat}
    (h : table.update mask assignments = (.ok count, after)) : after.ids = table.ids := by
  unfold update at h
  split at h
  · cases h
  · next changes resolved =>
    cases found : setRows changes mask table.rows with
    | mk outcome rows =>
      rw [found] at h
      cases h
      exact (setRows_ok (resolveAssignments_ok sound.head literals resolved) sound.rows found).2

theorem ids_appendAttribute (sound : table.IsSound) {name : String}
    (h : table.appendAttribute name = .ok after) : after.ids = table.ids := by
  obtain ⟨rest, attributes⟩ := sound.exists_attributes
  unfold appendAttribute at h
  split at h
  · cases h
  · cases h
    show (table.rows.map (·.push placeholder)).map Row.id = table.rows.map Row.id
    rw [List.map_map]
    refine List.map_congr_left fun row mem => ?_
    have soundRow := sound.rows row mem
    rw [attributes] at soundRow
    exact (soundRow.push isLiteral_placeholder).2

theorem ids_removeAttribute (sound : table.IsSound) {name : String}
    (h : table.removeAttribute name = (.ok (), after)) : after.ids = table.ids := by
  obtain ⟨rest, attributes⟩ := sound.exists_attributes
  unfold removeAttribute at h
  split at h
  · cases h
  · next notId =>
    split at h
    · cases h
    · next index found =>
      cases removed : removeCells index table.rows with
      | mk outcome rows =>
        rw [removed] at h
        cases h
        have soundRows : ∀ row ∈ table.rows, row.IsSound (rest.length + 1) := by
          intro row mem
          have soundRow := sound.rows row mem
          rwa [attributes] at soundRow
        exact (removeCells_ok (index_pos sound.head notId found) soundRows removed).2

end Table

namespace TableStatement

variable {table after : Table}

theorem ids_alterTable (sound : table.IsSound) {change : SchemaChange}
    (h : alterTable table change = .ok after) : after.ids = table.ids := by
  cases change with
  | add name => exact Table.ids_appendAttribute sound h
  | drop name =>
    obtain ⟨⟨⟩, removed⟩ := changed_ok h
    exact Table.ids_removeAttribute sound removed

theorem ids_updateTable (sound : table.IsSound) {assignments : List Assignment}
    {condition : Condition} (literals : ∀ a ∈ assignments, Value.isLiteral a.value = true)
    (h : updateTable table assignments condition = .ok after) : after.ids = table.ids := by
  obtain ⟨mask, -, h⟩ := bind_eq_ok.mp h
  obtain ⟨count, updated⟩ := changed_ok h
  exact Table.ids_update sound literals updated

theorem rows_withAttributes {names : List String} (empty : table.rows = [])
    (h : withAttributes table names = .ok after) : after.rows = [] := by
  induction names generalizing table with
  | nil =>
    cases h
    exact empty
  | cons name rest ih =>
    obtain ⟨between, added, h⟩ := bind_eq_ok.mp h
    refine ih ?_ h
    unfold Table.appendAttribute at added
    split at added
    · cases added
    · cases added
      rw [empty]
      rfl

end TableStatement

end TabStore
