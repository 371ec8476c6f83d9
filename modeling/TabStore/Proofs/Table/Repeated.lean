import TabStore.Proofs.Condition.Attributes
import TabStore.Proofs.Table.Selected

/-!
# Changing rows twice

What an UPDATE or a DELETE does a second time. The first run may change the cells that its condition
compares: rows then leave the selection, or cannot be compared any more. No row enters it, since a
row that was not selected is as it was, and a condition looks at one row at a time.

Results:
1. `Condition.holds_withRows`: a row is selected by itself;
2. `Row.assigned_assigned`: values that are assigned twice are assigned once;
3. `Again`: `updateTable_again`, `deleteRows_again`: the second run makes the same table or fails
   for a cell of another type.
-/

namespace TabStore

/-! ## Rows -/

/-- Whether a row satisfies a condition does not depend on the other rows. -/
theorem Condition.holds_withRows (condition : Condition) (table : Table) (rows : List Row) :
    condition.holds { table with rows } = condition.holds table := by
  funext row
  rw [holds, holds, evaluate_withRows]

theorem Row.assigned_assigned (attributes : List String) (assignments : List Assignment)
    (row : Row) : (row.assigned attributes assignments).assigned attributes assignments =
      row.assigned attributes assignments := by
  obtain ⟨cells⟩ := row
  refine congrArg Row.mk ?_
  dsimp only [assigned]
  induction attributes generalizing cells with
  | nil => rfl
  | cons name rest ih =>
    cases cells with
    | nil => rfl
    | cons cell more =>
      rw [List.zipWith_cons_cons, List.zipWith_cons_cons, ih]
      refine congrArg (· :: _) ?_
      cases assignments.find? fun a => a.target = name <;> rfl

/-! ## Tables -/

theorem Table.resolveAssignments_withRows (table : Table) (rows : List Row)
    (assignments : List Assignment) : Table.resolveAssignments { table with rows } assignments =
      table.resolveAssignments assignments := by
  induction assignments with
  | nil => rfl
  | cons a rest ih =>
    rw [resolveAssignments, resolveAssignments, ih]
    rfl

namespace TableStatement

variable {table after : Table} {condition : Condition}

/-- A change of rows that is made once more: it changes nothing, or fails for a cell of another
type. -/
def Again (change : Table → Result Table) (after : Table) : Prop :=
  change after = .ok after ∨ ∃ fault, change after = .error fault ∧ fault.IsOperandFault

/-- A change fails where its condition fails, and that is for a cell of another type. -/
theorem again_of_filter {change : Table → Result Table} (sound : after.IsSound)
    (checked : condition.check = .ok ())
    (present : ∀ name ∈ condition.attributes, name ∈ after.attributes)
    (keeps : ∀ {mask}, condition.filter after = .ok mask → change after = .ok after)
    (fails : ∀ fault, condition.filter after = .error fault → change after = .error fault) :
    Again change after := by
  cases filtered : condition.filter after with
  | ok mask => exact .inl (keeps filtered)
  | error fault =>
    refine .inr ⟨fault, fails fault filtered, ?_⟩
    exact Condition.filter_isOperandFault checked present
      (fun row mem => (sound.rows row mem).width_eq) filtered

theorem updateTable_again (sound : table.IsSound) (checked : condition.check = .ok ())
    {assignments : List Assignment} (literals : ∀ a ∈ assignments, Value.isLiteral a.value = true)
    (targets : (assignments.map Assignment.target).Nodup)
    (updated : updateTable table assignments condition = .ok after) :
    Again (updateTable · assignments condition) after := by
  have soundAfter := (follows_updateTable sound literals updated).sound
  obtain ⟨changes, resolved⟩ := resolved_of_updateTable updated
  obtain ⟨mask, filtered, -⟩ := bind_eq_ok.mp updated
  have present := Condition.present_of_filter filtered
  obtain ⟨-, isAfter⟩ := updateTable_eq sound filtered targets updated
  have same : condition.holds after = condition.holds table :=
    isAfter ▸ condition.holds_withRows table _
  have found : after.resolveAssignments assignments = .ok changes := by
    rw [isAfter, Table.resolveAssignments_withRows, resolved]
  have attributes : after.attributes = table.attributes := isAfter ▸ rfl
  have rows : after.rows.map (fun row => if condition.holds table row then
      row.assigned table.attributes assignments else row) = after.rows := by
    rw [isAfter, List.map_map]
    refine List.map_congr_left fun row _ => ?_
    dsimp only [Function.comp_apply]
    by_cases chosen : condition.holds table row = true
    · rw [if_pos chosen, Row.assigned_assigned, ite_self]
    · rw [if_neg chosen, if_neg chosen]
  refine again_of_filter soundAfter checked (attributes ▸ present) (fun again => ?_)
    fun fault failed => (fails_alike failed).2.2 assignments
  rw [updateTable_of_resolved soundAfter again targets found, same, attributes, rows]
  exact congrArg (fun attributes => Except.ok { after with attributes }) attributes.symm

theorem deleteRows_again (sound : table.IsSound) (checked : condition.check = .ok ())
    (deleted : deleteRows table condition = .ok after) :
    Again (deleteRows · condition) after := by
  have soundAfter := (follows_deleteRows sound deleted).sound
  obtain ⟨mask, filtered, -⟩ := bind_eq_ok.mp deleted
  have present := Condition.present_of_filter filtered
  have isAfter := Except.ok.inj (deleted.symm.trans (deleteRows_eq filtered))
  have same : condition.holds after = condition.holds table :=
    isAfter ▸ condition.holds_withRows table _
  have attributes : after.attributes = table.attributes := isAfter ▸ rfl
  have rows : after.rows.filter (fun row => !condition.holds table row) = after.rows := by
    simp only [isAfter, List.filter_filter, Bool.and_self]
  refine again_of_filter soundAfter checked (attributes ▸ present) (fun again => ?_)
    fun fault failed => (fails_alike failed).2.1
  rw [deleteRows_eq again, same, rows]

end TableStatement

end TabStore
