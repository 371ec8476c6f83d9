import TabStore.Proofs.Condition.Composition
import TabStore.Proofs.Table.Sound

/-!
# The attributes of a condition

Before a filter looks at any row, it looks for the attributes of the condition. These are collected
by a stack machine of their own, which keeps the names of operands and forgets every outcome. This
file shows that it finds the names in the comparisons and nothing else, so that after it no
comparison fails for want of an attribute.

Results:
1. `attributes_eq`: the attributes are the names in the comparisons, without repetitions;
2. `filter_of_missing`: a filter fails with the first attribute that the table does not have;
3. `evaluate_isOperandFault`: on a row of the schema's width, only cells of another type make a
   condition fail;
4. `filter_exact`: what a filter does with any table.
-/

namespace TabStore

/-- The faults of a comparison with a cell that is not a number, or not a text. -/
def Error.IsOperandFault : Error → Prop
  | .nonNumericOperand _ | .nonStringOperand _ => True
  | _ => False

namespace Condition

/-! ## Names -/

/-- What is noted anew are the names that are not there yet, each of them once. -/
theorem foldl_note (comparisons : List Comparison) (names : List String) :
    comparisons.foldl note names = names ++
      ((comparisons.map Comparison.name).filter fun name => !names.contains name).eraseDups := by
  induction comparisons generalizing names with
  | nil => simp
  | cons c rest ih =>
    rw [List.foldl_cons, ih, List.map_cons, note]
    by_cases known : names.contains c.name = true
    · rw [if_pos known, List.filter_cons_of_neg (by simp only [known]; decide)]
    · -- What is dropped later is what is there already or has the name that is noted now.
      have dropped : ∀ name, (!(names ++ [c.name]).contains name) =
          (!name == c.name && !names.contains name) := by
        intro name
        simp [Bool.and_comm, beq_eq_decide]
      rw [if_neg known, List.filter_cons_of_pos (by simpa using known), List.eraseDups_cons,
        List.filter_filter, List.append_assoc, funext dropped]
      rfl

/-- The attributes are the names in the comparisons, each of them once, in the order of their first
occurrences. -/
theorem attributes_eq {condition : Condition} {e : Expression} (h : e.terms = condition.terms) :
    condition.attributes = (e.comparisons.map Comparison.name).eraseDups := by
  have noted := attributesFrom_append e [] [] []
  rw [List.append_nil, h, attributesFrom, foldl_note] at noted
  rw [attributes, noted]
  simp

/-! ## Missing attributes -/

theorem checkAttributesOf_of_missing {table : Table} {names : List String} {name : String}
    (missing : names.find? (· ∉ table.attributes) = some name) :
    checkAttributesOf table names = .error (.attributeNotFound table.name name) := by
  induction names with
  | nil => cases missing
  | cons first rest ih =>
    rw [List.find?_cons] at missing
    rw [checkAttributesOf]
    by_cases present : first ∈ table.attributes
    · rw [decide_eq_false (not_not_intro present)] at missing
      rw [Table.attributeIndex_of_mem present, ok_bind, ih missing]
    · rw [decide_eq_true present, Option.some.injEq] at missing
      rw [missing] at present ⊢
      rw [Table.attributeIndex_of_not_mem present, error_bind]

theorem filter_of_missing {condition : Condition} {table : Table} {name : String}
    (missing : condition.attributes.find? (· ∉ table.attributes) = some name) :
    condition.filter table = .error (.attributeNotFound table.name name) := by
  rw [filter, checkAttributesOf_of_missing missing, error_bind]

theorem present_of_filter {condition : Condition} {table : Table} {mask : List Bool}
    (h : condition.filter table = .ok mask) :
    ∀ name ∈ condition.attributes, name ∈ table.attributes := by
  intro name mem
  rw [filter, check_bind_eq_ok, checkAttributesOf_eq_ok] at h
  obtain ⟨index, found⟩ := h.1 name mem
  exact Table.mem_of_attributeIndex found

theorem filter_of_present {condition : Condition} {table : Table}
    (present : ∀ name ∈ condition.attributes, name ∈ table.attributes) :
    condition.filter table = table.rows.mapM (condition.evaluate table) := by
  have found : checkAttributesOf table condition.attributes = .ok () :=
    checkAttributesOf_eq_ok.mpr fun name mem =>
      ⟨_, Table.attributeIndex_of_mem (present name mem)⟩
  rw [filter, found, ok_bind]

/-! ## Faults of rows -/

theorem compare_isOperandFault {op : Operator} {cell literal : String} {fault : Error}
    (comparing : op.isBoolean = false) (h : compare op cell literal = .error fault) :
    fault.IsOperandFault := by
  cases op with
  | equal | notEqual => cases h
  | and | or => cases comparing
  | less | greater | greaterEqual | lessEqual =>
    simp only [compare] at h
    obtain ⟨raw, rfl⟩ := compareNumbers_fault h
    trivial
  | like =>
    rcases bind_eq_error.mp h with failed | ⟨whole, -, h⟩
    · exact text_fault failed ▸ trivial
    · rcases bind_eq_error.mp h with failed | ⟨part, -, h⟩
      · exact text_fault failed ▸ trivial
      · cases h

end Condition

theorem Comparison.isOperandFault {c : Comparison} {table : Table} {row : Row} {fault : Error}
    (present : c.name ∈ table.attributes) (width : row.width = table.attributes.length)
    (h : c.outcome table row = .error fault) : fault.IsOperandFault := by
  have inside : table.attributes.idxOf c.name < row.cells.length :=
    (List.idxOf_lt_length_of_mem present).trans_eq width.symm
  rw [outcome, Condition.compareCell, Table.attributeIndex_of_mem present, ok_bind, Row.cell?,
    List.getElem?_eq_getElem inside] at h
  exact Condition.compare_isOperandFault c.compares h

theorem Expression.isOperandFault {e : Expression} {table : Table} {row : Row} {fault : Error}
    (present : ∀ c ∈ e.comparisons, c.name ∈ table.attributes)
    (width : row.width = table.attributes.length) (h : e.value table row = .error fault) :
    fault.IsOperandFault := by
  have first := Expression.fault?_value table row e
  rw [fault?_eq_some.mpr h] at first
  obtain ⟨c, among, failed⟩ := List.exists_of_findSome?_eq_some first.symm
  exact c.isOperandFault (present c among) width (fault?_eq_some.mp failed)

namespace Condition

theorem evaluate_isOperandFault {condition : Condition} (checked : condition.check = .ok ())
    {table : Table} {row : Row} {fault : Error}
    (present : ∀ name ∈ condition.attributes, name ∈ table.attributes)
    (width : row.width = table.attributes.length)
    (h : condition.evaluate table row = .error fault) : fault.IsOperandFault := by
  obtain ⟨e, -, same⟩ := exists_expression_of_check checked
  rw [evaluate_terms table row same] at h
  refine Expression.isOperandFault (fun c among => ?_) width h
  exact present c.name ((mem_attributes same).mpr ⟨c, among, rfl⟩)

/-! ## Filters -/

theorem filter_isOperandFault {condition : Condition} (checked : condition.check = .ok ())
    {table : Table} {fault : Error}
    (present : ∀ name ∈ condition.attributes, name ∈ table.attributes)
    (widths : ∀ row ∈ table.rows, row.width = table.attributes.length)
    (h : condition.filter table = .error fault) : fault.IsOperandFault := by
  have ends : Ends (fun _ => True) Error.IsOperandFault
      (table.rows.mapM (condition.evaluate table)) := by
    refine Ends.mapM fun row mem => ends_iff.mpr ⟨fun _ _ => trivial, fun _ failed => ?_⟩
    exact evaluate_isOperandFault checked present (widths row mem) failed
  rw [filter_of_present present] at h
  exact ends.error h

/-- The attributes of a condition that is read from a text are the names in the comparisons of its
expression, each of them once, in the order of their first occurrences. A filter fails with the first
of them that is missing in the table, with or without rows. If none is missing and the rows have the
width of the schema, then nothing but a cell of another type makes a row fail: the filter gives the
value on every row, or fails as the first row does that fails. -/
theorem filter_exact {text : String} {condition : Condition} (h : compile text = .ok condition) :
    ∃ e : Expression, condition.expression? = some e ∧ e.terms = condition.terms ∧
      condition.attributes = (e.comparisons.map Comparison.name).eraseDups ∧
      ∀ table : Table,
        (∀ name, condition.attributes.find? (· ∉ table.attributes) = some name →
          condition.filter table = .error (.attributeNotFound table.name name)) ∧
        ((∀ name ∈ condition.attributes, name ∈ table.attributes) →
          (∀ row ∈ table.rows, row.width = table.attributes.length) →
          (∀ row ∈ table.rows, ∀ fault, condition.evaluate table row = .error fault →
            fault.IsOperandFault) ∧
          ((∃ mask, condition.filter table = .ok mask ∧
              List.Forall₂ (fun row bit => condition.evaluate table row = .ok bit)
                table.rows mask) ∨
            ∃ before row after fault, table.rows = before ++ row :: after ∧
              (∀ earlier ∈ before, ∃ bit, condition.evaluate table earlier = .ok bit) ∧
              condition.evaluate table row = .error fault ∧ fault.IsOperandFault ∧
              condition.filter table = .error fault)) := by
  have checked := check_of_compile h
  obtain ⟨e, read, same⟩ := exists_expression_of_check checked
  refine ⟨e, read, same, attributes_eq same, fun table =>
    ⟨fun name => filter_of_missing, fun present widths => ?_⟩⟩
  have typed := fun row mem fault =>
    @evaluate_isOperandFault condition checked table row fault present (widths row mem)
  refine ⟨typed, ?_⟩
  rw [filter_of_present present]
  cases run : table.rows.mapM (condition.evaluate table) with
  | ok mask => exact .inl ⟨mask, rfl, mapM_eq_ok.mp run⟩
  | error fault =>
    obtain ⟨before, row, after, rows, earlier, failed⟩ := mapM_eq_error.mp run
    have mem : row ∈ table.rows := rows ▸ List.mem_append_right before List.mem_cons_self
    exact .inr ⟨before, row, after, fault, rows, earlier, failed, typed row mem fault failed, rfl⟩

/-- An attribute that is compared twice is collected once. Its absence is told of a table without
rows, and of the people every row has a value. -/
theorem filter_exact_repeated_name :
    ∃ condition, compile "((age >= 18) AND (name LIKE 'x')) OR (age = 3)" = .ok condition ∧
      condition.attributes = ["age", "name"] ∧
      condition.filter ⟨"t", ⟨"d/x"⟩, ["id", "age"], [], 3⟩ =
        .error (.attributeNotFound "t" "name") ∧
      ∀ row ∈ people.rows, ∀ fault, condition.evaluate people row = .error fault →
        fault.IsOperandFault := by
  have read : compile "((age >= 18) AND (name LIKE 'x')) OR (age = 3)" =
      .ok ⟨[.operand "age", .operand "18", .operator .greaterEqual, .operand "name",
        .operand "'x'", .operator .like, .operator .and, .operand "age", .operand "3",
        .operator .equal, .operator .or]⟩ := by
    decide +kernel
  obtain ⟨e, -, -, -, filters⟩ := filter_exact read
  exact ⟨_, read, by decide +kernel, (filters _).1 "name" (by decide +kernel),
    ((filters people).2 (by decide +kernel) (by decide +kernel)).1⟩

end Condition

end TabStore
