import TabStore.Condition.Evaluate
import TabStore.Proofs.Condition.Reading

/-!
# The value of a condition

A condition is evaluated with a stack, an expression from its leaves to its root. This file defines
the value of an expression on a row and shows that both agree.

Results:
1. `evaluate_withRows`: a row is evaluated by itself;
2. `evaluateFrom_append`: the stack machine puts the value of an expression on its stack, whatever
   is on the stack already and whatever terms follow;
3. `Expression.fault?_value`: a value fails exactly with the fault of its first failing comparison;
4. `compile_unique_expression`: a condition that is read from a text is the post-order of exactly
   one expression and is evaluated to its value, so the stack itself is never at fault.
-/

namespace TabStore

def Connective.apply : Connective → Bool → Bool → Bool
  | and, left, right => left && right
  | or, left, right => left || right

/-- The outcome of a comparison on a row. -/
def Comparison.outcome (c : Comparison) (table : Table) (row : Row) : Result Bool :=
  Condition.compareCell table row c.operator c.name c.literal

namespace Expression

/-- The value on a row. Both sides are computed, the left one first, and a side that fails ends the
computation. -/
def value (table : Table) (row : Row) : Expression → Result Bool
  | comparison c => c.outcome table row
  | combination connective left right => do
    let a ← left.value table row
    let b ← right.value table row
    return connective.apply a b

/-- The comparisons from left to right. -/
def comparisons : Expression → List Comparison
  | comparison c => [c]
  | combination _ left right => left.comparisons ++ right.comparisons

end Expression

/-- The faults of a stack that does not hold what an operator needs. -/
def Error.IsStackFault : Error → Prop
  | .stackUnderflow _ | .unresolvedCondition | .nonBooleanOperand _ | .malformedCondition _ => True
  | _ => False

/-! ## The stack machine -/

namespace Condition

@[simp] theorem evaluateFrom_operand (table : Table) (row : Row) (stack : List Slot) (text : String)
    (rest : List Term) : evaluateFrom table row stack (.operand text :: rest) =
      evaluateFrom table row (.operand text :: stack) rest := by
  rw [evaluateFrom]

/-- A row is evaluated with the schema of its table, whatever the other rows are. -/
theorem evaluate_withRows (condition : Condition) (table : Table) (rows : List Row) :
    condition.evaluate { table with rows } = condition.evaluate table := by
  have steps : ∀ row stack terms,
      evaluateFrom { table with rows } row stack terms = evaluateFrom table row stack terms := by
    intro row stack terms
    -- The table is looked at in `compareCell` only, for the names of its attributes.
    fun_induction evaluateFrom table row stack terms with
    | case1 => rfl
    | case2 stack unresolved => rw [evaluateFrom]; exact unresolved
    | case3 stack text rest ih => rw [evaluateFrom, ih]
    | case4 right left stack op rest ih =>
      rw [evaluateFrom, funext ih]
      rfl
    | case5 stack op rest underflow => rw [evaluateFrom]; exact underflow
  exact funext fun row => steps row [] condition.terms

theorem evaluateOperator_comparison (table : Table) (row : Row) (c : Comparison) :
    evaluateOperator table row c.operator (.operand c.name) (.operand c.literal) =
      c.outcome table row := by
  simp [evaluateOperator, c.compares, Comparison.outcome]

theorem evaluateOperator_connective (table : Table) (row : Row) (c : Connective) (a b : Bool) :
    evaluateOperator table row c.operator (.outcome a) (.outcome b) = .ok (c.apply a b) := by
  cases c <;> rfl

theorem evaluateFrom_append (table : Table) (row : Row) (e : Expression) (stack : List Slot)
    (rest : List Term) : evaluateFrom table row stack (e.terms ++ rest) =
      e.value table row >>= fun b => evaluateFrom table row (.outcome b :: stack) rest := by
  induction e generalizing stack rest with
  | comparison c =>
    simp only [Expression.terms, List.cons_append, List.nil_append, evaluateFrom_operand]
    rw [evaluateFrom, evaluateOperator_comparison]
    rfl
  | combination connective left right ihLeft ihRight =>
    simp only [Expression.terms, List.append_assoc, ihLeft, ihRight, List.singleton_append,
      Expression.value, bind_assoc, pure_bind]
    -- Each side leaves its outcome on the stack, and the operator finds both there.
    refine congrArg _ (funext fun a => congrArg _ (funext fun b => ?_))
    rw [evaluateFrom, evaluateOperator_connective]
    rfl

theorem evaluate_terms (table : Table) (row : Row) {condition : Condition} {e : Expression}
    (h : e.terms = condition.terms) : condition.evaluate table row = e.value table row := by
  have run := evaluateFrom_append table row e [] []
  rw [List.append_nil, h] at run
  rw [evaluate, run]
  cases e.value table row with
  | error fault => rfl
  | ok b => rfl

end Condition

/-! ## Faults -/

/-- Why a step failed, if it did. -/
def fault? {α : Type} : Result α → Option Error
  | .ok _ => none
  | .error fault => some fault

theorem fault?_eq_some {α : Type} {result : Result α} {fault : Error} :
    fault? result = some fault ↔ result = .error fault := by
  cases result with
  | ok a => simp [fault?]
  | error other => simp [fault?]

/-- A value fails with the first comparison that does. -/
theorem Expression.fault?_value (table : Table) (row : Row) (e : Expression) :
    fault? (e.value table row) = e.comparisons.findSome? fun c => fault? (c.outcome table row) := by
  induction e with
  | comparison c =>
    simp only [value, comparisons, List.findSome?_singleton]
  | combination connective left right ihLeft ihRight =>
    rw [comparisons, List.findSome?_append, ← ihLeft, ← ihRight, value]
    cases left.value table row with
    | error fault => rfl
    | ok a =>
      cases right.value table row with
      | error fault => rfl
      | ok b => rfl

namespace Condition

theorem compareNumbers_fault {holds : Int → Int → Bool} {cell literal : String} {fault : Error}
    (h : compareNumbers holds cell literal = .error fault) :
    ∃ raw, fault = .nonNumericOperand raw := by
  have number_fault : ∀ raw, number raw = .error fault → ∃ raw, fault = .nonNumericOperand raw := by
    intro raw failed
    unfold number at failed
    split at failed
    · cases failed
    · cases failed
      exact ⟨raw, rfl⟩
  rcases bind_eq_error.mp h with failed | ⟨left, -, h⟩
  · exact number_fault cell failed
  · rcases bind_eq_error.mp h with failed | ⟨right, -, h⟩
    · exact number_fault literal failed
    · cases h

theorem text_fault {raw : String} {fault : Error} (h : text raw = .error fault) :
    fault = .nonStringOperand raw := by
  unfold text at h
  split at h
  · cases h
  · cases h
    rfl

theorem compare_not_isStackFault {op : Operator} {cell literal : String} {fault : Error}
    (comparing : op.isBoolean = false) (h : compare op cell literal = .error fault) :
    ¬ fault.IsStackFault := by
  cases op with
  | equal | notEqual => cases h
  | and | or => cases comparing
  | less | greater | greaterEqual | lessEqual =>
    simp only [compare] at h
    obtain ⟨raw, rfl⟩ := compareNumbers_fault h
    exact id
  | like =>
    simp only [compare] at h
    rcases bind_eq_error.mp h with failed | ⟨whole, -, h⟩
    · rw [text_fault failed]
      exact id
    · rcases bind_eq_error.mp h with failed | ⟨part, -, h⟩
      · rw [text_fault failed]
        exact id
      · cases h

end Condition

theorem Comparison.not_isStackFault {c : Comparison} {table : Table} {row : Row} {fault : Error}
    (h : c.outcome table row = .error fault) : ¬ fault.IsStackFault := by
  rcases bind_eq_error.mp h with missing | ⟨index, -, h⟩
  · unfold Table.attributeIndex at missing
    split at missing
    · cases missing
    · cases missing
      exact id
  · split at h
    · exact Condition.compare_not_isStackFault c.compares h
    · cases h
      exact id

theorem Expression.not_isStackFault {e : Expression} {table : Table} {row : Row} {fault : Error}
    (h : e.value table row = .error fault) : ¬ fault.IsStackFault := by
  have first := Expression.fault?_value table row e
  rw [fault?_eq_some.mpr h] at first
  obtain ⟨c, -, failed⟩ := List.exists_of_findSome?_eq_some first.symm
  exact Comparison.not_isStackFault (fault?_eq_some.mp failed)

/-! ## Conditions read from texts -/

namespace Condition

/-- A condition that is read from a text is the post-order of exactly one expression. On every row
it is evaluated to the value of that expression; it fails with the first comparison that does, and
never because of what is on the stack. -/
theorem compile_unique_expression {text : String} {condition : Condition}
    (h : compile text = .ok condition) :
    ∃ e : Expression, (∀ other : Expression, other.terms = condition.terms ↔ other = e) ∧
      ∀ (table : Table) (row : Row), condition.evaluate table row = e.value table row ∧
        fault? (condition.evaluate table row) =
          e.comparisons.findSome? (fun c => fault? (c.outcome table row)) ∧
        ∀ fault, condition.evaluate table row = .error fault → ¬ fault.IsStackFault := by
  obtain ⟨e, -, same⟩ := exists_expression_of_check (check_of_compile h)
  refine ⟨e, fun other => ⟨fun terms => ?_, fun equal => equal ▸ same⟩, fun table row => ?_⟩
  · exact Expression.terms_injective (terms.trans same.symm)
  · rw [evaluate_terms table row same]
    exact ⟨rfl, Expression.fault?_value table row e, fun _ => Expression.not_isStackFault⟩

theorem compile_unique_expression_nested : ∃ condition,
    compile "((age >= 18) AND (name LIKE 'An')) OR (id = 3)" = .ok condition ∧
      ∃ e : Expression, ∀ (table : Table) (row : Row),
        condition.evaluate table row = e.value table row := by
  have read : compile "((age >= 18) AND (name LIKE 'An')) OR (id = 3)" =
      .ok ⟨[.operand "age", .operand "18", .operator .greaterEqual, .operand "name",
        .operand "'An'", .operator .like, .operator .and, .operand "id", .operand "3",
        .operator .equal, .operator .or]⟩ := by
    decide +kernel
  obtain ⟨e, -, agree⟩ := compile_unique_expression read
  exact ⟨_, read, e, fun table row => (agree table row).1⟩

end Condition

end TabStore
