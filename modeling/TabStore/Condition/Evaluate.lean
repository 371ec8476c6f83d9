import TabStore.Condition.Basic
import TabStore.Table.Stored

/-!
# Evaluating conditions

A condition is evaluated on a row with a stack: an operand waits there as it is written, and an
operator replaces two entries by the outcome. Both sides of AND and OR are evaluated.
-/

namespace TabStore.Condition

/-- The number in a cell or literal. -/
def number (raw : String) : Result Number.Binary64 :=
  match (Value.parse raw).toOption.bind Value.number? with
  | some x => .ok x
  | none => .error (.nonNumericOperand raw)

/-- The string in a cell or literal, without its quotes. -/
def text (raw : String) : Result String :=
  match (Value.parse raw).toOption.bind Value.text? with
  | some s => .ok s
  | none => .error (.nonStringOperand raw)

/-- Compares two numbers by their order. -/
def compareNumbers (holds : Int → Int → Bool) (cell literal : String) : Result Bool := do
  let left ← number cell
  let right ← number literal
  return holds left.rank right.rank

def compare (op : Operator) (cell literal : String) : Result Bool :=
  match op with
  | .equal => .ok (cellsEqual cell literal)
  | .notEqual => .ok (!cellsEqual cell literal)
  | .less => compareNumbers (fun a b => a < b) cell literal
  | .greater => compareNumbers (fun a b => b < a) cell literal
  | .greaterEqual => compareNumbers (fun a b => b ≤ a) cell literal
  | .lessEqual => compareNumbers (fun a b => a ≤ b) cell literal
  | .like => do
    let whole ← text cell
    let part ← text literal
    return Text.occursIn part.toList whole.toList
  | .and | .or => .error (.nonBooleanOperand cell)

/-- The outcome of a comparison on a row. -/
def compareCell (table : Table) (row : Row) (op : Operator) (name literal : String) :
    Result Bool := do
  let index ← table.attributeIndex name
  match row.cell? index with
  | some cell => compare op cell literal
  | none =>
    .error (.corruptTable table.rowsPath.text ("row " ++ row.id ++ " has no cell for " ++ name))

/-- What waits on the stack: an operand as written, or an outcome. -/
inductive Slot
  | operand (text : String)
  | outcome (b : Bool)
deriving DecidableEq, Repr

def combine (op : Operator) (left right : Bool) : Bool :=
  if op = .and then left && right else left || right

/-- The outcome of an operator on two entries of the stack. -/
def evaluateOperator (table : Table) (row : Row) (op : Operator) : Slot → Slot → Result Bool
  | .outcome left, .outcome right =>
    if op.isBoolean then .ok (combine op left right) else evaluated
  | .operand name, .operand literal =>
    if op.isBoolean then .error (.nonBooleanOperand name)
    else compareCell table row op name literal
  | .operand text, .outcome _ | .outcome _, .operand text =>
    if op.isBoolean then .error (.nonBooleanOperand text) else evaluated
where
  evaluated := .error (operatorFault op " applied to an evaluated result")

def evaluateFrom (table : Table) (row : Row) : List Slot → List Term → Result Bool
  | [.outcome b], [] => .ok b
  | _, [] => .error .unresolvedCondition
  | stack, .operand text :: rest => evaluateFrom table row (.operand text :: stack) rest
  | right :: left :: stack, .operator op :: rest => do
    let outcome ← evaluateOperator table row op left right
    evaluateFrom table row (.outcome outcome :: stack) rest
  | _, .operator op :: _ => .error (.stackUnderflow op.code)

/-- Whether a row of a table satisfies the condition. -/
def evaluate (condition : Condition) (table : Table) (row : Row) : Result Bool :=
  evaluateFrom table row [] condition.terms

def checkAttributesOf (table : Table) : List String → Result Unit
  | [] => .ok ()
  | name :: rest => do
    let _ ← table.attributeIndex name
    checkAttributesOf table rest

/-- Which rows of a table satisfy the condition. Every attribute it names must exist, even if there
are no rows. -/
def filter (condition : Condition) (table : Table) : Result (List Bool) := do
  checkAttributesOf table condition.attributes
  table.rows.mapM (condition.evaluate table)

end TabStore.Condition
