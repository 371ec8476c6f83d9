import TabStore.Condition.Lexeme
import TabStore.Literal
import TabStore.Name
import TabStore.Text.Split

/-!
# Conditions

A condition is kept in post-order: every operator follows its two operands. Reading a condition
arranges its lexemes into that order, where each operator needs parentheses of its own unless it
is the only one at its level, and then checks that comparisons take an attribute and a literal and
that AND and OR take two comparisons or combinations of them.
-/

namespace TabStore

inductive Term
  | operand (text : String)
  | operator (op : Operator)
deriving DecidableEq, Repr

structure Condition where
  terms : List Term
deriving DecidableEq, Repr

namespace Condition

/-- What waits on the stack while lexemes are arranged. -/
inductive Frame
  | opening
  | operator (op : Operator)
deriving DecidableEq, Repr

def Frame.operator? : Frame → Option Operator
  | .opening => none
  | .operator op => some op

def ownParentheses : Error := .malformedCondition "each operator needs its own parentheses"

/-- The operators still waiting when the text ends. -/
def flush (stack : List Frame) : Result (List Term) :=
  let waiting := stack.filterMap Frame.operator?
  if 1 < waiting.length then .error ownParentheses
  else if stack.contains .opening then .error (.malformedCondition "unclosed parenthesis")
  else .ok (waiting.map .operator)

/-- Lexemes in post-order. A closing parenthesis releases the operator of its level. -/
def arrange : List Frame → List Lexeme → Result (List Term)
  | stack, [] => flush stack
  | stack, .opening :: rest => arrange (.opening :: stack) rest
  | stack, .operator op :: rest => arrange (.operator op :: stack) rest
  | stack, .operand text :: rest => (arrange stack rest).map (.operand text :: ·)
  | .operator op :: .opening :: stack, .closing :: rest =>
    (arrange stack rest).map (.operator op :: ·)
  | .opening :: stack, .closing :: rest => arrange stack rest
  | .operator _ :: .operator _ :: _, .closing :: _ => .error ownParentheses
  | _, .closing :: _ => .error (.malformedCondition "unbalanced parentheses")

/-- What a term leaves on the stack while a condition is checked. -/
inductive Form
  | operand (text : String)
  | outcome
deriving DecidableEq, Repr

def operatorFault (op : Operator) (fault : String) : Error :=
  .malformedCondition ("operator " ++ op.code.toString ++ fault)

/-- Whether an operator accepts its operands. -/
def checkOperands (op : Operator) (left right : Form) : Result Unit :=
  if op.isBoolean then
    match left, right with
    | .outcome, .outcome => .ok ()
    | _, _ => .error (operatorFault op " must combine two comparisons")
  else
    match left, right with
    | .operand name, .operand literal => do
      validateName name
      if Value.isLiteral literal then .ok () else .error (.invalidLiteral literal)
    | _, _ => .error (operatorFault op " must compare an attribute with a literal")

def checkFrom : List Form → List Term → Result Unit
  | [.outcome], [] => .ok ()
  | _, [] =>
    .error (.malformedCondition "condition does not reduce to a single comparison")
  | stack, .operand text :: rest => checkFrom (.operand text :: stack) rest
  | right :: left :: stack, .operator op :: rest => do
    checkOperands op left right
    checkFrom (.outcome :: stack) rest
  | _, .operator op :: _ => .error (operatorFault op " is missing an operand")

def check (condition : Condition) : Result Unit := checkFrom [] condition.terms

/-- Reads the text of a condition. -/
def compile (text : String) : Result Condition := do
  let canonical ← canonicalChars text.toList
  let terms ← arrange [] (lexemes canonical)
  if terms.isEmpty then .error (.malformedCondition "empty condition")
  else
    let condition : Condition := ⟨terms⟩
    condition.check
    return condition

def Term.display : Term → String
  | .operand text => text
  | .operator op => op.code.toString

/-- The terms in order, separated by spaces, with operators as their codes. -/
def display (condition : Condition) : String :=
  " ".intercalate (condition.terms.map Term.display)

def attributesFrom : List (Option String) → List String → List Term → List String
  | _, names, [] => names
  | stack, names, .operand text :: rest => attributesFrom (some text :: stack) names rest
  | stack, names, .operator op :: rest =>
    let left := (stack[1]?).join
    let names := match left with
      | some name => if op.isBoolean || names.contains name then names else names ++ [name]
      | none => names
    attributesFrom (none :: stack.drop 2) names rest

/-- The attributes that the comparisons name, each once, in order of first occurrence. -/
def attributes (condition : Condition) : List String := attributesFrom [] [] condition.terms

end Condition

end TabStore
