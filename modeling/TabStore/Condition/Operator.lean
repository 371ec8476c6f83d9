/-!
# Condition operators

The canonical text of a condition writes each operator as a single character, its code.
-/

namespace TabStore

inductive Operator
  | equal
  | notEqual
  | less
  | greater
  | greaterEqual
  | lessEqual
  | like
  | and
  | or
deriving DecidableEq, Repr

namespace Operator

def code : Operator → Char
  | equal => '='
  | notEqual => '!'
  | less => '<'
  | greater => '>'
  | greaterEqual => '@'
  | lessEqual => '£'
  | like => '~'
  | and => '&'
  | or => '+'

def all : List Operator :=
  [equal, notEqual, less, greater, greaterEqual, lessEqual, like, and, or]

def ofCode? (c : Char) : Option Operator := all.find? fun operator => operator.code == c

/-- Whether an operator combines comparisons instead of comparing cells. -/
def isBoolean : Operator → Bool
  | and | or => true
  | _ => false

theorem ofCode?_code (operator : Operator) : ofCode? operator.code = some operator := by
  cases operator <;> decide

end Operator

end TabStore
