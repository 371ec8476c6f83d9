import TabStore.Error
import TabStore.Number.Binary64
import TabStore.Text.UpperCase

/-!
# Literals

Cells and values are stored as they were written. A literal has one of four shapes: a string in
single quotes, a boolean word, an integer that fits 64 bits, or digits with a decimal point. The
shape is decided first and the value read accordingly.
-/

namespace TabStore

inductive Shape
  | int
  | float
  | text
  | bool
deriving DecidableEq, Repr

namespace Shape

/-- A string literal holds no quote, tab or line break. -/
def isTextLiteral : List Char → Bool
  | '\'' :: rest =>
    rest.getLast? == some '\'' && rest.dropLast.all fun c =>
      !(c == '\'' || c == '\t' || c == '\r' || c == '\n')
  | _ => false

def isTrue (raw : List Char) : Bool := Text.sameIgnoringCase raw "true".toList

def isFalse (raw : List Char) : Bool := Text.sameIgnoringCase raw "false".toList

/-- The integer that a run of digits with an optional minus sign stands for. -/
def intValue (raw : List Char) : Int :=
  match Number.splitSign raw with
  | (true, digits) => -(Number.value digits : Int)
  | (false, digits) => Number.value digits

/-- An integer literal lies between -2^63 and 2^63 - 1. -/
def isInt (raw : List Char) : Bool :=
  Number.isDigits (Number.splitSign raw).2 &&
    decide (-0x8000000000000000 ≤ intValue raw ∧ intValue raw < 0x8000000000000000)

/-- The digits on both sides of the first point. -/
def decimalParts (raw : List Char) : List Char × List Char :=
  let digits := (Number.splitSign raw).2
  (digits.takeWhile (· != '.'), (digits.dropWhile (· != '.')).drop 1)

def isFloat (raw : List Char) : Bool :=
  Number.isDigits (decimalParts raw).1 && Number.isDigits (decimalParts raw).2

/-- The shape of a literal; `none` for every other text. -/
def classify (raw : String) : Option Shape :=
  let chars := raw.toList
  if isTextLiteral chars then some .text
  else if isTrue chars || isFalse chars then some .bool
  else if isInt chars then some .int
  else if isFloat chars then some .float
  else none

def isNumeric : Shape → Bool
  | .int | .float => true
  | .text | .bool => false

end Shape

/-- The value of a literal. -/
inductive Value
  | int (i : Int)
  | float (x : Number.Binary64)
  | text (s : String)
  | bool (b : Bool)
deriving DecidableEq, Repr

namespace Value

def ofShape (raw : String) : Shape → Value
  | .text => .text (String.ofList (raw.toList.drop 1).dropLast)
  | .bool => .bool (Shape.isTrue raw.toList)
  | .int => .int (Shape.intValue raw.toList)
  | .float =>
    let parts := Shape.decimalParts raw.toList
    .float (.ofDecimal (Number.splitSign raw.toList).1 (parts.1 ++ parts.2) parts.2.length)

def parse (raw : String) : Result Value :=
  match Shape.classify raw with
  | some shape => .ok (ofShape raw shape)
  | none => .error (.invalidLiteral raw)

def isLiteral (raw : String) : Bool := (Shape.classify raw).isSome

def shape : Value → Shape
  | .int _ => .int
  | .float _ => .float
  | .text _ => .text
  | .bool _ => .bool

/-- The number that a numeric value is compared as. -/
def number? : Value → Option Number.Binary64
  | .int i => some (.ofInt i)
  | .float x => some x
  | .text _ | .bool _ => none

def text? : Value → Option String
  | .text s => some s
  | .int _ | .float _ | .bool _ => none

def bool? : Value → Option Bool
  | .bool b => some b
  | .int _ | .float _ | .text _ => none

end Value

/-- Equality of stored cells: numbers by value, booleans by truth, all else as written. -/
def cellsEqual (left right : String) : Bool :=
  match Value.parse left, Value.parse right with
  | .ok (.bool a), .ok (.bool b) => a == b
  | .ok a, .ok b =>
    match a.number?, b.number? with
    | some x, some y => x.rank == y.rank
    | _, _ => left == right
  | _, _ => left == right

end TabStore
