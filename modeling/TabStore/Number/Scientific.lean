import TabStore.Number.Digits
import TabStore.Text.UpperCase

/-!
# Scientific notation

Real numbers written with a point, an exponent or a name of what is not finite.
-/

namespace TabStore.Number

def dropSign : List Char → List Char
  | '+' :: rest => rest
  | '-' :: rest => rest
  | text => text

/-- Digits around a point, and an exponent. The point, the exponent and the digits on one side of
the point may be left out. -/
def isScientific (text : List Char) : Bool :=
  let whole := text.takeWhile Char.isDigit
  let (fraction, rest) := match text.dropWhile Char.isDigit with
    | '.' :: rest => (rest.takeWhile Char.isDigit, rest.dropWhile Char.isDigit)
    | rest => ([], rest)
  !(whole ++ fraction).isEmpty && match rest with
    | [] => true
    | mark :: exponent => (mark == 'e' || mark == 'E') && isDigits (dropSign exponent)

def nonFiniteNames : List String := ["inf", "infinity", "nan"]

/-- A number with a sign that may be left out, or the name of one that is not finite. -/
def isReal (text : List Char) : Bool :=
  let unsigned := dropSign text
  isScientific unsigned ||
    nonFiniteNames.any fun name => Text.sameIgnoringCase unsigned name.toList

example : ["7", "+1", "-.5e-3", "2.", "+INF"].all (isReal ·.toList) := by decide
example : ["", "+", ".", "1e", "e5", "0x1", "--1"].any (isReal ·.toList) = false := by decide

end TabStore.Number
