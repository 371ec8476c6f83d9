/-!
# Digits

Unsigned numbers written in ASCII digits, decimal or hexadecimal.
-/

namespace TabStore.Number

def isDigits (text : List Char) : Bool := !text.isEmpty && text.all Char.isDigit

/-- The number that a run of digits stands for. -/
def value (digits : List Char) : Nat :=
  digits.foldl (fun number c => 10 * number + (c.toNat - '0'.toNat)) 0

theorem value_append_singleton (digits : List Char) (c : Char) :
    value (digits ++ [c]) = 10 * value digits + (c.toNat - '0'.toNat) := by
  simp [value]

/-- An unsigned number below `limit`, with or without a plus sign and with any leading zeros. -/
def readBelow (limit : Nat) (text : List Char) : Option Nat :=
  let digits := match text with
    | '+' :: rest => rest
    | _ => text
  if isDigits digits && value digits < limit then some (value digits) else none

/-- A number without the minus sign that may precede it, and whether it had one. -/
def splitSign : List Char → Bool × List Char
  | '-' :: rest => (true, rest)
  | text => (false, text)

def isHexDigit (c : Char) : Bool :=
  c.isDigit || ('a' ≤ c && c ≤ 'f') || ('A' ≤ c && c ≤ 'F')

def hexDigit (c : Char) : Nat :=
  if c.isDigit then c.toNat - '0'.toNat else c.toLower.toNat - 'a'.toNat + 10

/-- The number that a run of hexadecimal digits stands for. -/
def hexValue (digits : List Char) : Nat :=
  digits.foldl (fun number c => 16 * number + hexDigit c) 0

end TabStore.Number
