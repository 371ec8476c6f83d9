import TabStore.Number.Digits

/-!
# Double-precision numbers

A binary64 number is a sign and a multiple of the least positive number, 2^-1074. Infinity is kept
as the multiple 2^2098 that would follow the largest finite number, so that order and encoding need
no case of their own. Only rounding from decimal digits and comparison are needed; both are exact.
-/

namespace TabStore.Number

structure Binary64 where
  negative : Bool
  /-- How many times 2^-1074 the magnitude is. -/
  units : Nat
deriving DecidableEq, Repr

namespace Binary64

/-- A quotient rounded to the nearest integer, a half to the even one. -/
def roundQuotient (numerator denominator : Nat) : Nat :=
  let floor := numerator / denominator
  let excess := 2 * (numerator % denominator)
  if excess < denominator ∨ (excess = denominator ∧ floor % 2 = 0) then floor else floor + 1

/-- The multiple of 2^-1074 that stands for infinity. -/
def infiniteUnits : Nat := Nat.pow 2 2098

/-- A quotient of units rounded to 53 significant bits. -/
def roundUnits (numerator denominator : Nat) : Nat :=
  let step := Nat.pow 2 (Nat.log2 (numerator / denominator) - 52)
  min (roundQuotient numerator (denominator * step) * step) infiniteUnits

/-- The number nearest to `digits` with the last `places` of them after the point. -/
def ofDecimal (negative : Bool) (digits : List Char) (places : Nat) : Binary64 :=
  ⟨negative, roundUnits (value digits * Nat.pow 2 1074) (Nat.pow 10 places)⟩

def ofInt (i : Int) : Binary64 :=
  ⟨decide (i < 0), roundUnits (i.natAbs * Nat.pow 2 1074) 1⟩

/-- The place of a number in the order; both zeros have the same. -/
def rank (x : Binary64) : Int := if x.negative then -(x.units : Int) else x.units

/-- The 64 bits of the interchange format: sign, exponent, fraction. -/
def bits (x : Binary64) : Nat :=
  let exponent := Nat.log2 x.units - 52
  (if x.negative then 0x8000000000000000 else 0) + exponent * 0x10000000000000 +
    x.units / Nat.pow 2 exponent

example : (ofInt 42).bits = 0x4045000000000000 := by decide +kernel
example : (ofInt 9007199254740993).bits = (ofInt 9007199254740992).bits := by decide +kernel
example : (ofDecimal true ['0', '1'] 1).bits = 0xBFB999999999999A := by decide +kernel
example : (ofDecimal false ['5'] 324).bits = 1 := by decide +kernel
example : (ofDecimal false ('1' :: List.replicate 309 '0') 0).bits = 0x7FF0000000000000 := by
  decide +kernel

end Binary64

end TabStore.Number
