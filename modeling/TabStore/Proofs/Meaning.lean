import Mathlib.Order.Basic
import TabStore.Literal

/-!
# What cells mean when they are compared

Equality of cells looks at the kinds of both: numbers are compared by value, booleans by truth, and
all else as it is written. Each cell has a meaning of its own, and the cells are equal exactly if
their meanings are. Numbers are rounded, so that two integers can mean the same number.

Results:
1. `cellsEqual_iff`: equality of cells is equality of meanings;
2. `isNumeric_iff`, `isBoolean_iff`: the kind of a literal is told by what it means;
3. `equivalence_cellsEqual`, `isNumeric_congr`, `isBoolean_congr`: equality of cells is an
   equivalence, and equal cells are of the same kind.
-/

namespace TabStore

/-- What a cell stands for in a comparison. -/
inductive Meaning
  | number (rank : Int)
  | truth (b : Bool)
  | text (raw : String)
deriving DecidableEq

def meaning (raw : String) : Meaning :=
  match Value.parse raw with
  | .ok (.int i) => .number (Number.Binary64.ofInt i).rank
  | .ok (.float x) => .number x.rank
  | .ok (.bool b) => .truth b
  | .ok (.text _) | .error _ => .text raw

/-- An integer literal, or one with a point. -/
def IsNumeric (raw : String) : Prop := (Shape.classify raw).any Shape.isNumeric = true

def IsBoolean (raw : String) : Prop := Shape.classify raw = some .bool

instance (raw : String) : Decidable (IsNumeric raw) := inferInstanceAs (Decidable (_ = _))

instance (raw : String) : Decidable (IsBoolean raw) := inferInstanceAs (Decidable (_ = _))

variable {a b : String}

theorem cellsEqual_self (raw : String) : cellsEqual raw raw = true := by
  unfold cellsEqual
  cases Value.parse raw with
  | error fault => simp
  | ok value => cases value <;> simp [Value.number?]

theorem cellsEqual_iff : cellsEqual a b = true ↔ meaning a = meaning b := by
  rcases eq_or_ne a b with rfl | apart
  · exact iff_of_true (cellsEqual_self a) rfl
  · -- Different texts are equal only as two numbers or as two booleans.
    unfold cellsEqual meaning
    cases Value.parse a with
    | error fault =>
      cases Value.parse b with
      | error fault' => simp [apart]
      | ok right => cases right <;> simp [apart]
    | ok left =>
      cases Value.parse b with
      | error fault => cases left <;> simp [apart]
      | ok right => cases left <;> cases right <;> simp [Value.number?, apart]

theorem isNumeric_iff : IsNumeric a ↔ ∃ rank, meaning a = .number rank := by
  unfold IsNumeric meaning Value.parse
  cases Shape.classify a with
  | none => simp
  | some shape => cases shape <;> simp [Shape.isNumeric, Value.ofShape]

theorem isBoolean_iff : IsBoolean a ↔ ∃ b, meaning a = .truth b := by
  unfold IsBoolean meaning Value.parse
  cases Shape.classify a with
  | none => simp
  | some shape => cases shape <;> simp [Value.ofShape]

theorem equivalence_cellsEqual : Equivalence fun a b : String => cellsEqual a b = true where
  refl := cellsEqual_self
  symm same := cellsEqual_iff.mpr (cellsEqual_iff.mp same).symm
  trans first second := cellsEqual_iff.mpr
    ((cellsEqual_iff.mp first).trans (cellsEqual_iff.mp second))

theorem cellsEqual_comm (a b : String) : cellsEqual a b = cellsEqual b a := by
  rw [Bool.eq_iff_iff, cellsEqual_iff, cellsEqual_iff, eq_comm]

theorem isNumeric_congr (same : cellsEqual a b = true) : IsNumeric a ↔ IsNumeric b := by
  rw [isNumeric_iff, isNumeric_iff, cellsEqual_iff.mp same]

theorem isBoolean_congr (same : cellsEqual a b = true) : IsBoolean a ↔ IsBoolean b := by
  rw [isBoolean_iff, isBoolean_iff, cellsEqual_iff.mp same]

end TabStore
