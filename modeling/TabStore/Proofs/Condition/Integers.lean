import TabStore.Proofs.Condition.Order
import TabStore.Proofs.Literal.Denoted
import TabStore.Proofs.Number.Rounding

/-!
# The order of integers

Integers are compared as the double-precision numbers nearest to them, as all numbers are. Their
order is never reversed, and up to 2^53 it is the order of the integers; beyond, integers that are
not equal may compare as equal.

Results:
1. `comparesAs_of_ints`: two integers compare as the numbers that they are rounded to;
2. `comparesAs_of_sameDouble`, `comparesAs_of_not_sameDouble`: they compare as integers unless they
   are rounded to the same number;
3. `comparesAs_of_small`: they compare as integers if one of them is between -2^53 and 2^53;
4. `cellsEqual_iff_sameDouble`: they are equal cells if they are rounded to the same number.
-/

namespace TabStore

open Number (IntRoundsTo SameDouble unitsOfOne)

variable {a b : String} {i j r s : Int}

theorem range_of_parse (parsed : Value.parse a = .ok (.int i)) :
    -0x8000000000000000 ≤ i ∧ i ≤ 0x7FFFFFFFFFFFFFFF := by
  have denoted := Value.parse_eq_ok_iff_denotes.mp parsed
  generalize a.toList = chars at denoted
  cases denoted with
  | int _ _ _ least greatest => exact ⟨least, greatest⟩

theorem meaning_of_int (parsed : Value.parse a = .ok (.int i)) (rounded : IntRoundsTo i r) :
    meaning a = .number (r * unitsOfOne) := by
  obtain ⟨least, greatest⟩ := range_of_parse parsed
  rw [meaning, parsed]
  exact congrArg Meaning.number (Number.rank_ofInt rounded least greatest)

theorem compare_congr (less : i < j ↔ r < s) (greater : j < i ↔ s < r) :
    Ord.compare i j = Ord.compare r s := by
  rcases lt_trichotomy r s with lt | rfl | gt
  · rw [compare_lt_iff_lt.mpr lt, compare_lt_iff_lt, less]
    exact lt
  · rw [compare_eq_iff_eq.mpr rfl, compare_eq_iff_eq]
    omega
  · rw [compare_gt_iff_gt.mpr gt, compare_gt_iff_gt, greater]
    exact gt

namespace Condition

theorem comparesAs_of_ints (parsed : Value.parse a = .ok (.int i))
    (parsed' : Value.parse b = .ok (.int j)) (rounded : IntRoundsTo i r)
    (rounded' : IntRoundsTo j s) : ComparesAs a b (Ord.compare r s) := by
  have units : (0 : Int) < unitsOfOne := Int.natCast_pos.mpr Number.unitsOfOne_pos
  have scaled : Ord.compare (r * unitsOfOne) (s * unitsOfOne) = Ord.compare r s :=
    compare_congr (Int.mul_lt_mul_right units) (Int.mul_lt_mul_right units)
  rw [← scaled]
  exact comparesAs_of_numbers (meaning_of_int parsed rounded) (meaning_of_int parsed' rounded')

/-- Integers with the same nearest number are equal to every operator, all others are compared as
integers. -/
theorem comparesAs_of_sameDouble (parsed : Value.parse a = .ok (.int i))
    (parsed' : Value.parse b = .ok (.int j)) (same : SameDouble i j) : ComparesAs a b .eq := by
  obtain ⟨r, rounded, rounded'⟩ := same
  rw [← compare_eq_iff_eq.mpr (Eq.refl r)]
  exact comparesAs_of_ints parsed parsed' rounded rounded'

theorem comparesAs_of_not_sameDouble (parsed : Value.parse a = .ok (.int i))
    (parsed' : Value.parse b = .ok (.int j)) (apart : ¬ SameDouble i j) :
    ComparesAs a b (Ord.compare i j) := by
  obtain ⟨r, rounded⟩ := Number.exists_intRoundsTo i
  obtain ⟨s, rounded'⟩ := Number.exists_intRoundsTo j
  have apart' : ¬ SameDouble j i := fun same => apart same.symm
  rw [← compare_congr (Number.lt_iff_of_not_sameDouble apart rounded rounded')
    (Number.lt_iff_of_not_sameDouble apart' rounded' rounded)]
  exact comparesAs_of_ints parsed parsed' rounded rounded'

theorem comparesAs_of_small (parsed : Value.parse a = .ok (.int i))
    (parsed' : Value.parse b = .ok (.int j))
    (small : i.natAbs < 0x20000000000000 ∨ j.natAbs < 0x20000000000000) :
    ComparesAs a b (Ord.compare i j) := by
  by_cases same : SameDouble i j
  · rcases same.eq_or_great with rfl | great
    · rw [compare_eq_iff_eq.mpr rfl]
      exact comparesAs_of_sameDouble parsed parsed' same
    · omega
  · exact comparesAs_of_not_sameDouble parsed parsed' same

theorem cellsEqual_iff_sameDouble (parsed : Value.parse a = .ok (.int i))
    (parsed' : Value.parse b = .ok (.int j)) : cellsEqual a b = true ↔ SameDouble i j := by
  obtain ⟨r, rounded⟩ := Number.exists_intRoundsTo i
  obtain ⟨s, rounded'⟩ := Number.exists_intRoundsTo j
  have equal := Except.ok.inj (comparesAs_of_ints parsed parsed' rounded rounded').equal
  rw [equal, Number.sameDouble_iff rounded rounded', Ordering.isEq_iff_eq_eq, compare_eq_iff_eq]

end Condition

end TabStore
