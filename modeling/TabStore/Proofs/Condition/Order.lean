import Mathlib.Data.Int.Order.Basic
import Mathlib.Order.Compare
import TabStore.Condition.Evaluate
import TabStore.Proofs.Meaning
import TabStore.Proofs.Result

/-!
# The order of numeric cells

Equality of cells and the four inequalities read their operands in two different ways. On numeric
literals both of them compare the ranks of the same two numbers, so that a single ordering tells
what all six operators say.

Results:
1. `compareNumbers_eq_ok`: an inequality has an outcome exactly for two numbers, and compares ranks;
2. `comparesAs_iff`: the ordering of two cells is that of their ranks;
3. `compare_consistent`: there is an ordering of any two numeric literals, it is reversed if they
   change places, less is transitive, and equal cells may stand in for each other.
-/

namespace TabStore.Condition

variable {raw cell literal : String} {rank rank' : Int}

theorem meaning_eq_number_iff :
    meaning raw = .number rank ↔ ∃ x, number raw = .ok x ∧ x.rank = rank := by
  unfold meaning number
  cases Value.parse raw with
  | error fault => simp [Except.toOption]
  | ok value => cases value <;> simp [Except.toOption, Value.number?]

theorem compareNumbers_eq_ok {holds : Int → Int → Bool} {outcome : Bool} :
    compareNumbers holds cell literal = .ok outcome ↔ ∃ rank rank', meaning cell = .number rank ∧
      meaning literal = .number rank' ∧ holds rank rank' = outcome := by
  simp only [compareNumbers, bind_eq_ok, meaning_eq_number_iff]
  constructor
  · rintro ⟨left, read, right, read', same⟩
    cases same
    exact ⟨_, _, ⟨left, read, rfl⟩, ⟨right, read', rfl⟩, rfl⟩
  · rintro ⟨_, _, ⟨left, read, rfl⟩, ⟨right, read', rfl⟩, rfl⟩
    exact ⟨left, read, right, read', rfl⟩

theorem cellsEqual_of_numbers (first : meaning cell = .number rank)
    (second : meaning literal = .number rank') :
    cellsEqual cell literal = decide (rank = rank') := by
  rw [Bool.eq_iff_iff, cellsEqual_iff, first, second, Meaning.number.injEq, decide_eq_true_iff]

/-- What the six operators say of a cell and a literal. -/
structure ComparesAs (cell literal : String) (ordering : Ordering) : Prop where
  less : compare .less cell literal = .ok ordering.isLT
  equal : compare .equal cell literal = .ok ordering.isEq
  greater : compare .greater cell literal = .ok ordering.isGT
  lessEqual : compare .lessEqual cell literal = .ok ordering.isLE
  greaterEqual : compare .greaterEqual cell literal = .ok ordering.isGE
  notEqual : compare .notEqual cell literal = .ok ordering.isNe

theorem ComparesAs.unique {ordering ordering' : Ordering} (h : ComparesAs cell literal ordering)
    (h' : ComparesAs cell literal ordering') : ordering = ordering' := by
  have less := Except.ok.inj (h.less.symm.trans h'.less)
  have greater := Except.ok.inj (h.greater.symm.trans h'.greater)
  revert less greater
  cases ordering <;> cases ordering' <;> decide

theorem comparesAs_of_numbers (first : meaning cell = .number rank)
    (second : meaning literal = .number rank') :
    ComparesAs cell literal (Ord.compare rank rank') := by
  have numbers (holds : Int → Int → Bool) :=
    compareNumbers_eq_ok.mpr ⟨rank, rank', first, second, Eq.refl (holds rank rank')⟩
  have equal := cellsEqual_of_numbers first second
  rcases lt_trichotomy rank rank' with less | rfl | greater
  · rw [compare_lt_iff_lt.mpr less]
    constructor <;> simp [compare, numbers, equal] <;> omega
  · rw [compare_eq_iff_eq.mpr rfl]
    constructor <;> simp [compare, numbers, equal]
  · rw [compare_gt_iff_gt.mpr greater]
    constructor <;> simp [compare, numbers, equal] <;> omega

theorem comparesAs_iff {ordering : Ordering} : ComparesAs cell literal ordering ↔
    ∃ rank rank', meaning cell = .number rank ∧ meaning literal = .number rank' ∧
      Ord.compare rank rank' = ordering := by
  constructor
  · intro h
    -- That `<` has an outcome at all shows two numbers.
    have less := h.less
    rw [compare, compareNumbers_eq_ok] at less
    obtain ⟨rank, rank', first, second, -⟩ := less
    exact ⟨rank, rank', first, second, (comparesAs_of_numbers first second).unique h⟩
  · rintro ⟨rank, rank', first, second, rfl⟩
    exact comparesAs_of_numbers first second

theorem exists_comparesAs (numeric : IsNumeric cell) (numeric' : IsNumeric literal) :
    ∃ ordering, ComparesAs cell literal ordering := by
  obtain ⟨rank, first⟩ := isNumeric_iff.mp numeric
  obtain ⟨rank', second⟩ := isNumeric_iff.mp numeric'
  exact ⟨_, comparesAs_of_numbers first second⟩

theorem ComparesAs.swap {ordering : Ordering} (h : ComparesAs cell literal ordering) :
    ComparesAs literal cell ordering.swap := by
  obtain ⟨rank, rank', first, second, rfl⟩ := comparesAs_iff.mp h
  exact comparesAs_iff.mpr ⟨rank', rank, second, first, (Int.compare_swap rank rank').symm⟩

theorem ComparesAs.congr {cell' literal' : String} {ordering : Ordering}
    (same : cellsEqual cell cell' = true) (same' : cellsEqual literal literal' = true)
    (h : ComparesAs cell literal ordering) : ComparesAs cell' literal' ordering := by
  rw [comparesAs_iff, cellsEqual_iff.mp same, cellsEqual_iff.mp same'] at h
  exact comparesAs_iff.mpr h

theorem less_iff : compare .less cell literal = .ok true ↔ ∃ rank rank',
    meaning cell = .number rank ∧ meaning literal = .number rank' ∧ rank < rank' := by
  rw [compare, compareNumbers_eq_ok]
  simp

theorem less_trans {a b c : String} (first : compare .less a b = .ok true)
    (second : compare .less b c = .ok true) : compare .less a c = .ok true := by
  obtain ⟨rank, middle, left, here, less⟩ := less_iff.mp first
  obtain ⟨_, rank', again, right, less'⟩ := less_iff.mp second
  cases here.symm.trans again
  exact less_iff.mpr ⟨rank, rank', left, right, less.trans less'⟩

/-- The six operators tell one order of the numeric literals. Exactly one ordering holds of any
two of them, and it is reversed if they change places; less is transitive; and literals that are
equal to them compare alike. -/
theorem compare_consistent :
    (∀ a b, IsNumeric a → IsNumeric b → ∃! ordering, ComparesAs a b ordering) ∧
    (∀ a b ordering, ComparesAs a b ordering → ComparesAs b a ordering.swap) ∧
    (∀ a b c, compare .less a b = .ok true → compare .less b c = .ok true →
      compare .less a c = .ok true) ∧
    ∀ a a' b b' ordering, compare .equal a a' = .ok true → compare .equal b b' = .ok true →
      ComparesAs a b ordering → ComparesAs a' b' ordering := by
  refine ⟨fun a b numeric numeric' => ?_, fun _ _ _ => ComparesAs.swap,
    fun _ _ _ => less_trans, fun a a' b b' ordering same same' => ?_⟩
  · obtain ⟨ordering, h⟩ := exists_comparesAs numeric numeric'
    exact ⟨ordering, h, fun other h' => h'.unique h⟩
  · exact ComparesAs.congr (Except.ok.inj same) (Except.ok.inj same')

/-- An integer that no double-precision number is equal to compares as the number next to it. -/
theorem compare_consistent_rounded :
    IsNumeric "-0" ∧ IsNumeric "9007199254740993" ∧ ComparesAs "-0" "9007199254740993" .lt ∧
    (∃! ordering, ComparesAs "-0" "9007199254740993" ordering) ∧
    ComparesAs "9007199254740993" "-0" .gt ∧
    compare .less "-1.5" "-0" = .ok true ∧ compare .less "-0" "9007199254740993" = .ok true ∧
    compare .less "-1.5" "9007199254740993" = .ok true ∧
    compare .equal "-0" "00.0" = .ok true ∧
    compare .equal "9007199254740993" "9007199254740992.0" = .ok true ∧
    ComparesAs "00.0" "9007199254740992.0" .lt := by
  obtain ⟨total, swap, less_trans, congr⟩ := compare_consistent
  have numeric : IsNumeric "-0" := by decide
  have numeric' : IsNumeric "9007199254740993" := by decide
  have ordered : ComparesAs "-0" "9007199254740993" .lt := by constructor <;> decide +kernel
  have less : compare .less "-1.5" "-0" = .ok true := by decide +kernel
  have zeros : compare .equal "-0" "00.0" = .ok true := by decide +kernel
  have rounded : compare .equal "9007199254740993" "9007199254740992.0" = .ok true := by
    decide +kernel
  exact ⟨numeric, numeric', ordered, total _ _ numeric numeric', swap _ _ _ ordered, less,
    ordered.less, less_trans _ _ _ less ordered.less, zeros, rounded,
    congr _ _ _ _ _ zeros rounded ordered⟩

end TabStore.Condition
