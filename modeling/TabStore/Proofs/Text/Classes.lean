import TabStore.Condition.Lexeme
import TabStore.Literal
import TabStore.Name

/-!
# Classes of characters

Which classes of characters have nothing in common: the characters of words are neither blank nor
marks of a condition, and the characters of plain literals are word characters, points and minus
signs. Characters that differ in letter case only have the same upper case.
-/

namespace TabStore.Text

/-- What holds of the characters of a list, each checked on its own. -/
theorem forall_of_all {p : Char → Prop} [DecidablePred p] {chars : List Char}
    (h : chars.all (fun c => decide (p c)) = true) : ∀ c ∈ chars, p c := by
  intro c mem
  exact of_decide_eq_true (List.all_eq_true.mp h c mem)

theorem codes_of_isAlphanum {c : Char} (h : c.isAlphanum = true) :
    0x30 ≤ c.toNat ∧ c.toNat ≤ 0x39 ∨ 0x41 ≤ c.toNat ∧ c.toNat ≤ 0x5A ∨
      0x61 ≤ c.toNat ∧ c.toNat ≤ 0x7A := by
  have code : c.toNat = c.val.toNat := rfl
  have ends : 'A'.val.toNat = 0x41 ∧ 'Z'.val.toNat = 0x5A ∧ 'a'.val.toNat = 0x61 ∧
      'z'.val.toNat = 0x7A ∧ '0'.val.toNat = 0x30 ∧ '9'.val.toNat = 0x39 := by decide
  have upper : c.isUpper = decide ('A'.val ≤ c.val ∧ c.val ≤ 'Z'.val) := rfl
  have lower : c.isLower = (decide ('a'.val ≤ c.val) && decide (c.val ≤ 'z'.val)) := rfl
  have digit : c.isDigit = (decide ('0'.val ≤ c.val) && decide (c.val ≤ '9'.val)) := rfl
  have parts : c.isAlphanum = (c.isUpper || c.isLower || c.isDigit) := rfl
  simp only [parts, upper, lower, digit, Bool.or_eq_true, Bool.and_eq_true, decide_eq_true_eq,
    UInt32.le_iff_toNat_le] at h
  omega

theorem toNat_lt_of_isAlphanum {c : Char} (h : c.isAlphanum = true) : c.toNat < 0x80 := by
  have codes := codes_of_isAlphanum h
  omega

theorem isBlank_eq_false_of_isAlphanum {c : Char} (h : c.isAlphanum = true) :
    isBlank c = false := by
  have codes := codes_of_isAlphanum h
  simp only [isBlank, inRanges, blankRanges, List.any_cons, List.any_nil, Bool.or_eq_false_iff,
    Bool.and_eq_false_iff, decide_eq_false_iff_not, and_true]
  omega

theorem isAlphanumeric_of_isAlphanum {c : Char} (h : c.isAlphanum = true) :
    isAlphanumeric c = true := by
  have ascii := toNat_lt_of_isAlphanum h
  rw [isAlphanumeric, isAlphabetic, isNumeric, if_pos ascii, if_pos ascii]
  exact h

/-- No code point is in two lists of ranges if none of the ranges meet. Two ranges are compared by
their ends, so that tables of ranges are compared fast. -/
theorem inRanges_eq_false_of_apart {left right : List (Nat × Nat)}
    (apart : (left.all fun range => right.all fun other =>
      Nat.blt range.2 other.1 || Nat.blt other.2 range.1) = true)
    {code : Nat} (h : inRanges left code = true) : inRanges right code = false := by
  rw [← Bool.not_eq_true, inRanges_eq_true_iff]
  rintro ⟨other, mem', low', high'⟩
  obtain ⟨range, mem, low, high⟩ := inRanges_eq_true_iff.mp h
  have beside := List.all_eq_true.mp (List.all_eq_true.mp apart range mem) other mem'
  simp only [Bool.or_eq_true, Nat.blt_eq] at beside
  omega

theorem isAlphanumeric_of_isBlank {c : Char} (h : isBlank c = true) : isAlphanumeric c = false := by
  have notAscii : c.isAlphanum = false := by
    rw [← Bool.not_eq_true]
    intro ascii
    rw [isBlank_eq_false_of_isAlphanum ascii] at h
    cases h
  have noLetter : inRanges alphabeticRanges c.toNat = false :=
    inRanges_eq_false_of_apart (by decide +kernel) h
  have noNumber : inRanges numericRanges c.toNat = false :=
    inRanges_eq_false_of_apart (by decide +kernel) h
  have parts : c.isAlphanum = (c.isAlpha || c.isDigit) := rfl
  rw [parts, Bool.or_eq_false_iff] at notAscii
  rw [isAlphanumeric, isAlphabetic, isNumeric, noLetter, noNumber, notAscii.1, notAscii.2, ite_self]
  rfl

/-- What holds of all ASCII letters and digits, each checked on its own. -/
theorem forall_isAlphanum {p : Char → Prop} [DecidablePred p]
    (h : ∀ code ∈ List.range 0x80, (Char.ofNat code).isAlphanum = true → p (Char.ofNat code))
    {c : Char} (alphanum : c.isAlphanum = true) : p c := by
  have checked := h c.toNat (List.mem_range.mpr (toNat_lt_of_isAlphanum alphanum))
  rw [Char.ofNat_toNat] at checked
  exact checked alphanum

theorem isAlphanum_of_toUpper {c : Char} (h : c.toUpper.isUpper = true) : c.isAlphanum = true := by
  have parts : c.isAlphanum = (c.isUpper || c.isLower || c.isDigit) := rfl
  by_cases lower : c.val ≥ 'a'.val ∧ c.val ≤ 'z'.val
  · have isLower : c.isLower = true :=
      Bool.and_eq_true_iff.mpr ⟨decide_eq_true lower.1, decide_eq_true lower.2⟩
    rw [parts, isLower, Bool.or_true]
    rfl
  · have same : c.toUpper = c := dif_neg lower
    rw [same] at h
    rw [parts, h]
    rfl

/-- Only two letters from outside ASCII have a capital of ASCII as their upper case. -/
theorem cases_of_isUpper_upperChar {c : Char} (h : (upperChar c).isUpper = true) :
    c = 'ı' ∨ c = 'ſ' ∨ c.isAlphanum = true := by
  unfold upperChar at h
  split at h
  · next dotless => exact .inl dotless
  · split at h
    · next long => exact .inr (.inl long)
    · exact .inr (.inr (isAlphanum_of_toUpper h))

theorem isUpper_upperChar_of_isDigit {c : Char} (h : c.isDigit = true) :
    (upperChar c).isUpper = false := by
  have alphanum : c.isAlphanum = true := by simp [Char.isAlphanum, h]
  exact forall_isAlphanum (p := fun c => c.isDigit = true → (upperChar c).isUpper = false)
    (by decide +kernel) alphanum h

theorem upperChar_toLower (c : Char) : upperChar c.toLower = upperChar c := by
  cases alphanumeric : c.isAlphanum with
  | true =>
    exact forall_isAlphanum (p := fun c => upperChar c.toLower = upperChar c) (by decide +kernel)
      alphanumeric
  | false =>
    have notUpper : c.isUpper = false := (Bool.or_eq_false_iff.mp (Bool.or_eq_false_iff.mp
      alphanumeric).1).1
    have same : c.toLower = c := dif_neg (of_decide_eq_false notUpper)
    rw [same]

theorem upper_eq_of_sameIgnoringCase {left right : List Char}
    (h : sameIgnoringCase left right = true) : upper left = upper right := by
  have lower : ∀ text, upper text = (text.map Char.toLower).map upperChar := fun text => by
    rw [upper, List.map_map]
    exact List.map_congr_left fun c _ => (upperChar_toLower c).symm
  rw [lower, lower, eq_of_beq h]

end TabStore.Text

namespace TabStore.Condition

/-- A character whose upper case is an ASCII letter is a character of words. -/
theorem isWordChar_of_upperChar {c : Char} (h : (Text.upperChar c).isUpper = true) :
    isWordChar c = true := by
  rcases Text.cases_of_isUpper_upperChar h with rfl | rfl | ascii
  · decide
  · decide
  · rw [isWordChar, Text.isAlphanumeric_of_isAlphanum ascii, Bool.true_or]

theorem not_isWordChar_of_isBlank {c : Char} (h : Text.isBlank c = true) :
    isWordChar c = false := by
  have notUnderscore : c ≠ '_' := by
    rintro rfl
    revert h
    decide
  simp [isWordChar, Text.isAlphanumeric_of_isBlank h, notUnderscore]

/-- The marks that end an operand: parentheses, quotes and the codes of operators. -/
def marks : List Char := '(' :: ')' :: '\'' :: Operator.all.map Operator.code

theorem isOperandChar_eq_true_iff {c : Char} :
    isOperandChar c = true ↔ Text.isBlank c = false ∧ c ∉ marks := by
  have found : (Operator.ofCode? c).isSome = true ↔ c ∈ Operator.all.map Operator.code := by
    rw [Operator.ofCode?, List.find?_isSome]
    simp only [List.mem_map, beq_iff_eq]
  simp only [isOperandChar, marks, List.mem_cons, not_or, ← found]
  simp [and_assoc]

theorem not_isWordChar_of_mem_marks {c : Char} (h : c ∈ marks) : isWordChar c = false := by
  have apart : ∀ mark ∈ marks, isWordChar mark = false := Text.forall_of_all (by decide +kernel)
  exact apart c h

theorem isOperandChar_of_isWordChar {c : Char} (h : isWordChar c = true) :
    isOperandChar c = true := by
  rw [isOperandChar_eq_true_iff]
  constructor
  · cases blank : Text.isBlank c with
    | false => rfl
    | true => rw [not_isWordChar_of_isBlank blank] at h; cases h
  · intro marked
    rw [not_isWordChar_of_mem_marks marked] at h
    cases h

end TabStore.Condition
