import TabStore.Literal
import TabStore.Proofs.Text.Classes
import TabStore.Proofs.Text.Unquoted

/-!
# Characters of literals

A literal is a text in quotes without a quote, tab or line break in between, or consists of ASCII
letters, digits, points and minus signs.
-/

namespace TabStore

/-- The characters of the literals that need no quotes. -/
def isPlainLiteralChar (c : Char) : Bool := c.isAlphanum || c == '-' || c == '.'

namespace Shape

theorem exists_of_isTextLiteral {raw : List Char} (h : isTextLiteral raw = true) :
    ∃ body, raw = '\'' :: body ++ ['\''] ∧ '\'' ∉ body ∧ '\t' ∉ body ∧ '\n' ∉ body ∧
      '\r' ∉ body := by
  unfold isTextLiteral at h
  split at h
  · next rest =>
    rw [Bool.and_eq_true, beq_iff_eq] at h
    obtain ⟨body, rfl⟩ := List.getLast?_eq_some_iff.mp h.1
    rw [List.dropLast_concat] at h
    refine ⟨body, rfl, ?_⟩
    have inner := List.all_eq_true.mp h.2
    refine ⟨fun mem => ?_, fun mem => ?_, fun mem => ?_, fun mem => ?_⟩ <;>
      exact absurd (inner _ mem) (by decide)
  · cases h

theorem isAlphanum_of_toLower {c : Char} (h : c.toLower.isLower = true) : c.isAlphanum = true := by
  have parts : c.isAlphanum = (c.isUpper || c.isLower || c.isDigit) := rfl
  by_cases upper : c.val ≥ 'A'.val ∧ c.val ≤ 'Z'.val
  · have isUpper : c.isUpper = true := decide_eq_true upper
    rw [parts, isUpper]
    rfl
  · have same : c.toLower = c := dif_neg upper
    rw [same] at h
    rw [parts, h, Bool.or_true]
    rfl

theorem isPlainLiteralChar_of_sameIgnoringCase {raw word : List Char}
    (lower : (word.map Char.toLower).all Char.isLower = true)
    (h : Text.sameIgnoringCase raw word = true) {c : Char} (mem : c ∈ raw) :
    isPlainLiteralChar c = true := by
  rw [Text.sameIgnoringCase, beq_iff_eq] at h
  have lowered : c.toLower ∈ word.map Char.toLower := h ▸ List.mem_map_of_mem mem
  simp [isPlainLiteralChar, isAlphanum_of_toLower (List.all_eq_true.mp lower _ lowered)]

/-- A boolean word has the same upper case in all its spellings. -/
theorem upper_of_sameIgnoringCase {raw word : List Char}
    (lower : (word.map Char.toLower).all Char.isLower = true)
    (h : Text.sameIgnoringCase raw word = true) :
    Text.upper raw = (word.map Char.toLower).map Char.toUpper := by
  rw [Text.sameIgnoringCase, beq_iff_eq] at h
  rw [← h, List.map_map]
  refine List.map_congr_left fun c mem => ?_
  have small : c.toLower.isLower = true :=
    List.all_eq_true.mp lower _ (h ▸ List.mem_map_of_mem mem)
  exact Text.forall_isAlphanum
    (p := fun c => c.toLower.isLower = true → Text.upperChar c = c.toLower.toUpper)
    (by decide +kernel) (isAlphanum_of_toLower small) small

theorem isPlainLiteralChar_of_isDigits {digits : List Char} (h : Number.isDigits digits = true)
    {c : Char} (mem : c ∈ digits) : isPlainLiteralChar c = true := by
  rw [Number.isDigits, Bool.and_eq_true] at h
  have digit := List.all_eq_true.mp h.2 c mem
  simp [isPlainLiteralChar, Char.isAlphanum, digit]

theorem exists_of_isDigits {digits : List Char} (h : Number.isDigits digits = true) :
    ∃ c ∈ digits, c.isDigit = true := by
  cases digits with
  | nil => cases h
  | cons c rest =>
    rw [Number.isDigits, Bool.and_eq_true] at h
    exact ⟨c, List.mem_cons_self, List.all_eq_true.mp h.2 c List.mem_cons_self⟩

theorem mem_of_mem_splitSign {raw : List Char} {c : Char}
    (mem : c ∈ (Number.splitSign raw).2) : c ∈ raw := by
  unfold Number.splitSign at mem
  split at mem
  · exact List.mem_cons_of_mem _ mem
  · exact mem

theorem mem_splitSign {raw : List Char} {c : Char} (mem : c ∈ raw) :
    c = '-' ∨ c ∈ (Number.splitSign raw).2 := by
  unfold Number.splitSign
  split
  · exact List.mem_cons.mp mem
  · exact .inr mem

theorem mem_decimalParts {raw : List Char} {c : Char} (mem : c ∈ raw) :
    c = '-' ∨ c = '.' ∨ c ∈ (decimalParts raw).1 ∨ c ∈ (decimalParts raw).2 := by
  rcases mem_splitSign mem with sign | mem
  · exact .inl sign
  · refine .inr ?_
    unfold decimalParts
    rw [← @List.takeWhile_append_dropWhile _ (· != '.') (Number.splitSign raw).2,
      List.mem_append] at mem
    rcases mem with first | second
    · exact .inr (.inl first)
    · cases rest : (Number.splitSign raw).2.dropWhile (· != '.') with
      | nil =>
        rw [rest] at second
        cases second
      | cons point more =>
        have stopped := List.head?_dropWhile_not (· != '.') (Number.splitSign raw).2
        rw [rest] at second stopped
        rcases List.mem_cons.mp second with rfl | later
        · exact .inl (by simpa using stopped)
        · refine .inr (.inr ?_)
          show c ∈ ((Number.splitSign raw).2.dropWhile (· != '.')).drop 1
          rw [rest]
          exact later

end Shape

namespace Value

theorem ne_nil_of_isLiteral {raw : String} (h : isLiteral raw = true) : raw.toList ≠ [] := by
  intro empty
  have same : raw = "" := String.toList_inj.mp empty
  rw [same] at h
  revert h
  decide

theorem isLiteral_cases {raw : String} (h : isLiteral raw = true) :
    (∃ body, raw.toList = '\'' :: body ++ ['\''] ∧ '\'' ∉ body ∧ '\t' ∉ body ∧ '\n' ∉ body ∧
      '\r' ∉ body) ∨ ∀ c ∈ raw.toList, isPlainLiteralChar c = true := by
  unfold isLiteral Shape.classify at h
  dsimp only at h
  split at h
  · next text => exact .inl (Shape.exists_of_isTextLiteral text)
  · refine .inr fun c mem => ?_
    split at h
    · next word =>
      rcases Bool.or_eq_true _ _ ▸ word with same | same
      · exact Shape.isPlainLiteralChar_of_sameIgnoringCase (by decide) same mem
      · exact Shape.isPlainLiteralChar_of_sameIgnoringCase (by decide) same mem
    · split at h
      · next int =>
        rw [Shape.isInt, Bool.and_eq_true] at int
        rcases Shape.mem_splitSign mem with rfl | digit
        · decide
        · exact Shape.isPlainLiteralChar_of_isDigits int.1 digit
      · split at h
        · next float =>
          rw [Shape.isFloat, Bool.and_eq_true] at float
          rcases Shape.mem_decimalParts mem with rfl | rfl | digit | digit
          · decide
          · decide
          · exact Shape.isPlainLiteralChar_of_isDigits float.1 digit
          · exact Shape.isPlainLiteralChar_of_isDigits float.2 digit
        · cases h

/-- A literal is a spelling of `true` or `false`, or it has a quote or a digit. -/
theorem spells_of_isLiteral {raw : String} (h : isLiteral raw = true) :
    Text.upper raw.toList = "TRUE".toList ∨ Text.upper raw.toList = "FALSE".toList ∨
      ∃ c ∈ raw.toList, c = '\'' ∨ c.isDigit = true := by
  unfold isLiteral Shape.classify at h
  dsimp only at h
  split at h
  · next text =>
    obtain ⟨body, same, -⟩ := Shape.exists_of_isTextLiteral text
    refine .inr (.inr ⟨'\'', ?_, .inl rfl⟩)
    rw [same]
    exact List.mem_cons_self
  · split at h
    · next word =>
      rcases Bool.or_eq_true _ _ ▸ word with same | same
      · exact .inl (Shape.upper_of_sameIgnoringCase (by decide) same)
      · exact .inr (.inl (Shape.upper_of_sameIgnoringCase (by decide) same))
    · refine .inr (.inr ?_)
      split at h
      · next int =>
        rw [Shape.isInt, Bool.and_eq_true] at int
        obtain ⟨c, mem, digit⟩ := Shape.exists_of_isDigits int.1
        exact ⟨c, Shape.mem_of_mem_splitSign mem, .inr digit⟩
      · split at h
        · next float =>
          rw [Shape.isFloat, Bool.and_eq_true] at float
          obtain ⟨c, mem, digit⟩ := Shape.exists_of_isDigits float.1
          have before := (List.takeWhile_prefix _).subset mem
          exact ⟨c, Shape.mem_of_mem_splitSign before, .inr digit⟩
        · cases h

/-- A literal is one piece for every scanner whose separators are in no literal without quotes. -/
theorem free_of_isLiteral {raw : String} (h : isLiteral raw = true) {p : Char → Bool}
    (quote : p '\'' = false) (plain : ∀ c, isPlainLiteralChar c = true → p c = false) :
    Text.Free p false raw.toList ∧ Text.Closed raw.toList := by
  rcases isLiteral_cases h with ⟨body, same, noQuote, -⟩ | chars
  · rw [same]
    exact ⟨Text.free_literal noQuote quote, Text.closed_literal noQuote⟩
  · have noQuote : '\'' ∉ raw.toList := fun mem => absurd (chars _ mem) (by decide)
    exact ⟨(Text.free_iff_of_plain noQuote).mpr fun c mem => plain c (chars c mem),
      Text.closed_of_plain noQuote⟩

end Value

end TabStore
