import TabStore.Name
import TabStore.Proofs.Result
import TabStore.Proofs.Text.Unquoted

/-!
# Valid names

What can be relied on for every name that is accepted: it is not empty, holds no white space, quote
or path separator, is read back as a word, and is no name of a directory that every directory has.
-/

namespace TabStore

theorem validateName_eq_ok {name : String} : validateName name = .ok () ↔
    isReserved name = false ∧ endsAlphanumeric name = true ∧
      ∀ c ∈ name.toList, isForbiddenInName c = false := by
  unfold validateName
  cases isReserved name with
  | true => simp
  | false => simp

/-- No reserved word is longer than eight characters. -/
theorem isReserved_of_length {name : String} (long : 8 < name.toList.length) :
    isReserved name = false := by
  have other : name ≠ "*" := by
    rintro rfl
    exact absurd long (by decide)
  have noKeyword : Keyword.ofWord? name = none := by
    refine List.find?_eq_none.mpr fun keyword _ same => ?_
    have lengths := congrArg List.length (eq_of_beq same)
    have short : keyword.word.toList.length ≤ 8 := by cases keyword <;> decide
    rw [Text.upper, List.length_map] at lengths
    omega
  have noCondition : ∀ reserved ∈ conditionWords,
      ¬ Text.sameIgnoringCase name.toList reserved.toList = true := by
    intro reserved mem same
    have lengths := congrArg List.length (eq_of_beq same)
    have short : ∀ reserved ∈ conditionWords, reserved.toList.length ≤ 8 := by decide
    rw [List.length_map, List.length_map] at lengths
    have := short reserved mem
    omega
  rw [isReserved, Token.ofWord, if_neg other, noKeyword, List.any_eq_false.mpr noCondition]
  rfl

/-- A text that is accepted as a name. -/
def IsName (name : String) : Prop := validateName name = .ok ()

namespace IsName

variable {name : String}

theorem exists_last (h : IsName name) :
    ∃ c, name.toList.getLast? = some c ∧ c.isAlphanum = true := by
  have ends := (validateName_eq_ok.mp h).2.1
  exact (Option.any_eq_true _ _).mp ends

theorem ne_nil (h : IsName name) : name.toList ≠ [] := by
  obtain ⟨c, last, -⟩ := h.exists_last
  intro empty
  rw [empty] at last
  cases last

theorem not_mem (h : IsName name) {c : Char} (forbidden : isForbiddenInName c = true) :
    c ∉ name.toList := by
  intro mem
  have allowed := (validateName_eq_ok.mp h).2.2 c mem
  rw [forbidden] at allowed
  cases allowed

theorem no_quote (h : IsName name) : '\'' ∉ name.toList := h.not_mem (by decide)

theorem not_isBlank (h : IsName name) {c : Char} (mem : c ∈ name.toList) :
    Text.isBlank c = false := by
  have allowed := (validateName_eq_ok.mp h).2.2 c mem
  simp only [isForbiddenInName, Bool.or_eq_false_iff] at allowed
  exact allowed.1.1.1.1

theorem closed (h : IsName name) : Text.Closed name.toList := Text.closed_of_plain h.no_quote

theorem free_iff (h : IsName name) {p : Char → Bool} :
    Text.Free p false name.toList ↔ ∀ c ∈ name.toList, p c = false :=
  Text.free_iff_of_plain h.no_quote

/-- A name is no keyword and no star. -/
theorem ofWord (h : IsName name) : Token.ofWord name = .word name := by
  have free := (validateName_eq_ok.mp h).1
  rw [isReserved, Bool.or_eq_false_iff] at free
  unfold Token.ofWord at free ⊢
  split
  · next star => simp [star] at free
  · next noStar =>
    rw [if_neg noStar] at free
    split
    · next found => simp [found] at free
    · rfl

theorem ne_dots (h : IsName name) : name ≠ "." ∧ name ≠ ".." := by
  obtain ⟨c, last, alphanumeric⟩ := h.exists_last
  constructor
  · rintro rfl
    cases last
    revert alphanumeric
    decide
  · rintro rfl
    cases last
    revert alphanumeric
    decide

end IsName

end TabStore
