import TabStore.Proofs.Result
import TabStore.Proofs.Text.Lines

/-!
# Messages of errors

A message is one line as long as the texts that it shows are. Texts that it shows between quotes may
be any, because their line feeds are escaped.

Results:
1. `isLine_quoted`, `isLine_quotedChar`: quoted text is one line;
2. `Error.isLine_message`: so is a message about lines.
-/

namespace TabStore

namespace Text

/-- A text without line feeds. -/
def IsLine (text : String) : Prop := '\n' ∉ text.toList

instance (text : String) : Decidable (IsLine text) := inferInstanceAs (Decidable (_ ∉ _))

variable {left right text : String}

@[simp] theorem isLine_append : IsLine (left ++ right) ↔ IsLine left ∧ IsLine right := by
  simp [IsLine]

theorem isLine_ofList {chars : List Char} : IsLine (String.ofList chars) ↔ '\n' ∉ chars := by
  rw [IsLine, String.toList_ofList]

theorem isLine_intercalate {separator : String} (plain : IsLine separator) {pieces : List String}
    (h : ∀ piece ∈ pieces, IsLine piece) : IsLine (separator.intercalate pieces) := by
  rw [IsLine, String.toList_intercalate]
  intro mem
  rcases mem_intercalate mem with between | ⟨piece, found, inside⟩
  · exact plain between
  · obtain ⟨text, present, rfl⟩ := List.mem_map.mp found
    exact h text present inside

theorem isLine_toString (n : Nat) : IsLine (toString n) := by
  intro mem
  have digits := Number.isDigits_toString n
  rw [Number.isDigits, Bool.and_eq_true, List.all_eq_true] at digits
  exact absurd (digits.2 '\n' mem) (by decide)

theorem mem_toDigitsCore {base fuel n : Nat} {digits : List Char} {c : Char} (some : 0 < base)
    (h : c ∈ Nat.toDigitsCore base fuel n digits) :
    c ∈ digits ∨ ∃ k < base, c = Nat.digitChar k := by
  induction fuel generalizing n digits with
  | zero => exact .inl h
  | succ fuel ih =>
    rw [Nat.toDigitsCore] at h
    have older : c ∈ Nat.digitChar (n % base) :: digits →
        c ∈ digits ∨ ∃ k < base, c = Nat.digitChar k := fun mem =>
      (List.mem_cons.mp mem).elim (fun same => .inr ⟨_, Nat.mod_lt n some, same⟩) .inl
    split at h
    · exact older h
    · exact (ih h).elim older .inr

theorem escape_free {quote : Char} (other : quote ≠ '\n') (c : Char) : '\n' ∉ escape quote c := by
  unfold escape
  split
  · next marked =>
    rcases marked with rfl | rfl
    · simp [Ne.symm other]
    · decide
  split
  · decide
  · next notFeed =>
    split
    · decide
    split
    · decide
    split
    · decide
    split
    · simp [Ne.symm notFeed]
    · intro mem
      simp only [List.mem_append] at mem
      rcases mem with (start | digits) | stop
      · revert start
        decide
      · have plain : ∀ k < 16, Nat.digitChar k ≠ '\n' := by decide
        rcases mem_toDigitsCore (by decide) digits with nothing | ⟨k, small, same⟩
        · cases nothing
        · exact plain k small same.symm
      · revert stop
        decide

theorem isLine_quoted (text : String) : IsLine (quoted text) := by
  rw [quoted, isLine_ofList]
  intro mem
  rcases List.mem_cons.mp mem with first | mem
  · cases first
  · rcases List.mem_append.mp mem with inside | last
    · obtain ⟨c, -, escaped⟩ := List.mem_flatMap.mp inside
      exact escape_free (by decide) c escaped
    · revert last
      decide

theorem isLine_quotedChar (c : Char) : IsLine (quotedChar c) := by
  rw [quotedChar, isLine_ofList]
  intro mem
  rcases List.mem_cons.mp mem with first | mem
  · cases first
  · rcases List.mem_append.mp mem with inside | last
    · exact escape_free (by decide) c inside
    · revert last
      decide

end Text

namespace Error

open Text (IsLine isLine_quoted isLine_quotedChar isLine_toString)

/-- The texts that a message shows as they are. -/
def texts : Error → List String
  | .unknownCommand text | .trailingInput text | .reservedName text | .invalidLiteral text
  | .malformedList text | .malformedCondition text | .conditionRequired text
  | .databaseNotFound text | .databaseExists text | .tableNotFound text | .tableExists text
  | .duplicateAttribute text | .protectedAttribute text | .nonNumericOperand text
  | .nonStringOperand text | .nonBooleanOperand text => [text]
  | .unexpectedToken expected found => [expected, found]
  | .attributeNotFound table name => [table, name]
  | .fileFailure action cause => [action, cause.message]
  | .corruptTable path reason => [path, reason]
  | .stackUnderflow operator => [operator.toString]
  | .emptyStatement | .unterminatedStatement | .invalidName _ | .reservedCharacter _
  | .unterminatedString | .noWorkingDatabase | .widthMismatch ..
  | .unresolvedCondition => []

/-- An error that shows lines only. -/
def IsPlain (e : Error) : Prop := ∀ text ∈ e.texts, IsLine text

theorem isLine_message {e : Error} (h : e.IsPlain) : IsLine e.message := by
  -- Every part of a message is a constant, a number, quoted, or a text that is shown.
  cases e <;> repeat' first
    | with_reducible exact isLine_quoted _
    | with_reducible exact isLine_quotedChar _
    | with_reducible exact isLine_toString _
    | exact h _ List.mem_cons_self
    | exact h _ (List.mem_cons_of_mem _ List.mem_cons_self)
    | decide +kernel
    | refine Text.isLine_append.mpr ⟨?_, ?_⟩

theorem isPlain_of_nil {e : Error} (h : e.texts = []) : e.IsPlain := by
  intro text mem
  rw [h] at mem
  cases mem

theorem isPlain_of_singleton {e : Error} {text : String} (h : e.texts = [text])
    (line : IsLine text) : e.IsPlain := by
  intro other mem
  rw [h] at mem
  exact List.mem_singleton.mp mem ▸ line

end Error

/-- A step that returns what satisfies `P`, or fails with an error that shows lines only. -/
abbrev EndsPlain {α : Type} (P : α → Prop) : Result α → Prop := Ends P Error.IsPlain

end TabStore
