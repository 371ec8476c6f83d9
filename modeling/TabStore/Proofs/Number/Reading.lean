import Mathlib.Data.List.Induction
import Mathlib.Data.Nat.Digits.Defs
import TabStore.Number.Digits
import TabStore.Number.Scientific

/-!
# Reading numbers

The usual readers of signed numbers: an integer is read digit by digit within its bounds, and what
leaves them on the way is refused. Both readers take more than the literals of cells: a plus sign,
a point without digits on one side, an exponent.

Results:
1. `value_eq_ofDigits`: what a run of digits stands for is its decimal value;
2. `readInt_of_isDigits`: digits with an optional minus sign are read within the bounds, and only the
   number that they stand for decides whether it is within them;
3. `isReal_of_isDigits`: digits on both sides of a point are read as a real number, however many.
-/

namespace TabStore.Number

def digit (c : Char) : Nat := c.toNat - '0'.toNat

theorem value_eq_ofDigits (digits : List Char) :
    value digits = Nat.ofDigits 10 (digits.reverse.map digit) := by
  induction digits using List.reverseRecOn with
  | nil => rfl
  | append_singleton front c ih =>
    rw [value_append_singleton, ih, List.reverse_concat, List.map_cons, Nat.ofDigits_cons, digit]
    exact Nat.add_comm _ _

theorem splitSign_of_plain {text : List Char} (noMinus : ∀ rest, text = '-' :: rest → False) :
    splitSign text = (false, text) := by
  unfold splitSign
  split
  · exact (noMinus _ rfl).elim
  · rfl

/-- Digits behind a minus sign, or without one. -/
def signed (negative : Bool) (digits : List Char) : List Char :=
  if negative then '-' :: digits else digits

theorem signed_splitSign (text : List Char) :
    signed (splitSign text).1 (splitSign text).2 = text := by
  unfold splitSign
  split <;> rfl

theorem splitSign_signed {negative : Bool} {digits : List Char} (h : digits.head? ≠ some '-') :
    splitSign (signed negative digits) = (negative, digits) := by
  cases negative with
  | true => rfl
  | false =>
    refine splitSign_of_plain fun rest same => h ?_
    rw [show digits = '-' :: rest from same]
    rfl

theorem isDigit_of_isDigits {digits : List Char} (h : isDigits digits = true) {c : Char}
    (mem : c ∈ digits) : c.isDigit = true := by
  rw [isDigits, Bool.and_eq_true, List.all_eq_true] at h
  exact h.2 c mem

theorem head?_ne_of_isDigits {digits : List Char} (h : isDigits digits = true) (rest : List Char) :
    (digits ++ rest).head? ≠ some '-' := by
  cases digits with
  | nil => cases h
  | cons c more =>
    rintro ⟨⟩
    exact absurd (isDigit_of_isDigits h List.mem_cons_self) (by decide)

/-! ## Integers -/

/-- A number with a minus sign, or without one. -/
def withSign (negative : Bool) (number : Nat) : Int := if negative then -number else number

/-- An integer within its bounds. -/
def checked (least greatest i : Int) : Option Int :=
  if least ≤ i ∧ i ≤ greatest then some i else none

/-- Reads digit by digit, upwards from zero or, behind a minus sign, downwards. -/
def readDigits (least greatest : Int) (negative : Bool) : Int → List Char → Option Int
  | number, [] => some number
  | number, c :: rest =>
    if c.isDigit then do
      let scaled ← checked least greatest (10 * number)
      let next ← checked least greatest (if negative then scaled - digit c else scaled + digit c)
      readDigits least greatest negative next rest
    else none

/-- Reads an integer with an optional sign; a sign alone is none. -/
def readInt (least greatest : Int) : List Char → Option Int
  | [] => none
  | ['+'] => none
  | ['-'] => none
  | '+' :: rest => readDigits least greatest false 0 rest
  | '-' :: rest => readDigits least greatest true 0 rest
  | text => readDigits least greatest false 0 text

section Integers

variable {least greatest : Int} {negative : Bool}

theorem value_le_value_append (front rest : List Char) : value front ≤ value (front ++ rest) := by
  induction rest using List.reverseRecOn with
  | nil => rw [List.append_nil]
  | append_singleton rest c ih =>
    rw [← List.append_assoc, value_append_singleton]
    omega

theorem checked_withSign_of_le (atMost : least ≤ 0) (atLeast : 0 ≤ greatest) {m n : Nat}
    (le : m ≤ n) (outside : checked least greatest (withSign negative m) = none) :
    checked least greatest (withSign negative n) = none := by
  unfold checked withSign at *
  cases negative <;> grind

/-- Only the number behind the next digit has to be checked: ten times the number in front of it is
nearer to zero. -/
theorem readDigits_cons (atMost : least ≤ 0) (atLeast : 0 ≤ greatest) (front : List Char) {c : Char}
    (isDigit : c.isDigit = true) (rest : List Char) :
    readDigits least greatest negative (withSign negative (value front)) (c :: rest) =
      (checked least greatest (withSign negative (value (front ++ [c])))).bind fun next =>
        readDigits least greatest negative next rest := by
  have scaled : 10 * withSign negative (value front) = withSign negative (10 * value front) := by
    cases negative
    · rfl
    · exact Int.mul_neg 10 _
  have next : (if negative then withSign negative (10 * value front) - digit c
      else withSign negative (10 * value front) + digit c) =
        withSign negative (value (front ++ [c])) := by
    rw [value_append_singleton]
    cases negative
    · rfl
    · exact (Int.neg_add).symm
  rw [readDigits, if_pos isDigit, scaled]
  cases within : checked least greatest (withSign negative (10 * value front)) with
  | none =>
    have further : 10 * value front ≤ value (front ++ [c]) := by
      rw [value_append_singleton]
      exact Nat.le_add_right _ _
    rw [checked_withSign_of_le atMost atLeast further within]
    rfl
  | some number =>
    have same : number = withSign negative (10 * value front) := by
      unfold checked at within
      split at within <;> cases within
      rfl
    rw [same, Option.bind_eq_bind, Option.bind_some, next]

theorem readDigits_eq (atMost : least ≤ 0) (atLeast : 0 ≤ greatest) {digits : List Char}
    (isDigit : ∀ c ∈ digits, c.isDigit = true) {front : List Char}
    (inside : checked least greatest (withSign negative (value front)) =
      some (withSign negative (value front))) :
    readDigits least greatest negative (withSign negative (value front)) digits =
      checked least greatest (withSign negative (value (front ++ digits))) := by
  induction digits generalizing front with
  | nil => rw [List.append_nil, inside, readDigits]
  | cons c rest ih =>
    rw [List.forall_mem_cons] at isDigit
    rw [readDigits_cons atMost atLeast front isDigit.1]
    by_cases within : least ≤ withSign negative (value (front ++ [c])) ∧
      withSign negative (value (front ++ [c])) ≤ greatest
    · have still : checked least greatest (withSign negative (value (front ++ [c]))) =
        some (withSign negative (value (front ++ [c]))) := if_pos within
      rw [still, Option.bind_some, ih isDigit.2 still, List.append_assoc, List.singleton_append]
    · have outside : checked least greatest (withSign negative (value (front ++ [c]))) = none :=
        if_neg within
      have further := value_le_value_append (front ++ [c]) rest
      rw [List.append_assoc, List.singleton_append] at further
      rw [outside, checked_withSign_of_le atMost atLeast further outside]
      rfl

/-- Digits behind an optional minus sign are read as the number that they stand for, if that is
within the bounds. -/
theorem readInt_of_isDigits (atMost : least ≤ 0) (atLeast : 0 ≤ greatest) {text : List Char}
    (h : isDigits (splitSign text).2 = true) : readInt least greatest text =
      checked least greatest (withSign (splitSign text).1 (value (splitSign text).2)) := by
  have read : ∀ {digits}, isDigits digits = true → ∀ negative,
      readDigits least greatest negative 0 digits =
        checked least greatest (withSign negative (value digits)) := by
    intro digits h negative
    have zero : withSign negative (value []) = 0 := by cases negative <;> rfl
    have inside : checked least greatest 0 = some 0 := if_pos ⟨atMost, atLeast⟩
    have isDigit : ∀ c ∈ digits, c.isDigit = true := fun _ => isDigit_of_isDigits h
    have start := @readDigits_eq least greatest negative atMost atLeast digits isDigit []
    rw [zero] at start
    exact start inside
  unfold readInt
  split
  · cases h
  · cases h
  · cases h
  · exact absurd h (by simp [splitSign, isDigits])
  · exact read h true
  · next noMinus =>
    rw [splitSign_of_plain noMinus] at h ⊢
    exact read h false

end Integers

/-! ## Real numbers -/

theorem takeWhile_digits_append {digits rest : List Char} (h : ∀ c ∈ digits, c.isDigit = true)
    (stops : ∀ c, rest.head? = some c → c.isDigit = false) :
    (digits ++ rest).takeWhile Char.isDigit = digits ∧
      (digits ++ rest).dropWhile Char.isDigit = rest := by
  rw [List.takeWhile_append_of_pos h, List.dropWhile_append_of_pos h]
  cases rest with
  | nil => simp
  | cons c more => simp [stops c rfl]

theorem dropSign_eq {text : List Char} (noPlus : (splitSign text).2.head? ≠ some '+') :
    dropSign text = (splitSign text).2 := by
  unfold dropSign
  split
  · exact absurd rfl noPlus
  · rfl
  · next noMinus => rw [splitSign_of_plain noMinus]

theorem isReal_of_isDigits {text whole fraction : List Char} (front : isDigits whole = true)
    (back : isDigits fraction = true) (same : (splitSign text).2 = whole ++ '.' :: fraction) :
    isReal text = true := by
  obtain ⟨cutWhole, cutPoint⟩ := @takeWhile_digits_append whole ('.' :: fraction)
    (fun _ => isDigit_of_isDigits front) (by rintro _ ⟨⟩; rfl)
  obtain ⟨cutFraction, nothing⟩ :=
    @takeWhile_digits_append fraction [] (fun _ => isDigit_of_isDigits back) nofun
  rw [List.append_nil] at cutFraction nothing
  have noPlus : (splitSign text).2.head? ≠ some '+' := by
    intro plus
    rw [same, List.head?_append] at plus
    cases whole with
    | nil => cases plus
    | cons c rest =>
      cases plus
      exact absurd (isDigit_of_isDigits front List.mem_cons_self) (by decide)
  have scientific : isScientific (whole ++ '.' :: fraction) = true := by
    unfold isScientific
    rw [cutWhole, cutPoint]
    simp only [cutFraction, nothing]
    rw [isDigits, Bool.and_eq_true] at front
    simpa using fun none => absurd none (by simpa using front.1)
  rw [isReal, dropSign_eq noPlus, same, scientific]
  rfl

end TabStore.Number
