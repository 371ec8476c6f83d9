import TabStore.Condition.Operator
import TabStore.Error
import TabStore.Text.Alphanumeric
import TabStore.Text.UpperCase

/-!
# Canonical condition text

Before a condition is read, its operators are replaced by their codes: `!=`, `>=`, `<=`, `==` and
the words AND, OR, LIKE. String literals are kept as they stand. A code that no source text may use
is refused, so every code in the canonical text comes from an operator.
-/

namespace TabStore.Condition

def isWordChar (c : Char) : Bool := Text.isAlphanumeric c || c == '_'

/-- The codes that stand for operators written otherwise in the source. -/
def isReservedCode (c : Char) : Bool := ['!', '@', '£', '~', '&', '+'].contains c

/-- The code of two characters that together write one operator. -/
def pairCode? (first second : Char) : Option Char :=
  if second ≠ '=' then none
  else if first = '=' then some Operator.equal.code
  else if first = '!' then some Operator.notEqual.code
  else if first = '>' then some Operator.greaterEqual.code
  else if first = '<' then some Operator.lessEqual.code
  else none

/-- A word, or the code of the operator that it names in any letter case. -/
def canonicalWord (word : List Char) : List Char :=
  let upper := Text.upper word
  if upper = "AND".toList then [Operator.and.code]
  else if upper = "OR".toList then [Operator.or.code]
  else if upper = "LIKE".toList then [Operator.like.code]
  else word

/-- A text cut behind its first quote. -/
def cutAfterQuote : List Char → Option (List Char × List Char)
  | [] => none
  | c :: rest =>
    if c = '\'' then some (['\''], rest)
    else (cutAfterQuote rest).map fun cut => (c :: cut.1, cut.2)

theorem cutAfterQuote_length {text literal rest : List Char}
    (h : cutAfterQuote text = some (literal, rest)) : rest.length < text.length := by
  induction text generalizing literal with
  | nil => simp [cutAfterQuote] at h
  | cons c tail ih =>
    simp only [cutAfterQuote] at h
    split at h
    · simp only [Option.some.injEq, Prod.mk.injEq] at h
      simp [h.2]
    · obtain ⟨cut, found, same⟩ := Option.map_eq_some_iff.mp h
      simp only [Prod.mk.injEq] at same
      have shorter : cutAfterQuote tail = some (cut.1, rest) := by rw [found, ← same.2]
      have := ih shorter
      simp only [List.length_cons]
      omega

/-- The canonical form of the first piece of a text, and the text after that piece. -/
def canonicalPiece (c : Char) (rest : List Char) : Result (List Char × List Char) :=
  if c = '\'' then
    match cutAfterQuote rest with
    | none => .error .unterminatedString
    | some (literal, after) => .ok ('\'' :: literal, after)
  else match rest.head?.bind (pairCode? c) with
    | some code => .ok ([code], rest.tail)
    | none =>
      if isReservedCode c then .error (.reservedCharacter c)
      else if isWordChar c then
        .ok (canonicalWord (c :: rest.takeWhile isWordChar), rest.dropWhile isWordChar)
      else .ok ([c], rest)

theorem canonicalPiece_length {c : Char} {rest piece after : List Char}
    (h : canonicalPiece c rest = .ok (piece, after)) : after.length ≤ rest.length := by
  unfold canonicalPiece at h
  split at h
  · split at h
    · cases h
    · rename_i found
      cases h
      exact Nat.le_of_lt (cutAfterQuote_length found)
  · split at h
    · cases h
      simp
    · split at h
      · cases h
      · split at h
        · cases h
          exact (List.dropWhile_suffix isWordChar).length_le
        · cases h
          exact Nat.le_refl _

def canonicalChars (text : List Char) : Result (List Char) :=
  match text with
  | [] => .ok []
  | c :: rest =>
    match h : canonicalPiece c rest with
    | .error e => .error e
    | .ok (piece, after) =>
      have : after.length ≤ rest.length := canonicalPiece_length h
      (canonicalChars after).map (piece ++ ·)
termination_by text.length

def canonicalize (text : String) : Result String :=
  (canonicalChars text.toList).map String.ofList

end TabStore.Condition
