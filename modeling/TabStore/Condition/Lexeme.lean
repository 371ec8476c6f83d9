import TabStore.Condition.Canonical
import TabStore.Text.Blank

/-!
# Condition lexemes

The canonical text of a condition as a sequence of parentheses, operators and operands. A string
literal is an operand by itself; any other operand is a run of characters up to white space, a
parenthesis, a quote or an operator code.
-/

namespace TabStore.Condition

inductive Lexeme
  | opening
  | closing
  | operator (op : Operator)
  | operand (text : String)
deriving DecidableEq, Repr

def isOperandChar (c : Char) : Bool :=
  !(Text.isBlank c || c == '(' || c == ')' || c == '\'' || (Operator.ofCode? c).isSome)

/-- The first lexeme of a text, if it starts with one, and the text after it. An unclosed literal
runs to the end of the text. -/
def firstLexeme (c : Char) (rest : List Char) : Option Lexeme × List Char :=
  if Text.isBlank c then (none, rest)
  else if c = '(' then (some .opening, rest)
  else if c = ')' then (some .closing, rest)
  else if c = '\'' then
    match cutAfterQuote rest with
    | some (literal, after) => (some (.operand (String.ofList ('\'' :: literal))), after)
    | none => (some (.operand (String.ofList ('\'' :: rest))), [])
  else match Operator.ofCode? c with
    | some op => (some (.operator op), rest)
    | none =>
      (some (.operand (String.ofList (c :: rest.takeWhile isOperandChar))),
        rest.dropWhile isOperandChar)

theorem firstLexeme_length (c : Char) (rest : List Char) :
    (firstLexeme c rest).2.length ≤ rest.length := by
  unfold firstLexeme
  split
  · exact Nat.le_refl _
  split
  · exact Nat.le_refl _
  split
  · exact Nat.le_refl _
  split
  · split
    · rename_i found
      exact Nat.le_of_lt (cutAfterQuote_length found)
    · exact Nat.zero_le _
  · split
    · exact Nat.le_refl _
    · exact (List.dropWhile_suffix isOperandChar).length_le

def lexemes (text : List Char) : List Lexeme :=
  match text with
  | [] => []
  | c :: rest =>
    have := firstLexeme_length c rest
    (firstLexeme c rest).1.toList ++ lexemes (firstLexeme c rest).2
termination_by text.length

end TabStore.Condition
