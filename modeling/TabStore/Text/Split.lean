/-!
# Pieces and lines

Texts cut at every occurrence of one character, and the lines of a text.
-/

namespace TabStore.Text

/-- The pieces of a text between the occurrences of a separator; there is always at least one. -/
def splitOn (separator : Char) : List Char → List (List Char)
  | [] => [[]]
  | c :: rest =>
    if c = separator then [] :: splitOn separator rest
    else (splitOn separator rest).modifyHead (c :: ·)

theorem splitOn_ne_nil (separator : Char) (text : List Char) : splitOn separator text ≠ [] := by
  induction text with
  | nil => simp [splitOn]
  | cons c rest ih =>
    by_cases same : c = separator
    · simp [splitOn, same]
    · cases pieces : splitOn separator rest with
      | nil => exact absurd pieces ih
      | cons head tail => simp [splitOn, same, pieces]

/-- Splitting loses nothing. -/
theorem intercalate_splitOn (separator : Char) (text : List Char) :
    [separator].intercalate (splitOn separator text) = text := by
  induction text with
  | nil => rfl
  | cons c rest ih =>
    by_cases same : c = separator
    · simp [splitOn, same, List.intercalate_cons_of_ne_nil (splitOn_ne_nil separator rest), ih]
    · cases pieces : splitOn separator rest with
      | nil => exact absurd pieces (splitOn_ne_nil separator rest)
      | cons head tail =>
        rw [pieces] at ih
        cases tail with
        | nil => simpa [splitOn, same, pieces] using ih
        | cons next more => simpa [splitOn, same, pieces] using ih

/-- A piece without separators and what follows its separator are split apart. -/
theorem splitOn_append_cons {separator : Char} {piece : List Char} (rest : List Char)
    (free : separator ∉ piece) :
    splitOn separator (piece ++ separator :: rest) = piece :: splitOn separator rest := by
  induction piece with
  | nil => simp [splitOn]
  | cons c tail ih =>
    simp only [List.mem_cons, not_or] at free
    simp [splitOn, Ne.symm free.1, ih free.2]

theorem splitOn_of_not_mem {separator : Char} {piece : List Char} (free : separator ∉ piece) :
    splitOn separator piece = [piece] := by
  induction piece with
  | nil => rfl
  | cons c tail ih =>
    simp only [List.mem_cons, not_or] at free
    simp [splitOn, Ne.symm free.1, ih free.2]

/-- Texts as lines, each ended by a line feed. -/
def unlines (texts : List String) : String :=
  String.join (texts.map (· ++ "\n"))

/-- A line without the carriage return that may end it. -/
def dropReturn (line : List Char) : List Char :=
  if line.getLast? = some '\r' then line.dropLast else line

/-- The lines of a text. A line ends at a line feed, and a carriage return right before that is
no part of it; the text after the last line feed is a line of its own unless it is empty. -/
def lines (text : List Char) : List (List Char) :=
  let pieces := splitOn '\n' text
  let last := pieces.getLastD []
  pieces.dropLast.map dropReturn ++ if last.isEmpty then [] else [last]

/-- Whether `part` occurs in a text as a contiguous part. -/
def occursIn (part : List Char) : List Char → Bool
  | [] => part.isEmpty
  | c :: rest => part.isPrefixOf (c :: rest) || occursIn part rest

theorem occursIn_eq_true_iff (part text : List Char) :
    occursIn part text = true ↔ part <:+: text := by
  induction text with
  | nil => simp [occursIn]
  | cons c rest ih => simp [occursIn, List.infix_cons_iff, ih]

example : splitOn ',' "a,,b".toList = ["a".toList, [], "b".toList] := by decide
example : lines "a\r\nb\n\nc\r".toList = ["a".toList, "b".toList, [], "c\r".toList] := by decide
example : lines [] = [] := by decide

end TabStore.Text
