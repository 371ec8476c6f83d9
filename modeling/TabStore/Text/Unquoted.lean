import TabStore.Text.Blank

/-!
# Text outside string literals

A string literal runs from one single quote to the next. Every scanner of statements keeps track of
whether a literal is open and treats separators inside literals as plain text; the functions here
are what those scanners share. Each takes whether a literal is open where its text starts.
-/

namespace TabStore.Text

/-- Whether a literal is open after one more character. -/
def quoteAfter (isOpen : Bool) (c : Char) : Bool := if c = '\'' then !isOpen else isOpen

/-- Whether a literal is still open at the end of a text. -/
def openAtEnd (isOpen : Bool) (text : List Char) : Bool := text.foldl quoteAfter isOpen

@[simp] theorem openAtEnd_nil (isOpen : Bool) : openAtEnd isOpen [] = isOpen := rfl

@[simp] theorem openAtEnd_cons (isOpen : Bool) (c : Char) (rest : List Char) :
    openAtEnd isOpen (c :: rest) = openAtEnd (quoteAfter isOpen c) rest := rfl

theorem openAtEnd_append (isOpen : Bool) (left right : List Char) :
    openAtEnd isOpen (left ++ right) = openAtEnd (openAtEnd isOpen left) right := by
  simp [openAtEnd]

/-- The text without the unquoted characters that satisfy `p`. -/
def removeUnquoted (p : Char → Bool) : Bool → List Char → List Char
  | _, [] => []
  | isOpen, c :: rest =>
    if !isOpen && p c then removeUnquoted p isOpen rest
    else c :: removeUnquoted p (quoteAfter isOpen c) rest

/-- The pieces of a text between its unquoted characters that satisfy `p`. -/
def splitUnquoted (p : Char → Bool) : Bool → List Char → List (List Char)
  | _, [] => [[]]
  | isOpen, c :: rest =>
    if !isOpen && p c then [] :: splitUnquoted p isOpen rest
    else (splitUnquoted p (quoteAfter isOpen c) rest).modifyHead (c :: ·)

/-- A text cut before its first unquoted character that satisfies `p`. -/
def breakUnquoted (p : Char → Bool) : Bool → List Char → List Char × List Char
  | _, [] => ([], [])
  | isOpen, c :: rest =>
    if !isOpen && p c then ([], c :: rest)
    else
      let cut := breakUnquoted p (quoteAfter isOpen c) rest
      (c :: cut.1, cut.2)

theorem breakUnquoted_append (p : Char → Bool) (isOpen : Bool) (text : List Char) :
    (breakUnquoted p isOpen text).1 ++ (breakUnquoted p isOpen text).2 = text := by
  induction text generalizing isOpen with
  | nil => rfl
  | cons c rest ih =>
    by_cases h : (!isOpen && p c) = true <;> simp [breakUnquoted, h, ih]

theorem splitUnquoted_ne_nil (p : Char → Bool) (isOpen : Bool) (text : List Char) :
    splitUnquoted p isOpen text ≠ [] := by
  induction text generalizing isOpen with
  | nil => simp [splitUnquoted]
  | cons c rest ih =>
    by_cases h : (!isOpen && p c) = true
    · simp [splitUnquoted, h]
    · have nonempty := ih (quoteAfter isOpen c)
      cases pieces : splitUnquoted p (quoteAfter isOpen c) rest with
      | nil => exact absurd pieces nonempty
      | cons head tail => simp [splitUnquoted, h, pieces]

/-- Dropping what is no quote leaves the quotes in step. -/
theorem openAtEnd_removeUnquoted {p : Char → Bool} (noQuote : p '\'' = false) (isOpen : Bool)
    (text : List Char) :
    openAtEnd isOpen (removeUnquoted p isOpen text) = openAtEnd isOpen text := by
  induction text generalizing isOpen with
  | nil => rfl
  | cons c rest ih =>
    by_cases h : (!isOpen && p c) = true
    · have plain : c ≠ '\'' := by
        rintro rfl
        simp [noQuote] at h
      simp [removeUnquoted, h, ih, quoteAfter, plain]
    · simp [removeUnquoted, h, ih]

/-- White space is dropped except inside string literals. -/
def removeBlanks (text : String) : String :=
  String.ofList (removeUnquoted isBlank false text.toList)

end TabStore.Text
