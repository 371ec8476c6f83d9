import TabStore.Proofs.Condition.Canonical
import TabStore.Proofs.Condition.Expression

/-!
# Reading conditions piece by piece

White space and parentheses are no part of any word, operand or operator, so a condition can be read
up to one of them and then from there on. This file defines the lexemes that a text is read as and
shows how they are put together from those of its parts.

Results:
1. `read_append_cons`: a text whose literals all end and what follows it behind white space or a
   parenthesis are read one after the other;
2. `closed_of_read`: a text with a literal that never ends is not read;
3. `compile_eq_ok`: a condition is compiled from a text if it arranges what is read and passes the
   check.
-/

namespace TabStore.Condition

/-- White space or a parenthesis. -/
def isDelimiter (c : Char) : Bool := Text.isBlank c || c == '(' || c == ')'

/-- The lexemes of a text that is not canonical yet. -/
def read (text : List Char) : Result (List Lexeme) := (canonicalChars text).map lexemes

/-! ## Delimiters -/

theorem isDelimiter_cases {c : Char} (h : isDelimiter c = true) :
    Text.isBlank c = true ∨ c = '(' ∨ c = ')' := by
  simpa [isDelimiter, or_assoc] using h

theorem isDelimiter_of_isBlank {c : Char} (blank : Text.isBlank c = true) :
    isDelimiter c = true := by
  simp [isDelimiter, blank]

/-- No quote and no character of an operator is a delimiter. -/
theorem isDelimiter_ne {c : Char} (h : isDelimiter c = true) {mark : Char}
    (marked : mark ∈ '\'' :: Operator.all.map Operator.code) : c ≠ mark := by
  have apart : ∀ mark ∈ '\'' :: Operator.all.map Operator.code, isDelimiter mark = false :=
    Text.forall_of_all (by decide)
  rintro rfl
  rw [apart c marked] at h
  cases h

theorem isWordChar_of_isDelimiter {c : Char} (h : isDelimiter c = true) : isWordChar c = false := by
  rcases isDelimiter_cases h with blank | rfl | rfl
  · exact not_isWordChar_of_isBlank blank
  · decide
  · decide

theorem isOperandChar_of_isDelimiter {c : Char} (h : isDelimiter c = true) :
    isOperandChar c = false := by
  rcases isDelimiter_cases h with blank | rfl | rfl
  · simp [isOperandChar, blank]
  · rfl
  · rfl

theorem isSeam_delimiter {c : Char} (h : isDelimiter c = true) (rest : List Char) :
    IsSeam (c :: rest) := by
  rintro _ ⟨⟩
  exact ⟨isWordChar_of_isDelimiter h, isDelimiter_ne h (by decide)⟩

theorem canonicalChars_delimiter {c : Char} (h : isDelimiter c = true) (rest : List Char) :
    canonicalChars (c :: rest) = (canonicalChars rest).map (c :: ·) := by
  have noPair : rest.head?.bind (pairCode? c) = none := by
    have code : ∀ mark ∈ ['=', '!', '>', '<'], mark ∈ '\'' :: Operator.all.map Operator.code :=
      Text.forall_of_all (by decide)
    have first : ∀ mark ∈ ['=', '!', '>', '<'], c ≠ mark := fun mark mem =>
      isDelimiter_ne h (code mark mem)
    cases rest with
    | nil => rfl
    | cons d tail =>
      simp [pairCode?, first '=' (by decide), first '!' (by decide), first '>' (by decide),
        first '<' (by decide)]
  have allowed : isReservedCode c = false := by
    cases reserved : isReservedCode c with
    | false => rfl
    | true =>
      have code : ∀ mark ∈ ['!', '@', '£', '~', '&', '+'],
          mark ∈ '\'' :: Operator.all.map Operator.code := Text.forall_of_all (by decide)
      exact absurd rfl (isDelimiter_ne h (code c (List.contains_iff_mem.mp reserved)))
  rw [canonicalChars_cons, canonicalPiece, if_neg (isDelimiter_ne h (by decide)), noPair]
  simp only [allowed, isWordChar_of_isDelimiter h]
  rfl

/-! ## Lexemes of a text and what follows it -/

theorem lexemes_nil : lexemes [] = [] := by
  rw [lexemes]

theorem Settled.firstLexeme_append {c : Char} {rest right : List Char}
    (settled : Settled (c :: rest)) (stop : ∀ d, right.head? = some d → isOperandChar d = false) :
    Condition.firstLexeme c (rest ++ right) =
      ((Condition.firstLexeme c rest).1, (Condition.firstLexeme c rest).2 ++ right) := by
  cases operand : isOperandChar c with
  | true =>
    obtain ⟨taken, dropped⟩ := @takeWhile_append_of_head isOperandChar rest right fun _ => stop
    rw [firstLexeme_operand operand, firstLexeme_operand operand, taken, dropped]
  | false =>
    cases settled with
    | literal plain settled =>
      rw [List.append_assoc, List.cons_append, firstLexeme_literal plain, firstLexeme_literal plain]
    | mark noQuote _ settled =>
      obtain ⟨first, -, single⟩ := firstLexeme_mark noQuote operand
      rw [single, single]
    | word letters =>
      rw [isOperandChar_of_isWordChar (letters c List.mem_cons_self)] at operand
      cases operand

/-- Where no operand goes on, a settled text and what follows it have their lexemes apart. -/
theorem Settled.lexemes_append {left right : List Char} (settled : Settled left)
    (stop : ∀ d, right.head? = some d → isOperandChar d = false) :
    lexemes (left ++ right) = lexemes left ++ lexemes right := by
  induction left using lexemes.induct with
  | case1 => rw [lexemes_nil, List.nil_append, List.nil_append]
  | case2 c rest _ ih =>
    rw [List.cons_append, lexemes_cons, settled.firstLexeme_append stop,
      ih settled.firstLexeme.1, lexemes_cons, List.append_assoc]

/-! ## Reading -/

@[simp] theorem read_nil : read [] = .ok [] := by
  rw [read, canonicalChars_nil]
  exact congrArg Except.ok lexemes_nil

theorem closed_of_read {text : List Char} {found : List Lexeme} (h : read text = .ok found) :
    Text.Closed text := by
  obtain ⟨canonical, made, -⟩ := except_map_eq_ok.mp h
  exact closed_of_canonicalChars made

/-- A text and what follows it are read one after the other, and the delimiter between them is read
with what follows. -/
theorem read_append_cons {left : List Char} (closed : Text.Closed left) {c : Char}
    (delimiter : isDelimiter c = true) (right : List Char) : read (left ++ c :: right) =
      read left >>= fun first => (read (c :: right)).map (first ++ ·) := by
  rw [read, canonicalChars_append_of_closed (isSeam_delimiter delimiter right).isJoint closed, read,
    read]
  cases made : canonicalChars left with
  | error fault => rfl
  | ok first =>
    cases rest : canonicalChars (c :: right) with
    | error fault => rfl
    | ok last =>
      have stop : ∀ d, last.head? = some d → isOperandChar d = false := by
        intro d head
        rw [canonicalChars_delimiter delimiter] at rest
        obtain ⟨tail, -, rfl⟩ := except_map_eq_ok.mp rest
        cases head
        exact isOperandChar_of_isDelimiter delimiter
      exact congrArg Except.ok ((settled_canonicalChars made).1.lexemes_append stop)

theorem read_delimiter {c : Char} (delimiter : isDelimiter c = true) {first : Option Lexeme}
    (alone : ∀ rest, firstLexeme c rest = (first, rest)) (rest : List Char) :
    read (c :: rest) = (read rest).map (first.toList ++ ·) := by
  rw [read, canonicalChars_delimiter delimiter, read]
  cases canonicalChars rest with
  | error fault => rfl
  | ok canonical =>
    show Except.ok (lexemes (c :: canonical)) = .ok (first.toList ++ lexemes canonical)
    rw [lexemes_cons, alone]

theorem read_blank {c : Char} (blank : Text.isBlank c = true) (rest : List Char) :
    read (c :: rest) = read rest := by
  have alone : ∀ rest, firstLexeme c rest = (none, rest) := fun rest => by
    rw [firstLexeme, if_pos blank]
  rw [read_delimiter (isDelimiter_of_isBlank blank) alone]
  cases read rest <;> rfl

theorem read_opening (rest : List Char) : read ('(' :: rest) = (read rest).map (.opening :: ·) := by
  have delimiter : isDelimiter '(' = true := by decide
  exact read_delimiter delimiter (fun _ => rfl) rest

theorem read_closing (rest : List Char) : read (')' :: rest) = (read rest).map (.closing :: ·) := by
  have delimiter : isDelimiter ')' = true := by decide
  exact read_delimiter delimiter (fun _ => rfl) rest

theorem lexemes_code (op : Operator) : lexemes [op.code] = [.operator op] := by
  rw [lexemes_cons]
  cases op <;> exact congrArg _ lexemes_nil

/-! ## Compiling what was read -/

theorem compile_eq_ok {text : String} {condition : Condition} :
    compile text = .ok condition ↔ ∃ found, read text.toList = .ok found ∧
      arrange [] found = .ok condition.terms ∧ condition.check = .ok () := by
  unfold compile read
  constructor
  · intro h
    obtain ⟨canonical, made, h⟩ := bind_eq_ok.mp h
    obtain ⟨terms, arranged, h⟩ := bind_eq_ok.mp h
    split at h
    · cases h
    · obtain ⟨checked, same⟩ := check_bind_eq_ok.mp h
      cases same
      exact ⟨lexemes canonical, except_map_eq_ok.mpr ⟨canonical, made, rfl⟩, arranged, checked⟩
  · rintro ⟨found, readAs, arranged, checked⟩
    obtain ⟨canonical, made, rfl⟩ := except_map_eq_ok.mp readAs
    have some : condition.terms.isEmpty = false := by
      cases condition with | mk terms
      cases terms with
      | nil => cases checked
      | cons term rest => rfl
    rw [made, ok_bind, arranged, ok_bind, some]
    show (condition.check >>= fun _ => pure condition) = _
    rw [checked]
    rfl

theorem check_of_compile {text : String} {condition : Condition}
    (h : compile text = .ok condition) : condition.check = .ok () := by
  obtain ⟨_, -, -, checked⟩ := compile_eq_ok.mp h
  exact checked

end TabStore.Condition
