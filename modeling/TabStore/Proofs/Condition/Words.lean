import TabStore.Proofs.Condition.Printer
import TabStore.Proofs.Literal
import TabStore.Proofs.Name
import TabStore.Proofs.Text.Words

/-!
# Conditions word by word

A condition is read word by word, so any white space may stand between its words. The words of a
statement that spell a keyword lose their letter case. No condition has such a word for a name or a
literal, and AND is read in any letter case, so the loss changes nothing.

Results:
1. `read_eq_readWords`: a text is read as its words are, one after the other;
2. `isFit_of_arrange`: the operands that are read for a condition are names and literals;
3. `readWords_respelled`: words are read as such lexemes in their letter case and out of it.
-/

namespace TabStore.Condition

open Text

/-! ## One word after the other -/

def readWords : List (List Char) → Result (List Lexeme)
  | [] => .ok []
  | word :: rest => do
    let first ← read word
    let later ← readWords rest
    return first ++ later

theorem readWords_singleton (word : List Char) : readWords [word] = read word := by
  rw [readWords, readWords]
  cases read word with
  | error fault => rfl
  | ok found => exact congrArg Except.ok (List.append_nil found)

theorem read_append_blank {left : List Char} (closed : Closed left) {c : Char}
    (blank : isBlank c = true) (right : List Char) : read (left ++ c :: right) =
      read left >>= fun first => (read right).map (first ++ ·) := by
  rw [read_append_cons closed (isDelimiter_of_isBlank blank), read_blank blank]

theorem read_eq_readWords {text : List Char} (closed : Closed text) :
    read text = readWords (words text) := by
  induction text using piece_induction isBlank with
  | whole text free =>
    cases text with
    | nil => exact read_nil
    | cons c rest => rw [words_of_free free (List.cons_ne_nil c rest), readWords_singleton]
  | cut piece c rest free whole blank ih =>
    rw [read_append_blank whole blank, words_append_cons whole blank,
      ih ((closed_append_blank whole blank).mp closed)]
    cases piece with
    | nil =>
      rw [read_nil]
      cases later : readWords (words rest) <;> simp [later, Except.map]
    | cons d more =>
      rw [words_of_free free (List.cons_ne_nil d more), List.singleton_append, readWords]
      cases read (d :: more) with
      | error fault => rfl
      | ok first => cases readWords (words rest) <;> rfl

/-- Trimming changes nothing, since a literal that never ends is not read at all. -/
theorem read_trimEnd {text : List Char} {found : List Lexeme} :
    read (trimEnd text) = .ok found ↔ read text = .ok found := by
  have sameEnd : openAtEnd false (trimEnd text) = openAtEnd false text := openAtEnd_trimEnd false text
  by_cases closed : Closed text
  · rw [read_eq_readWords (sameEnd.trans closed), words_trimEnd closed, read_eq_readWords closed]
  · refine iff_of_false (fun readAs => closed ?_) fun readAs => closed (closed_of_read readAs)
    exact sameEnd.symm.trans (closed_of_read readAs)

/-! ## What conditions are made of -/

/-- A lexeme that conditions can have: no operand but a name or a literal. -/
def Lexeme.IsFit : Lexeme → Prop
  | .operand text => IsName text ∨ Value.isLiteral text = true
  | _ => True

/-- Arranging loses no operand. -/
theorem mem_arrange_of_operand {stack : List Frame} {found : List Lexeme} {terms : List Term}
    (h : arrange stack found = .ok terms) {text : String} (mem : .operand text ∈ found) :
    .operand text ∈ terms := by
  fun_induction arrange stack found generalizing terms with
  | case1 => cases mem
  | case2 stack rest ih => exact ih h (by simpa using mem)
  | case3 stack op rest ih => exact ih h (by simpa using mem)
  | case4 stack first rest ih =>
    obtain ⟨later, arranged, rfl⟩ := except_map_eq_ok.mp h
    rcases List.mem_cons.mp mem with same | mem
    · cases same
      exact List.mem_cons_self
    · exact List.mem_cons_of_mem _ (ih arranged mem)
  | case5 stack op rest ih =>
    obtain ⟨later, arranged, rfl⟩ := except_map_eq_ok.mp h
    exact List.mem_cons_of_mem _ (ih arranged (by simpa using mem))
  | case6 stack rest ih => exact ih h (by simpa using mem)
  | case7 => cases h
  | case8 => cases h

theorem isFit_of_mem_terms {e : Expression} {text : String} (mem : .operand text ∈ e.terms) :
    (Lexeme.operand text).IsFit := by
  induction e with
  | comparison c =>
    have either : text = c.name ∨ text = c.literal := by simpa [Expression.terms] using mem
    rcases either with rfl | rfl
    · exact .inl c.isName
    · exact .inr c.isLiteral
  | combination connective left right ihLeft ihRight =>
    have either : .operand text ∈ left.terms ∨ .operand text ∈ right.terms := by
      simpa [Expression.terms] using mem
    exact either.elim ihLeft ihRight

theorem isFit_of_arrange {found : List Lexeme} {condition : Condition}
    (arranged : arrange [] found = .ok condition.terms) (checked : condition.check = .ok ()) :
    ∀ lexeme ∈ found, lexeme.IsFit := by
  obtain ⟨e, -, same⟩ := exists_expression_of_check checked
  intro lexeme mem
  cases lexeme with
  | operand text => exact isFit_of_mem_terms (same ▸ mem_arrange_of_operand arranged mem)
  | opening | closing | operator => trivial

/-- Texts that are read as the same lexemes are compiled to the same conditions; lexemes that no
condition has need not be the same. -/
theorem compile_congr {left right : String}
    (h : ∀ found, (∀ lexeme ∈ found, lexeme.IsFit) →
      (read left.toList = .ok found ↔ read right.toList = .ok found)) (condition : Condition) :
    compile left = .ok condition ↔ compile right = .ok condition := by
  rw [compile_eq_ok, compile_eq_ok]
  constructor
  · rintro ⟨found, readAs, arranged, checked⟩
    exact ⟨found, (h found (isFit_of_arrange arranged checked)).mp readAs, arranged, checked⟩
  · rintro ⟨found, readAs, arranged, checked⟩
    exact ⟨found, (h found (isFit_of_arrange arranged checked)).mpr readAs, arranged, checked⟩

/-! ## Keywords among the words -/

/-- A word as a statement shows it: a keyword in upper case, any other word as it was written. -/
def respelled (word : List Char) : List Char :=
  (Token.ofWord (String.ofList word)).display.toList

theorem respelled_cases (word : List Char) : respelled word = word ∨
    ∃ keyword : Keyword, upper word = keyword.word.toList ∧
      respelled word = keyword.word.toList := by
  unfold respelled Token.ofWord
  split
  · next star =>
    refine .inl ?_
    rw [← String.toList_ofList (l := word), star]
    rfl
  · split
    · next keyword found =>
      unfold Keyword.ofWord? at found
      have spelled : upper word = keyword.word.toList := by simpa using List.find?_some found
      exact .inr ⟨keyword, spelled, rfl⟩
    · exact .inl String.toList_ofList

theorem upper_word (keyword : Keyword) : upper keyword.word.toList = keyword.word.toList := by
  cases keyword <;> decide

theorem isUpper_of_upper {word : List Char} {keyword : Keyword}
    (spelled : upper word = keyword.word.toList) {c : Char} (mem : c ∈ word) :
    (upperChar c).isUpper = true := by
  have letters : ∀ c ∈ keyword.word.toList, c.isUpper = true := by
    cases keyword <;> exact Text.forall_of_all (by decide)
  exact letters _ (spelled ▸ List.mem_map_of_mem mem)

/-- A word that spells a keyword is no part of a condition. -/
theorem not_isFit_of_upper {word : List Char} {keyword : Keyword}
    (spelled : upper word = keyword.word.toList) :
    ¬ (Lexeme.operand (String.ofList word)).IsFit := by
  rintro (name | literal)
  · have known : (Keyword.ofWord? (String.ofList word)).isSome = true := by
      rw [Keyword.ofWord?, List.find?_isSome]
      exact ⟨keyword, keyword.mem_all, by simp [spelled]⟩
    have same := name.ofWord
    unfold Token.ofWord at same
    split at same
    · cases same
    · split at same
      · cases same
      · next unknown =>
        rw [unknown] at known
        cases known
  · have spells := Value.spells_of_isLiteral literal
    rw [String.toList_ofList, spelled] at spells
    rcases spells with same | same | ⟨c, mem, special⟩
    · revert same
      cases keyword <;> decide
    · revert same
      cases keyword <;> decide
    · have letter := isUpper_of_upper spelled mem
      rcases special with rfl | digit
      · revert letter
        decide
      · rw [isUpper_upperChar_of_isDigit digit] at letter
        cases letter

/-- An operand is read as it stands. -/
theorem read_operand {text : List Char} (operand : IsSettledOperand text) :
    read text = .ok [.operand (String.ofList text)] := by
  have single := @lexemes_operand text operand [] (by simp)
  rw [List.append_nil, lexemes_nil] at single
  rw [read, operand.canonicalChars]
  exact congrArg Except.ok single

/-- AND is read in any letter case; another keyword is an operand as it is spelled. -/
theorem read_of_upper {word : List Char} {keyword : Keyword}
    (spelled : upper word = keyword.word.toList) : read word =
      if keyword = .and then .ok [.operator .and] else .ok [.operand (String.ofList word)] := by
  have letters : ∀ c ∈ word, isWordChar c = true := fun c mem =>
    isWordChar_of_upperChar (isUpper_of_upper spelled mem)
  have some : word ≠ [] := by
    rintro rfl
    revert spelled
    cases keyword <;> decide
  have canonical := canonicalChars_of_word some letters
  have code : canonicalWord word = if keyword = .and then [Operator.and.code] else word := by
    rw [canonicalWord, spelled]
    cases keyword <;> rfl
  split
  · next isAnd =>
    rw [if_pos isAnd] at code
    rw [read, canonical, code]
    exact congrArg Except.ok (lexemes_code .and)
  · next other =>
    rw [if_neg other] at code
    rw [code] at canonical
    exact read_operand
      (.inr ⟨some, fun c mem => isOperandChar_of_isWordChar (letters c mem), canonical⟩)

/-- What conditions are made of is read from a word in its letter case and out of it. -/
theorem read_respelled {word : List Char} {found : List Lexeme}
    (fit : ∀ lexeme ∈ found, lexeme.IsFit) :
    read (respelled word) = .ok found ↔ read word = .ok found := by
  rcases respelled_cases word with same | ⟨keyword, spelled, same⟩
  · rw [same]
  · rw [same, read_of_upper spelled, read_of_upper (upper_word keyword)]
    split
    · rfl
    · refine iff_of_false ?_ ?_
      · rintro ⟨⟩
        exact not_isFit_of_upper (upper_word keyword) (fit _ List.mem_cons_self)
      · rintro ⟨⟩
        exact not_isFit_of_upper spelled (fit _ List.mem_cons_self)

theorem readWords_respelled {words : List (List Char)} {found : List Lexeme}
    (fit : ∀ lexeme ∈ found, lexeme.IsFit) :
    readWords (words.map respelled) = .ok found ↔ readWords words = .ok found := by
  induction words generalizing found with
  | nil => rfl
  | cons word rest ih =>
    rw [List.map_cons, readWords, readWords]
    simp only [bind_eq_ok, pure_eq_ok, Except.ok.injEq]
    constructor
    · rintro ⟨first, readFirst, later, readLater, rfl⟩
      rw [List.forall_mem_append] at fit
      exact ⟨first, (read_respelled fit.1).mp readFirst, later, (ih fit.2).mp readLater, rfl⟩
    · rintro ⟨first, readFirst, later, readLater, rfl⟩
      rw [List.forall_mem_append] at fit
      exact ⟨first, (read_respelled fit.1).mpr readFirst, later, (ih fit.2).mpr readLater, rfl⟩

end TabStore.Condition
