import TabStore.Proofs.Condition.Canonical
import TabStore.Proofs.Error
import TabStore.Proofs.Statement.Reader

/-!
# Refusals of statements

A statement on one line is refused, if it is, with a message on one line: what a message shows of
the statement without quotes is a part of it, or put together from parts with spaces in between.

Results:
1. one lemma for each reader of lists and conditions: what it makes of lines, and which errors it
   gives on them;
2. `Statement.endsPlain_parse`: the same for statements.
-/

namespace TabStore

open Text

open Error (isPlain_of_nil isPlain_of_singleton)

theorem endsPlain_validateName {name : String} (line : IsLine name) :
    EndsPlain (fun _ => True) (validateName name) := by
  unfold validateName
  split
  · exact isPlain_of_singleton rfl line
  · split
    · trivial
    · exact isPlain_of_nil rfl

/-! ## Lists -/

namespace Items

variable {text list : String}

theorem endsPlain_stripParentheses (line : IsLine list) :
    EndsPlain IsLine (stripParentheses list) := by
  have notEnclosed : EndsPlain IsLine (stripParentheses.notEnclosed list) :=
    isPlain_of_singleton rfl (isLine_append.mpr ⟨line, by decide⟩)
  unfold stripParentheses
  split
  · next rest trimmed =>
    split
    · refine isLine_ofList.mpr fun mem => ?_
      have inside : '\n' ∈ trim list.toList := by
        rw [trimmed]
        exact List.mem_cons_of_mem _ ((List.dropLast_sublist rest).mem mem)
      exact line (mem_of_mem_trim inside)
    · exact notEnclosed
  · exact notEnclosed

theorem endsPlain_split (line : IsLine text) :
    EndsPlain (fun items => ∀ item ∈ items, IsLine item) (split text) := by
  unfold split
  dsimp only
  split
  · exact isPlain_of_nil rfl
  · split
    · exact isPlain_of_singleton rfl (isLine_append.mpr ⟨by decide, isLine_quoted text⟩)
    · intro item mem
      obtain ⟨piece, found, rfl⟩ := List.mem_map.mp mem
      rw [isLine_ofList]
      exact fun feed => line ((removeUnquoted_sublist false _).mem
        (mem_of_mem_splitUnquoted found feed))

theorem endsPlain_checkAttributes {seen names : List String} (lines : ∀ name ∈ names, IsLine name) :
    EndsPlain (fun _ => True) (checkAttributes seen names) := by
  induction names generalizing seen with
  | nil => trivial
  | cons name rest ih =>
    rw [List.forall_mem_cons] at lines
    refine (endsPlain_validateName lines.1).bind fun _ _ _ => ?_
    split
    · exact isPlain_of_singleton rfl lines.1
    · exact ih lines.2

theorem endsPlain_checkNames {names : List String} (lines : ∀ name ∈ names, IsLine name) :
    EndsPlain (fun _ => True) (checkNames names) := by
  induction names with
  | nil => trivial
  | cons name rest ih =>
    rw [List.forall_mem_cons] at lines
    exact (endsPlain_validateName lines.1).bind fun _ _ _ => ih lines.2

theorem endsPlain_checkLiteral {raw : String} (line : IsLine raw) :
    EndsPlain (fun _ => True) (checkLiteral raw) := by
  unfold checkLiteral
  split
  · trivial
  · exact isPlain_of_singleton rfl line

theorem endsPlain_checkLiterals {raws : List String} (lines : ∀ raw ∈ raws, IsLine raw) :
    EndsPlain (fun _ => True) (checkLiterals raws) := by
  induction raws with
  | nil => trivial
  | cons raw rest ih =>
    rw [List.forall_mem_cons] at lines
    exact (endsPlain_checkLiteral lines.1).bind fun _ _ _ => ih lines.2

theorem endsPlain_attributes (line : IsLine list) :
    EndsPlain (fun _ => True) (attributes list) := by
  refine (endsPlain_stripParentheses line).bind fun inner _ inside => ?_
  split
  · exact isPlain_of_singleton rfl (by decide)
  · refine (endsPlain_split inside).bind fun names _ lines => ?_
    exact (endsPlain_checkAttributes lines).bind fun _ _ _ => trivial

theorem endsPlain_values (line : IsLine list) : EndsPlain (fun _ => True) (values list) := by
  refine (endsPlain_stripParentheses line).bind fun inner _ inside => ?_
  split
  · exact isPlain_of_singleton rfl (by decide)
  · refine (endsPlain_split inside).bind fun raws _ lines => ?_
    exact (endsPlain_checkLiterals lines).bind fun _ _ _ => trivial

theorem endsPlain_projection (line : IsLine text) :
    EndsPlain (fun _ => True) (projection text) := by
  unfold projection
  split
  · trivial
  · split
    · exact isPlain_of_singleton rfl (by decide)
    · refine (endsPlain_split line).bind fun names _ lines => ?_
      exact (endsPlain_checkNames lines).bind fun _ _ _ => trivial

theorem endsPlain_assignment (line : IsLine text) :
    EndsPlain (fun a => IsLine a.target ∧ IsLine a.value) (assignment text) := by
  have parts := breakUnquoted_append (· == '=') false text.toList
  unfold assignment
  split
  · next target _ value cut =>
    rw [cut] at parts
    rw [IsLine, ← parts, List.mem_append, not_or] at line
    exact ⟨isLine_ofList.mpr line.1, isLine_ofList.mpr fun mem =>
      line.2 (List.mem_cons_of_mem _ mem)⟩
  · exact isPlain_of_singleton rfl (isLine_append.mpr ⟨line, by decide⟩)

theorem endsPlain_checkedAssignments {seen pairs : List String}
    (lines : ∀ pair ∈ pairs, IsLine pair) :
    EndsPlain (fun _ => True) (checkedAssignments seen pairs) := by
  induction pairs generalizing seen with
  | nil => trivial
  | cons pair rest ih =>
    rw [List.forall_mem_cons] at lines
    refine (endsPlain_assignment lines.1).bind fun item _ parts => ?_
    refine (endsPlain_validateName parts.1).bind fun _ _ _ => ?_
    refine (endsPlain_checkLiteral parts.2).bind fun _ _ _ => ?_
    split
    · exact isPlain_of_singleton rfl parts.1
    · exact (ih lines.2).bind fun _ _ _ => trivial

theorem endsPlain_assignments (line : IsLine text) :
    EndsPlain (fun _ => True) (assignments text) := by
  unfold assignments
  split
  · exact isPlain_of_singleton rfl (by decide)
  · exact (endsPlain_split line).bind fun pairs _ lines => endsPlain_checkedAssignments lines

end Items

/-! ## Conditions -/

namespace Condition

theorem line_canonicalWord {word : List Char} (line : '\n' ∉ word) :
    '\n' ∉ canonicalWord word := by
  unfold canonicalWord
  dsimp only
  split
  · decide
  · split
    · decide
    · split
      · decide
      · exact line

/-- A text cut behind its first quote is cut into lines if it is one. -/
theorem line_cutAfterQuote {text literal rest : List Char} (line : '\n' ∉ text)
    (h : cutAfterQuote text = some (literal, rest)) : '\n' ∉ literal ∧ '\n' ∉ rest := by
  obtain ⟨body, -, rfl, rfl⟩ := exists_of_cutAfterQuote h
  simp only [List.mem_append, List.mem_cons, not_or] at line ⊢
  exact ⟨⟨line.1, by decide, List.not_mem_nil⟩, line.2.2⟩

theorem endsPlain_canonicalPiece {c : Char} {rest : List Char} (first : '\n' ≠ c)
    (line : '\n' ∉ rest) :
    EndsPlain (fun cut => '\n' ∉ cut.1 ∧ '\n' ∉ cut.2) (canonicalPiece c rest) := by
  unfold canonicalPiece
  split
  · split
    · exact isPlain_of_nil rfl
    · next found =>
      obtain ⟨inside, behind⟩ := line_cutAfterQuote line found
      exact ⟨List.not_mem_cons_of_ne_of_not_mem (by decide) inside, behind⟩
  · split
    · next code paired =>
      obtain ⟨second, -, same⟩ := Option.bind_eq_some_iff.mp paired
      have codes : ∀ code ∈ ['=', '!', '@', '£'], '\n' ≠ code := forall_of_all (by decide)
      exact ⟨List.not_mem_cons_of_ne_of_not_mem (codes code (mem_of_pairCode? same))
        List.not_mem_nil, fun mem => line (List.mem_of_mem_tail mem)⟩
    · split
      · exact isPlain_of_nil rfl
      · split
        · refine ⟨line_canonicalWord ?_, fun mem => line ((List.dropWhile_sublist _).mem mem)⟩
          exact List.not_mem_cons_of_ne_of_not_mem first fun mem =>
            line ((List.takeWhile_sublist _).mem mem)
        · exact ⟨List.not_mem_cons_of_ne_of_not_mem first List.not_mem_nil, line⟩

theorem endsPlain_canonicalChars {text : List Char} (line : '\n' ∉ text) :
    EndsPlain (fun canonical => '\n' ∉ canonical) (canonicalChars text) := by
  induction text using canonicalChars.induct with
  | case1 =>
    rw [canonicalChars_nil]
    exact List.not_mem_nil
  | case2 c rest fault failed =>
    rw [List.mem_cons, not_or] at line
    have refused := endsPlain_canonicalPiece line.1 line.2
    rw [failed] at refused
    rw [canonicalChars_cons, failed]
    exact refused
  | case3 c rest piece after found _ ih =>
    rw [List.mem_cons, not_or] at line
    have lines := endsPlain_canonicalPiece line.1 line.2
    rw [found] at lines
    rw [canonicalChars_cons, found]
    refine (ih lines.2).map fun tail _ behind => ?_
    rw [List.mem_append, not_or]
    exact ⟨lines.1, behind⟩

theorem line_firstLexeme {c : Char} {rest : List Char} (first : '\n' ≠ c) (line : '\n' ∉ rest) :
    (∀ text, (firstLexeme c rest).1 = some (.operand text) → IsLine text) ∧
      '\n' ∉ (firstLexeme c rest).2 := by
  unfold firstLexeme
  split
  · exact ⟨nofun, line⟩
  split
  · exact ⟨nofun, line⟩
  split
  · exact ⟨nofun, line⟩
  split
  · split
    · next found =>
      obtain ⟨inside, behind⟩ := line_cutAfterQuote line found
      refine ⟨fun text same => ?_, behind⟩
      cases same
      exact isLine_ofList.mpr (List.not_mem_cons_of_ne_of_not_mem (by decide) inside)
    · refine ⟨fun text same => ?_, List.not_mem_nil⟩
      cases same
      exact isLine_ofList.mpr (List.not_mem_cons_of_ne_of_not_mem (by decide) line)
  · split
    · exact ⟨nofun, line⟩
    · refine ⟨fun text same => ?_, fun mem => line ((List.dropWhile_sublist _).mem mem)⟩
      cases same
      exact isLine_ofList.mpr (List.not_mem_cons_of_ne_of_not_mem first fun mem =>
        line ((List.takeWhile_sublist _).mem mem))

theorem isLine_of_mem_lexemes {text : List Char} (line : '\n' ∉ text) {operand : String}
    (h : .operand operand ∈ lexemes text) : IsLine operand := by
  induction text using lexemes.induct with
  | case1 =>
    rw [lexemes] at h
    cases h
  | case2 c rest _ ih =>
    rw [List.mem_cons, not_or] at line
    obtain ⟨operands, behind⟩ := line_firstLexeme line.1 line.2
    rw [lexemes_cons, List.mem_append, Option.mem_toList] at h
    rcases h with first | later
    · exact operands operand first
    · exact ih behind later

theorem endsPlain_flush (stack : List Frame) : EndsPlain (fun _ => True) (flush stack) := by
  unfold flush
  dsimp only
  split
  · exact isPlain_of_singleton rfl (by decide)
  · split
    · exact isPlain_of_singleton rfl (by decide)
    · trivial

/-- Arranging gives only errors with constant texts. -/
theorem endsPlain_arrange (stack : List Frame) (found : List Lexeme) :
    EndsPlain (fun _ => True) (arrange stack found) := by
  fun_induction arrange stack found with
  | case1 stack => exact endsPlain_flush stack
  | case2 stack rest ih => exact ih
  | case3 stack op rest ih => exact ih
  | case4 stack first rest ih => exact ih.map fun _ _ _ => trivial
  | case5 stack op rest ih => exact ih.map fun _ _ _ => trivial
  | case6 stack rest ih => exact ih
  | case7 => exact isPlain_of_singleton rfl (by decide)
  | case8 => exact isPlain_of_singleton rfl (by decide)

def Form.IsLine : Form → Prop
  | .operand text => Text.IsLine text
  | .outcome => True

theorem isPlain_operatorFault (op : Operator) {fault : String} (line : Text.IsLine fault) :
    (operatorFault op fault).IsPlain := by
  refine isPlain_of_singleton rfl (isLine_append.mpr ⟨isLine_append.mpr ⟨by decide, ?_⟩, line⟩)
  cases op <;> decide

theorem endsPlain_checkOperands {op : Operator} {left right : Form} (leftLine : left.IsLine)
    (rightLine : right.IsLine) : EndsPlain (fun _ => True) (checkOperands op left right) := by
  unfold checkOperands
  split
  · split
    · trivial
    · exact isPlain_operatorFault op (by decide)
  · split
    · refine (endsPlain_validateName leftLine).bind fun _ _ _ => ?_
      split
      · trivial
      · exact isPlain_of_singleton rfl rightLine
    · exact isPlain_operatorFault op (by decide)

theorem endsPlain_checkFrom {stack : List Form} {terms : List Term}
    (lines : ∀ form ∈ stack, form.IsLine) (operands : ∀ text, .operand text ∈ terms → IsLine text) :
    EndsPlain (fun _ => True) (checkFrom stack terms) := by
  fun_induction checkFrom stack terms with
  | case1 => trivial
  | case2 => exact isPlain_of_singleton rfl (by decide)
  | case3 stack text rest ih =>
    refine ih (List.forall_mem_cons.mpr ⟨?_, lines⟩) fun other mem =>
      operands other (List.mem_cons_of_mem _ mem)
    exact operands text List.mem_cons_self
  | case4 right left stack op rest ih =>
    rw [List.forall_mem_cons, List.forall_mem_cons] at lines
    refine (endsPlain_checkOperands lines.2.1 lines.1).bind fun _ _ _ => ?_
    exact ih (List.forall_mem_cons.mpr ⟨trivial, lines.2.2⟩) fun other mem =>
      operands other (List.mem_cons_of_mem _ mem)
  | case5 => exact isPlain_operatorFault _ (by decide)

theorem endsPlain_compile {text : String} (line : IsLine text) :
    EndsPlain (fun _ => True) (compile text) := by
  refine (endsPlain_canonicalChars line).bind fun canonical _ behind => ?_
  refine Ends.bind (ends_iff.mpr ⟨fun _ same => same, fun e same =>
    (endsPlain_arrange [] (lexemes canonical)).error same⟩) fun terms _ arranged => ?_
  split
  · exact isPlain_of_singleton rfl (by decide)
  · refine (endsPlain_checkFrom (List.forall_mem_nil _) fun text mem => ?_).bind ?_
    · exact isLine_of_mem_lexemes behind (operand_of_mem_arrange arranged mem)
    · exact fun _ _ _ => trivial

end Condition

/-! ## Statements -/

namespace Statement

/-- Tokens and lists that are lines. -/
def Grade.lines : Grade :=
  ⟨fun token => IsLine token.display, IsLine, IsLine, fun _ => True, Error.IsPlain⟩

theorem isLine_word (keyword : Keyword) : IsLine keyword.word := by
  cases keyword <;> decide

theorem Grade.isKept_lines : Grade.lines.IsKept where
  endMark := show IsLine "end of statement" by decide
  joined := by
    intro tokens lines
    refine isLine_intercalate (by decide) fun piece mem => ?_
    obtain ⟨token, present, rfl⟩ := List.mem_map.mp mem
    exact lines token present
  unknown := fun token line => isPlain_of_singleton rfl line
  unexpected := by
    intro token expected line plain text mem
    rcases List.mem_cons.mp mem with rfl | mem
    · exact plain
    · exact List.mem_singleton.mp mem ▸ line
  required := fun verb => isPlain_of_singleton rfl (isLine_word verb)
  noValues := isPlain_of_singleton rfl (by decide)
  validate := fun text line => endsPlain_validateName line
  attributes := fun list line => Items.endsPlain_attributes line
  values := fun list line => Items.endsPlain_values line
  projection := fun text line => (Items.endsPlain_projection line).imp fun _ _ _ _ _ _ _ => trivial
  assignments := fun text line => (Items.endsPlain_assignments line).imp fun _ _ _ _ _ => trivial
  condition := by
    intro words list line listed
    refine Condition.endsPlain_compile ?_
    split
    · exact line
    · next l =>
      split
      · exact listed l rfl
      · exact isLine_append.mpr ⟨isLine_append.mpr ⟨line, by decide⟩, listed l rfl⟩

theorem endsPlain_tokenize {text : String} (line : IsLine text) :
    EndsPlain (fun tokens => ∀ token ∈ tokens, IsLine token.display) (Token.tokenize text) := by
  unfold Token.tokenize
  dsimp only
  split
  · exact isPlain_of_nil rfl
  · intro token mem
    rcases List.mem_append.mp mem with word | last
    · obtain ⟨piece, found, rfl⟩ := List.mem_map.mp word
      unfold Token.ofWord
      split
      · decide
      · split
        · exact isLine_word _
        · exact isLine_ofList.mpr fun feed =>
            line (mem_of_mem_splitUnquoted (List.mem_filter.mp found).1 feed)
    · rw [List.mem_singleton] at last
      subst last
      decide

theorem isLine_ofBody {body : List Char} (line : '\n' ∉ body) :
    IsLine (Source.ofBody body).main ∧
      ∀ list, (Source.ofBody body).list = some list → IsLine list := by
  have parts := breakUnquoted_append (· == '(') false body
  unfold Source.ofBody
  split
  · exact ⟨isLine_ofList.mpr line, nofun⟩
  · next main list _ cut =>
    rw [cut] at parts
    rw [← parts, List.mem_append, not_or] at line
    refine ⟨isLine_ofList.mpr (mt mem_of_mem_trimEnd line.1), fun other same => ?_⟩
    cases same
    exact isLine_ofList.mpr line.2

theorem endsPlain_ofText {text : String} (line : IsLine text) :
    EndsPlain (fun source => IsLine source.main ∧ ∀ list, source.list = some list → IsLine list)
      (Source.ofText text) := by
  unfold Source.ofText
  dsimp only
  split
  · exact isPlain_of_nil rfl
  · split
    · exact isPlain_of_nil rfl
    · split
      · exact isPlain_of_nil rfl
      · next rest cut _ =>
        refine isLine_ofBody fun mem => line ?_
        unfold Source.dropTerminator at cut
        split at cut
        · cases cut
          exact mem_of_mem_trimEnd ((List.dropLast_sublist _).mem (mem_of_mem_trim mem))
        · cases cut

/-- A statement on one line is read, or refused with an error that shows lines only. -/
theorem endsPlain_parse {text : String} (line : IsLine text) :
    EndsPlain (fun _ => True) (parse text) := by
  refine (endsPlain_ofText line).bind fun source _ lines => ?_
  refine (endsPlain_tokenize lines.1).bind fun tokens _ words => ?_
  refine (ends_ofTokens Grade.isKept_lines words lines.2 (fun token line => ?_)
    fun list line => ?_).imp fun _ _ _ => trivial
  · exact isPlain_of_singleton rfl line
  · exact isPlain_of_singleton rfl line

end Statement

end TabStore
