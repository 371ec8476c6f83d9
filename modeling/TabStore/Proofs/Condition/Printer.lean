import TabStore.Proofs.Condition.Reading

/-!
# Conditions written out

An expression is written infix, with parentheses of its own around every comparison and around every
AND and OR. A condition that was read from some text is read again from what is written for it.

Results:
1. `canonicalChars_source`: the canonical form of a written expression differs from it in its
   operators only;
2. `arrange_lexemes`: the lexemes of an expression are arranged into its terms, whatever waits and
   whatever follows;
3. `compile_source`: reading what is written for a condition gives the condition again.
-/

namespace TabStore

/-- An operator as statements write it. -/
def Operator.source : Operator → String
  | equal => "="
  | notEqual => "!="
  | less => "<"
  | greater => ">"
  | greaterEqual => ">="
  | lessEqual => "<="
  | like => "LIKE"
  | and => "AND"
  | or => "OR"

/-- Two texts with an operator between them, in parentheses. -/
def enclosed (left operator right : List Char) : List Char :=
  '(' :: (left ++ ' ' :: (operator ++ ' ' :: (right ++ [')'])))

theorem enclosed_eq (left operator right : List Char) : enclosed left operator right =
    '(' :: ((left ++ ' ' :: (operator ++ ' ' :: right)) ++ [')']) := by
  simp [enclosed]

namespace Expression

def source : Expression → List Char
  | comparison c => enclosed c.name.toList c.operator.source.toList c.literal.toList
  | combination connective left right =>
    enclosed left.source connective.operator.source.toList right.source

/-- What is written for an expression, with codes for the operators. -/
def canonical : Expression → List Char
  | comparison c => enclosed c.name.toList [c.operator.code] c.literal.toList
  | combination connective left right =>
    enclosed left.canonical [connective.operator.code] right.canonical

def lexemes : Expression → List Condition.Lexeme
  | comparison c =>
    [.opening, .operand c.name, .operator c.operator, .operand c.literal, .closing]
  | combination connective left right =>
    .opening :: (left.lexemes ++ .operator connective.operator :: (right.lexemes ++ [.closing]))

/-- All operands are literals or their own canonical forms. -/
def IsSettled (e : Expression) : Prop :=
  ∀ text, .operand text ∈ e.terms → Condition.IsSettledOperand text.toList

end Expression

/-- What is written for a condition; nothing where it is no post-order of an expression. -/
def Condition.source (condition : Condition) : String :=
  match condition.expression? with
  | some e => String.ofList e.source
  | none => ""

/-! ## Canonical form -/

namespace Condition

theorem canonicalChars_literal {body : List Char} (plain : '\'' ∉ body) :
    canonicalChars ('\'' :: body ++ ['\'']) = .ok ('\'' :: body ++ ['\'']) := by
  have cut := cutAfterQuote_append_cons plain []
  rw [List.cons_append, canonicalChars_cons, canonicalPiece, if_pos rfl, cut]
  show Except.map _ (canonicalChars []) = _
  rw [canonicalChars_nil]
  simp [Except.map]

theorem IsSettledOperand.canonicalChars {text : List Char} (settled : IsSettledOperand text) :
    canonicalChars text = .ok text := by
  rcases settled with ⟨body, plain, rfl⟩ | operand
  · exact canonicalChars_literal plain
  · exact operand.canonical

theorem canonicalChars_operator (op : Operator) :
    canonicalChars op.source.toList = .ok [op.code] := by
  cases op <;> decide +kernel

theorem read_operator (op : Operator) : read op.source.toList = .ok [.operator op] := by
  rw [read, canonicalChars_operator]
  exact congrArg Except.ok (lexemes_code op)

theorem canonicalChars_enclosed {left right left' right' : List Char} (op : Operator)
    (hl : canonicalChars left = .ok left') (hr : canonicalChars right = .ok right') :
    canonicalChars (enclosed left op.source.toList right) =
      .ok (enclosed left' [op.code] right') := by
  have mark : ∀ c ∈ ['(', ' ', ')'], isDelimiter c = true := Text.forall_of_all (by decide)
  have opening := mark '(' (by decide)
  have blank := mark ' ' (by decide)
  have closing := mark ')' (by decide)
  have last : canonicalChars (right ++ [')']) = .ok (right' ++ [')']) := by
    rw [canonicalChars_append (isSeam_delimiter closing []).isJoint hr,
      canonicalChars_delimiter closing, canonicalChars_nil]
    rfl
  have middle : canonicalChars (op.source.toList ++ ' ' :: (right ++ [')'])) =
      .ok ([op.code] ++ ' ' :: (right' ++ [')'])) := by
    rw [canonicalChars_append (isSeam_delimiter blank _).isJoint (canonicalChars_operator op),
      canonicalChars_delimiter blank, last]
    rfl
  unfold enclosed
  rw [canonicalChars_delimiter opening, canonicalChars_append (isSeam_delimiter blank _).isJoint hl,
    canonicalChars_delimiter blank, middle]
  rfl

end Condition

theorem Expression.IsSettled.sides {connective : Connective} {left right : Expression}
    (settled : (combination connective left right).IsSettled) :
    left.IsSettled ∧ right.IsSettled := by
  constructor
  · intro text mem
    exact settled text (by simp [terms, mem])
  · intro text mem
    exact settled text (by simp [terms, mem])

theorem Expression.IsSettled.operands {c : Comparison} (settled : (comparison c).IsSettled) :
    Condition.IsSettledOperand c.name.toList ∧ Condition.IsSettledOperand c.literal.toList :=
  ⟨settled c.name (by simp [terms]), settled c.literal (by simp [terms])⟩

theorem Expression.canonicalChars_source {e : Expression} (settled : e.IsSettled) :
    Condition.canonicalChars e.source = .ok e.canonical := by
  induction e with
  | comparison c =>
    obtain ⟨name, literal⟩ := settled.operands
    exact Condition.canonicalChars_enclosed c.operator name.canonicalChars literal.canonicalChars
  | combination connective left right ihLeft ihRight =>
    obtain ⟨hl, hr⟩ := settled.sides
    exact Condition.canonicalChars_enclosed connective.operator (ihLeft hl) (ihRight hr)

/-! ## Lexemes -/

namespace Condition

theorem lexemes_operand {text : List Char} (settled : IsSettledOperand text) {rest : List Char}
    (stop : ∀ c, rest.head? = some c → isOperandChar c = false) :
    lexemes (text ++ rest) = .operand (String.ofList text) :: lexemes rest := by
  rcases settled with ⟨body, plain, rfl⟩ | ⟨some, chars, -⟩
  · rw [List.cons_append, List.cons_append, lexemes_cons, List.append_assoc, List.singleton_append,
      firstLexeme_literal plain]
    rfl
  · obtain ⟨c, tail, rfl⟩ := List.exists_cons_of_ne_nil some
    rw [List.forall_mem_cons] at chars
    obtain ⟨taken, dropped⟩ := @takeWhile_append_of_head isOperandChar tail rest fun _ => stop
    rw [List.cons_append, lexemes_cons, firstLexeme_operand chars.1, taken, dropped,
      List.takeWhile_eq_self_iff.mpr chars.2, List.dropWhile_eq_nil_iff.mpr chars.2]
    rfl

theorem lexemes_enclosed {left right : List Char} {l r : List Lexeme} (op : Operator)
    (hl : ∀ c rest, isOperandChar c = false →
      lexemes (left ++ c :: rest) = l ++ lexemes (c :: rest))
    (hr : ∀ c rest, isOperandChar c = false →
      lexemes (right ++ c :: rest) = r ++ lexemes (c :: rest))
    (rest : List Char) :
    lexemes (enclosed left [op.code] right ++ rest) =
      .opening :: (l ++ .operator op :: (r ++ [.closing])) ++ lexemes rest := by
  have opening : ∀ text, lexemes ('(' :: text) = .opening :: lexemes text := fun text => by
    rw [lexemes_cons]
    rfl
  have operator : ∀ text, lexemes (op.code :: text) = .operator op :: lexemes text := fun text => by
    rw [lexemes_cons]
    cases op <;> rfl
  have blank : ∀ text, lexemes (' ' :: text) = lexemes text := fun text => by
    rw [lexemes_cons]
    rfl
  have closing : ∀ text, lexemes (')' :: text) = .closing :: lexemes text := fun text => by
    rw [lexemes_cons]
    rfl
  simp only [enclosed, List.cons_append, List.append_assoc, List.nil_append, opening,
    hl ' ' _ (by decide), blank, operator, hr ')' _ (by decide), closing]

end Condition

/-- What is written with codes for the operators is read as the lexemes of the expression. -/
theorem Expression.lexemes_canonical {e : Expression} (settled : e.IsSettled) (rest : List Char) :
    Condition.lexemes (e.canonical ++ rest) = e.lexemes ++ Condition.lexemes rest := by
  induction e generalizing rest with
  | comparison c =>
    obtain ⟨name, literal⟩ := settled.operands
    have read : ∀ {text : String}, Condition.IsSettledOperand text.toList → ∀ d tail,
        Condition.isOperandChar d = false → Condition.lexemes (text.toList ++ d :: tail) =
          [.operand text] ++ Condition.lexemes (d :: tail) := by
      intro text operand d tail stop
      rw [Condition.lexemes_operand operand (by rintro _ ⟨⟩; exact stop), String.ofList_toList]
      rfl
    exact Condition.lexemes_enclosed c.operator (read name) (read literal) rest
  | combination connective left right ihLeft ihRight =>
    obtain ⟨hl, hr⟩ := settled.sides
    exact Condition.lexemes_enclosed connective.operator (fun c tail _ => ihLeft hl (c :: tail))
      (fun c tail _ => ihRight hr (c :: tail)) rest

/-! ## Reading conditions again -/

namespace Condition

theorem arrange_lexemes (e : Expression) (stack : List Frame) (rest : List Lexeme) :
    arrange stack (e.lexemes ++ rest) = (arrange stack rest).map (e.terms ++ ·) := by
  induction e generalizing stack rest with
  | comparison c =>
    simp only [Expression.lexemes, Expression.terms, List.cons_append, List.nil_append, arrange]
    cases arrange stack rest with
    | error fault => rfl
    | ok terms => rfl
  | combination connective left right ihLeft ihRight =>
    simp only [Expression.lexemes, Expression.terms, List.cons_append, List.append_assoc, arrange,
      ihLeft, ihRight, List.nil_append]
    cases arrange stack rest with
    | error fault => rfl
    | ok terms => rfl

/-- The operands of a condition that was read are literals or their own canonical forms. -/
theorem isSettled_of_compile {text : String} {condition : Condition}
    (h : compile text = .ok condition) {e : Expression} (same : e.terms = condition.terms) :
    e.IsSettled := by
  obtain ⟨found, readAs, arranged, -⟩ := compile_eq_ok.mp h
  obtain ⟨canonical, made, rfl⟩ := except_map_eq_ok.mp readAs
  intro operand mem
  rw [same] at mem
  exact operand_of_mem_lexemes (settled_canonicalChars made).1 (operand_of_mem_arrange arranged mem)

/-- The expression of a condition that was read, and what is written for it. -/
theorem exists_source_of_compile {text : String} {condition : Condition}
    (h : compile text = .ok condition) :
    ∃ e : Expression, e.terms = condition.terms ∧ e.IsSettled ∧
      condition.source = String.ofList e.source := by
  obtain ⟨e, found, same⟩ := exists_expression_of_check (check_of_compile h)
  refine ⟨e, same, isSettled_of_compile h same, ?_⟩
  rw [source, found]

theorem compile_source {text : String} {condition : Condition} (h : compile text = .ok condition) :
    compile condition.source = .ok condition := by
  obtain ⟨e, same, settled, written⟩ := exists_source_of_compile h
  have whole := e.lexemes_canonical settled []
  rw [List.append_nil, lexemes_nil, List.append_nil] at whole
  have readAs : read e.source = .ok e.lexemes := by
    rw [read, e.canonicalChars_source settled]
    exact congrArg Except.ok whole
  have arranged : arrange [] e.lexemes = .ok condition.terms := by
    have followed := arrange_lexemes e [] []
    rw [List.append_nil] at followed
    rw [followed, ← same]
    simp [arrange, flush, Except.map]
  rw [written]
  refine compile_eq_ok.mpr ⟨e.lexemes, ?_, arranged, check_of_compile h⟩
  rw [String.toList_ofList, readAs]

end Condition

end TabStore
