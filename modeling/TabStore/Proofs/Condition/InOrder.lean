import Mathlib.Data.List.Chain
import TabStore.Proofs.Condition.Levels
import TabStore.Proofs.Condition.Reading
import TabStore.Proofs.Text.Words

/-!
# Conditions in the order of their texts

The expression behind a condition is read in order: the left side, the operator, the right side. The
text of a condition shows its operands in this order. It shows the operators in this order as well
if each of them has something on both sides between its parentheses, which is not checked.

Results:
1. `flatMap_chars_lexemes`: the lexemes of a text are all of it but white space;
2. `Items.reorders`, `Expression.reorders`: arranging lexemes moves no operand past another one, and
   neither does reading an expression in order;
3. `Items.leaves`: items leave one operand or expression each, in the order of the text, or so much
   that nothing will make one expression of it;
4. `inOrder_of_compile`: how the text of a condition and its expression in order compare;
5. `compile_operator_first`: an operator in front of both its operands is accepted.
-/

namespace TabStore

/-- The left side, the operator and the right side, at each operator. -/
def Expression.inOrder : Expression → List Term
  | comparison c => [.operand c.name, .operator c.operator, .operand c.literal]
  | combination connective left right =>
    left.inOrder ++ .operator connective.operator :: right.inOrder

namespace Pending

def inOrder : Pending → List Term
  | operand text => [.operand text]
  | expression e => e.inOrder

theorem inOrder_of_combine? {op : Operator} {left right : Pending} {e : Expression}
    (h : combine? op left right = some e) :
    e.inOrder = left.inOrder ++ .operator op :: right.inOrder := by
  match left, right with
  | operand name, operand literal =>
    simp only [combine?] at h
    split at h
    · cases h
      rfl
    · cases h
  | expression left, expression right =>
    obtain ⟨c, found, rfl⟩ := Option.map_eq_some_iff.mp h
    rw [Connective.ofOperator?_eq_some.mp found]
    rfl
  | operand name, expression right => cases h
  | expression left, operand literal => cases h

end Pending

/-- The operands among terms. -/
def Term.operands (terms : List Term) : List String :=
  terms.filterMap fun
    | operand text => some text
    | operator _ => none

namespace Condition

open Text

/-! ## Lexemes and their texts -/

namespace Lexeme

/-- The operands and operators among lexemes. -/
def terms (found : List Lexeme) : List Term :=
  found.filterMap fun
    | opening | closing => none
    | operator op => some (.operator op)
    | operand text => some (.operand text)

section

variable (found rest : List Lexeme)

@[simp] theorem terms_nil : terms [] = [] := rfl

@[simp] theorem terms_opening : terms (opening :: found) = terms found := rfl

@[simp] theorem terms_closing : terms (closing :: found) = terms found := rfl

@[simp] theorem terms_operator (op : Operator) :
    terms (operator op :: found) = .operator op :: terms found := rfl

@[simp] theorem terms_operand (text : String) :
    terms (operand text :: found) = .operand text :: terms found := rfl

@[simp] theorem terms_append : terms (found ++ rest) = terms found ++ terms rest :=
  List.filterMap_append

end

/-- The canonical text of a lexeme. -/
def chars : Lexeme → List Char
  | opening => ['(']
  | closing => [')']
  | operator op => [op.code]
  | operand text => text.toList

end Lexeme

theorem removeUnquoted_cons_of_not_isBlank {c : Char} (notBlank : isBlank c = false)
    (noQuote : c ≠ '\'') (rest : List Char) :
    removeUnquoted isBlank false (c :: rest) = c :: removeUnquoted isBlank false rest := by
  rw [removeUnquoted, notBlank, quoteAfter_of_ne noQuote]
  rfl

/-- The first lexeme is what stands before the text after it, unless that is white space. -/
theorem removeUnquoted_firstLexeme (c : Char) (rest : List Char) :
    removeUnquoted isBlank false (c :: rest) =
      (firstLexeme c rest).1.toList.flatMap Lexeme.chars ++
        removeUnquoted isBlank false (firstLexeme c rest).2 := by
  unfold firstLexeme
  split
  · next blank => simp [removeUnquoted, blank]
  · next notBlank =>
    rw [Bool.not_eq_true] at notBlank
    split
    · next opening =>
      rw [removeUnquoted_cons_of_not_isBlank notBlank (by rw [opening]; decide), opening]
      rfl
    split
    · next closing =>
      rw [removeUnquoted_cons_of_not_isBlank notBlank (by rw [closing]; decide), closing]
      rfl
    split
    · next quote =>
      subst quote
      split
      · next literal after cut =>
        obtain ⟨body, plain, rfl, rfl⟩ := exists_of_cutAfterQuote cut
        have kept := removeUnquoted_of_free (@free_literal isBlank body plain (by decide))
        have whole : '\'' :: (body ++ '\'' :: after) = ('\'' :: body ++ ['\'']) ++ after := by simp
        rw [whole, removeUnquoted_append isBlank_quote, kept, closed_literal plain]
        simp [Lexeme.chars]
      · next unclosed =>
        have plain := cutAfterQuote_eq_none.mp unclosed
        have kept := removeUnquoted_of_free (@free_true_of_plain isBlank rest plain)
        have first : removeUnquoted isBlank false ('\'' :: rest) =
            '\'' :: removeUnquoted isBlank true rest := rfl
        rw [first, kept]
        simp [Lexeme.chars, removeUnquoted]
    · next noQuote =>
      split
      · next op found =>
        have code : op.code = c := by simpa using List.find?_some found
        rw [removeUnquoted_cons_of_not_isBlank notBlank noQuote, ← code]
        rfl
      · have letters : ∀ d ∈ rest.takeWhile isOperandChar, isOperandChar d = true :=
          List.all_eq_true.mp List.all_takeWhile
        have plain : '\'' ∉ rest.takeWhile isOperandChar := fun found =>
          absurd (letters _ found) (by decide)
        have kept : removeUnquoted isBlank false (rest.takeWhile isOperandChar) =
            rest.takeWhile isOperandChar := by
          refine removeUnquoted_of_free ((free_iff_of_plain plain).mpr fun d mem => ?_)
          cases blank : isBlank d with
          | false => rfl
          | true => exact absurd (letters d mem) (by simp [isOperandChar, blank])
        have closed : openAtEnd false (rest.takeWhile isOperandChar) = false :=
          closed_of_plain plain
        have parts := removeUnquoted_append isBlank_quote false (rest.takeWhile isOperandChar)
          (rest.dropWhile isOperandChar)
        rw [List.takeWhile_append_dropWhile, kept, closed] at parts
        rw [removeUnquoted_cons_of_not_isBlank notBlank noQuote, parts]
        simp [Lexeme.chars]

/-- The lexemes of a text are all of it but the white space outside literals. -/
theorem flatMap_chars_lexemes (text : List Char) :
    (lexemes text).flatMap Lexeme.chars = removeUnquoted isBlank false text := by
  induction text using lexemes.induct with
  | case1 =>
    rw [lexemes_nil]
    rfl
  | case2 c rest _ ih => rw [lexemes_cons, List.flatMap_append, ih, removeUnquoted_firstLexeme]

/-! ## Orders of terms -/

/-- The same terms, the operands among them in the same order. -/
structure Reorders (before after : List Term) : Prop where
  perm : before.Perm after
  operands_eq : Term.operands before = Term.operands after

namespace Reorders

variable {before after first second third : List Term}

theorem refl (terms : List Term) : Reorders terms terms := ⟨.refl _, rfl⟩

theorem symm (h : Reorders first second) : Reorders second first :=
  ⟨h.perm.symm, h.operands_eq.symm⟩

theorem trans (h : Reorders first second) (h' : Reorders second third) : Reorders first third :=
  ⟨h.perm.trans h'.perm, h.operands_eq.trans h'.operands_eq⟩

theorem append (h : Reorders first second) (h' : Reorders before after) :
    Reorders (first ++ before) (second ++ after) where
  perm := h.perm.append h'.perm
  operands_eq := by
    have same := h.operands_eq
    have same' := h'.operands_eq
    rw [Term.operands, Term.operands] at same same' ⊢
    rw [List.filterMap_append, List.filterMap_append, same, same']

/-- An operator may move past anything. -/
theorem move (op : Operator) (terms : List Term) :
    Reorders (.operator op :: terms) (terms ++ [.operator op]) where
  perm := (List.perm_append_singleton _ _).symm
  operands_eq := by
    rw [Term.operands, Term.operands, List.filterMap_append]
    exact (List.append_nil _).symm

/-- An operator between two sides moves behind both. -/
theorem operation (op : Operator) (h : Reorders first second) (h' : Reorders before after) :
    Reorders (first ++ .operator op :: before) (second ++ after ++ [.operator op]) := by
  rw [List.append_assoc]
  exact h.append ((move op before).trans (h'.append (refl _)))

end Reorders

theorem reorders_inOrder (e : Expression) : Reorders e.inOrder e.terms := by
  induction e with
  | comparison c => exact Reorders.operation c.operator (.refl [_]) (.refl [_])
  | combination connective left right ihLeft ihRight => exact ihLeft.operation _ ihRight

variable {found left right : List Lexeme} {terms first second : List Term}

/-- Arranging items moves operators only. -/
theorem Items.reorders (items : Items found terms) : Reorders (Lexeme.terms found) terms := by
  induction items with
  | nil => exact .refl []
  | operand text _ ih => exact (Reorders.refl [.operand text]).append ih
  | group _ _ ihInner ihRest => simpa using ihInner.append ihRest
  | operation op _ _ _ ihLeft ihRight ihRest =>
    simpa using (ihLeft.operation op ihRight).append ihRest

theorem Level.reorders (level : Level found terms) : Reorders (Lexeme.terms found) terms := by
  cases level with
  | items items => exact items.reorders
  | operation op left right => simpa using left.reorders.operation op right.reorders

/-! ## What items leave -/

/-- Whether a lexeme may stand before another one where no parentheses are empty and each operator
has something on both sides between its parentheses. -/
def Lexeme.mayPrecede : Lexeme → Lexeme → Bool
  | .opening, .closing | .opening, .operator _ | .operator _, .closing => false
  | _, _ => true

/-- No parentheses are empty and no operator stands at the edge of its parentheses. -/
def HasSides (found : List Lexeme) : Prop := found.IsChain fun l r => l.mayPrecede r = true

instance (found : List Lexeme) : Decidable (HasSides found) :=
  inferInstanceAs (Decidable (List.IsChain _ _))

/-- What terms leave when they are read: something for whatever they were arranged from, and if it
is a single piece, that piece is in the order of the text. -/
def Leaves (terms : List Term) (found : List Lexeme) : Prop :=
  ∀ stack rest e, assemble stack (terms ++ rest) = some e →
    ∃ pieces, assemble (pieces ++ stack) rest = some e ∧ (found ≠ [] → pieces ≠ []) ∧
      (pieces.length ≤ 1 → pieces.flatMap Pending.inOrder = Lexeme.terms found)

theorem Leaves.nil : Leaves [] [] := fun _ _ _ read => ⟨[], read, absurd rfl, fun _ => rfl⟩

theorem Leaves.operand (text : String) : Leaves [.operand text] [.operand text] := by
  intro stack rest e read
  exact ⟨[.operand text], by simpa using read, fun _ => List.cons_ne_nil _ _, fun _ => rfl⟩

theorem Leaves.append (h : Leaves first left) (h' : Leaves second right) :
    Leaves (first ++ second) (left ++ right) := by
  intro stack rest e read
  rw [List.append_assoc] at read
  obtain ⟨pieces, read, some, order⟩ := h _ _ _ read
  obtain ⟨later, read, someLater, orderLater⟩ := h' _ _ _ read
  refine ⟨later ++ pieces, by rwa [List.append_assoc], fun someBoth => ?_, fun few => ?_⟩
  · intro none
    obtain ⟨rfl, rfl⟩ := List.append_eq_nil_iff.mp none
    have noLeft : left = [] := not_not.mp fun notEmpty => some notEmpty rfl
    have noRight : right = [] := not_not.mp fun notEmpty => someLater notEmpty rfl
    exact someBoth (by rw [noLeft, noRight, List.nil_append])
  · -- At most one of the two leaves anything, so it does not matter which came first.
    rw [List.length_append] at few
    rw [List.flatMap_append, Lexeme.terms_append, ← order (by omega), ← orderLater (by omega)]
    cases pieces with
    | nil => simp
    | cons piece more =>
      rw [List.length_cons] at few
      rw [List.eq_nil_of_length_eq_zero (by omega : later.length = 0)]
      simp

/-- An operator takes the last piece on each side if there is but one on its right. Where there are
more, it leaves more than one as well. -/
theorem Leaves.operation (op : Operator) (h : Leaves first left) (h' : Leaves second right)
    (someLeft : left ≠ []) (someRight : right ≠ []) :
    Leaves (first ++ second ++ [.operator op]) (left ++ .operator op :: right) := by
  intro stack rest e read
  rw [List.append_assoc, List.append_assoc] at read
  obtain ⟨pieces, read, some, order⟩ := h _ _ _ read
  obtain ⟨later, read, someLater, orderLater⟩ := h' _ _ _ read
  obtain ⟨last, more, rfl⟩ := List.exists_cons_of_ne_nil (someLater someRight)
  obtain ⟨piece, before, rfl⟩ := List.exists_cons_of_ne_nil (some someLeft)
  cases more with
  | nil =>
    simp only [List.cons_append, List.nil_append, assemble] at read
    split at read
    · next made combined =>
      refine ⟨.expression made :: before, read, fun _ => List.cons_ne_nil _ _, fun few => ?_⟩
      have none : before = [] := by
        rw [List.length_cons] at few
        exact List.eq_nil_of_length_eq_zero (by omega)
      subst none
      have orderLeft := order (Nat.le_refl 1)
      have orderRight := orderLater (Nat.le_refl 1)
      rw [List.flatMap_singleton] at orderLeft orderRight ⊢
      rw [Lexeme.terms_append, Lexeme.terms_operator, ← orderLeft, ← orderRight]
      exact Pending.inOrder_of_combine? combined
    · cases read
  | cons second more =>
    simp only [List.cons_append, List.nil_append, assemble] at read
    split at read
    · next made combined =>
      refine ⟨.expression made :: (more ++ piece :: before), by simpa using read,
        fun _ => List.cons_ne_nil _ _, fun few => ?_⟩
      rw [List.length_cons, List.length_append, List.length_cons] at few
      omega
    · cases read

theorem Leaves.group (h : Leaves terms found) (someInside : found ≠ []) :
    Leaves terms (.opening :: (found ++ [.closing])) := by
  intro stack rest e read
  obtain ⟨pieces, read, some, order⟩ := h _ _ _ read
  exact ⟨pieces, read, fun _ => some someInside, fun few => by simpa using order few⟩

namespace HasSides

variable {inner rest : List Lexeme} {lexeme other : Lexeme}

theorem tail (h : HasSides (lexeme :: found)) : HasSides found := List.IsChain.tail h

theorem front (h : HasSides (left ++ right)) : HasSides left := List.IsChain.left_of_append h

theorem back (h : HasSides (left ++ right)) : HasSides right := List.IsChain.right_of_append h

theorem head (h : HasSides (lexeme :: other :: found)) : lexeme.mayPrecede other = true :=
  (List.isChain_cons_cons.mp h).1

end HasSides

/-- Whatever the items are, reading their terms leaves something for them, and if it is one piece
only, then it is in the order of the text. -/
theorem Items.leaves (items : Items found terms) (sides : HasSides found) :
    Leaves terms found := by
  induction items with
  | nil => exact .nil
  | operand text _ ih => exact (Leaves.operand text).append (ih sides.tail)
  | @group inner rest first last _ _ ihInner ihRest =>
    have some : inner ≠ [] := by
      rintro rfl
      exact absurd sides.head (by decide)
    have whole := ((ihInner sides.tail.front).group some).append (ihRest sides.tail.back.tail)
    simpa using whole
  | @operation op left right rest first second last _ _ _ ihLeft ihRight ihRest =>
    have someLeft : left ≠ [] := by
      rintro rfl
      exact absurd sides.head (by simp [Lexeme.mayPrecede])
    have within := sides.tail.front
    have someRight : right ≠ [] := by
      rintro rfl
      have last := sides.tail
      rw [List.append_assoc] at last
      exact absurd last.back.head (by simp [Lexeme.mayPrecede])
    have middle := (ihLeft within.front).operation op (ihRight within.back.tail) someLeft someRight
    have whole := (middle.group (by simp)).append (ihRest sides.tail.back.tail)
    simpa using whole

/-- A level in parentheses of its own, with nothing else to be read, is read in order. -/
theorem Level.inOrder_eq (level : Level found terms)
    (sides : HasSides (.opening :: (found ++ [.closing]))) {e : Expression}
    (read : assemble [] terms = some e) : e.inOrder = Lexeme.terms found := by
  have items := (level.group .nil).leaves sides
  rw [List.append_nil] at items
  obtain ⟨pieces, last, some, order⟩ := items [] [] e (by rwa [List.append_nil])
  rw [List.append_nil] at last
  match pieces with
  | [.expression made] =>
    cases last
    simpa [Pending.inOrder] using order (Nat.le_refl 1)
  | [] => cases last
  | [.operand _] => cases last
  | .operand _ :: _ :: _ => cases last
  | .expression _ :: _ :: _ => cases last

/-! ## Conditions -/

/-- For every text that is read as a condition: its lexemes are all of it but white space, and read
in order the condition has the same operands in the same order, and the same operators. These are in
the same order as well, each between its own sides, if no operator of the text stands at the edge of
its parentheses or of the text and no parentheses are empty. -/
theorem inOrder_of_compile {text : String} {condition : Condition}
    (compiled : compile text = .ok condition) :
    ∃ (e : Expression) (canonical : String), e.terms = condition.terms ∧
      canonicalize text = .ok canonical ∧
      (lexemes canonical.toList).flatMap Lexeme.chars =
        removeUnquoted isBlank false canonical.toList ∧
      Reorders (Lexeme.terms (lexemes canonical.toList)) e.inOrder ∧
      (HasSides (.opening :: (lexemes canonical.toList ++ [.closing])) →
        Lexeme.terms (lexemes canonical.toList) = e.inOrder) := by
  obtain ⟨found, readAs, arranged, checked⟩ := compile_eq_ok.mp compiled
  obtain ⟨canonical, made, rfl⟩ := except_map_eq_ok.mp readAs
  obtain ⟨e, read, same⟩ := exists_expression_of_check checked
  have level := arrange_eq_ok.mp arranged
  have canonicalized : canonicalize text = .ok (String.ofList canonical) := by
    rw [canonicalize, made]
    rfl
  refine ⟨e, _, same, canonicalized, flatMap_chars_lexemes _, ?_⟩
  rw [String.toList_ofList]
  refine ⟨?_, fun sides => (level.inOrder_eq sides read).symm⟩
  have order := reorders_inOrder e
  rw [same] at order
  exact level.reorders.trans order.symm

/-- Parentheses of every kind, and white space and parentheses inside a literal. -/
theorem inOrder_of_compile_nested :
    ∃ e : Expression, compile "((a>= ') 1')And((b)=2))OR(c  LIKE'(x')" = .ok ⟨e.terms⟩ ∧
      e.inOrder = [.operand "a", .operator .greaterEqual, .operand "') 1'", .operator .and,
        .operand "b", .operator .equal, .operand "2", .operator .or, .operand "c",
        .operator .like, .operand "'(x'"] := by
  have compiled : compile "((a>= ') 1')And((b)=2))OR(c  LIKE'(x')" =
      .ok ⟨[.operand "a", .operand "') 1'", .operator .greaterEqual, .operand "b", .operand "2",
        .operator .equal, .operator .and, .operand "c", .operand "'(x'", .operator .like,
        .operator .or]⟩ := by
    decide +kernel
  obtain ⟨e, canonical, same, canonicalized, -, -, order⟩ := inOrder_of_compile compiled
  have text : canonicalize "((a>= ') 1')And((b)=2))OR(c  LIKE'(x')" =
      .ok "((a@ ') 1')&((b)=2))+(c  ~'(x')" := by
    decide +kernel
  cases text.symm.trans canonicalized
  refine ⟨e, by rw [compiled, same], (order (by decide +kernel)).symm.trans ?_⟩
  decide +kernel

/-- An operator in front of both its operands is read as if it stood between them. -/
theorem compile_operator_first :
    ∃ e : Expression, compile "= a 1" = .ok ⟨e.terms⟩ ∧ canonicalize "= a 1" = .ok "= a 1" ∧
      Lexeme.terms (lexemes "= a 1".toList) = [.operator .equal, .operand "a", .operand "1"] ∧
      e.inOrder = [.operand "a", .operator .equal, .operand "1"] :=
  ⟨.comparison ⟨"a", .equal, "1", rfl, by decide +kernel, by decide +kernel⟩, by decide +kernel,
    by decide +kernel, by decide +kernel, rfl⟩

/-- OR stands alone on the right side, and AND takes what follows. -/
example : compile "(a=1) AND ((b=2) OR) (c=3)" = compile "((a=1) OR (b=2)) AND (c=3)" := by
  decide +kernel

end Condition

end TabStore
