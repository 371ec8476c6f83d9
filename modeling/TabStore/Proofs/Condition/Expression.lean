import Mathlib.Control.Monad.Basic
import TabStore.Condition.Basic
import TabStore.Proofs.Result

/-!
# Expressions behind conditions

A condition that passes the check is the post-order of an expression: comparisons of an attribute
with a literal, combined by AND and OR. This file defines expressions, their post-order and how they
are read back from it.

Results:
1. `assemble_terms`: reading the post-order of an expression gives that expression, so no two
   expressions share their terms (`Expression.terms_injective`);
2. `exists_expression_of_check`: what the check accepts is the post-order of an expression.
-/

namespace TabStore

/-- AND and OR. -/
inductive Connective
  | and
  | or
deriving DecidableEq, Repr

namespace Connective

def operator : Connective → Operator
  | and => .and
  | or => .or

def ofOperator? : Operator → Option Connective
  | .and => some and
  | .or => some or
  | _ => none

@[simp] theorem ofOperator?_operator (c : Connective) : ofOperator? c.operator = some c := by
  cases c <;> rfl

theorem ofOperator?_eq_some {op : Operator} {c : Connective} :
    ofOperator? op = some c ↔ op = c.operator := by
  cases op <;> cases c <;> simp [ofOperator?, operator]

theorem exists_of_isBoolean {op : Operator} (h : op.isBoolean = true) :
    ∃ c : Connective, op = c.operator := by
  cases op with
  | and => exact ⟨.and, rfl⟩
  | or => exact ⟨.or, rfl⟩
  | _ => cases h

end Connective

/-- A comparison of an attribute with a literal. -/
structure Comparison where
  name : String
  operator : Operator
  literal : String
  compares : operator.isBoolean = false
  isName : validateName name = .ok ()
  isLiteral : Value.isLiteral literal = true
deriving DecidableEq

inductive Expression
  | comparison (c : Comparison)
  | combination (connective : Connective) (left right : Expression)
deriving DecidableEq

namespace Expression

/-- Both sides, and then what combines them. -/
def terms : Expression → List Term
  | comparison c => [.operand c.name, .operand c.literal, .operator c.operator]
  | combination connective left right =>
    left.terms ++ right.terms ++ [.operator connective.operator]

end Expression

/-! ## Reading post-order -/

/-- What waits while terms are read: an operand, or an expression that is complete. -/
inductive Pending
  | operand (text : String)
  | expression (e : Expression)
deriving DecidableEq

namespace Pending

def terms : Pending → List Term
  | operand text => [.operand text]
  | expression e => e.terms

def form : Pending → Condition.Form
  | operand text => .operand text
  | expression _ => .outcome

/-- The expression that an operator makes of its two sides. -/
def combine? (op : Operator) : Pending → Pending → Option Expression
  | operand name, operand literal =>
    if h : op.isBoolean = false ∧ validateName name = .ok () ∧
        Value.isLiteral literal = true then
      some (.comparison ⟨name, op, literal, h.1, h.2.1, h.2.2⟩)
    else none
  | expression left, expression right =>
    (Connective.ofOperator? op).map fun c => .combination c left right
  | _, _ => none

end Pending

namespace Condition

/-- Reads terms on top of what waits already. -/
def assemble : List Pending → List Term → Option Expression
  | [.expression e], [] => some e
  | _, [] => none
  | stack, .operand text :: rest => assemble (.operand text :: stack) rest
  | right :: left :: stack, .operator op :: rest =>
    match Pending.combine? op left right with
    | some e => assemble (.expression e :: stack) rest
    | none => none
  | _, .operator _ :: _ => none

/-- The expression that a condition is the post-order of. -/
def expression? (condition : Condition) : Option Expression := assemble [] condition.terms

end Condition

namespace Pending

theorem combine?_comparison (c : Comparison) :
    combine? c.operator (.operand c.name) (.operand c.literal) = some (.comparison c) := by
  have sound := And.intro c.compares (And.intro c.isName c.isLiteral)
  simp only [combine?, dif_pos sound]

theorem combine?_combination (connective : Connective) (left right : Expression) :
    combine? connective.operator (.expression left) (.expression right) =
      some (.combination connective left right) := by
  simp [combine?]

theorem terms_of_combine? {op : Operator} {left right : Pending} {e : Expression}
    (h : combine? op left right = some e) :
    e.terms = left.terms ++ right.terms ++ [.operator op] := by
  cases left with
  | operand name =>
    cases right with
    | operand literal =>
      simp only [combine?] at h
      split at h
      · cases h
        rfl
      · cases h
    | expression right => cases h
  | expression left =>
    cases right with
    | operand literal => cases h
    | expression right =>
      obtain ⟨c, found, rfl⟩ := Option.map_eq_some_iff.mp h
      rw [Connective.ofOperator?_eq_some] at found
      subst found
      rfl

/-- Where the check accepts an operator, there is an expression for it to make. -/
theorem exists_of_checkOperands {op : Operator} {left right : Pending}
    (h : Condition.checkOperands op left.form right.form = .ok ()) :
    ∃ e, combine? op left right = some e := by
  unfold Condition.checkOperands at h
  split at h
  · next boolean =>
    obtain ⟨c, rfl⟩ := Connective.exists_of_isBoolean boolean
    cases left with
    | operand => cases h
    | expression left =>
      cases right with
      | operand => cases h
      | expression right => exact ⟨_, combine?_combination c left right⟩
  · next comparing =>
    cases left with
    | expression => cases h
    | operand name =>
      cases right with
      | expression => cases h
      | operand literal =>
        obtain ⟨⟨⟩, isName, rest⟩ := bind_eq_ok.mp h
        split at rest
        · next isLiteral =>
          have sound := And.intro (Bool.eq_false_iff.mpr comparing) (And.intro isName isLiteral)
          exact ⟨_, dif_pos sound⟩
        · cases rest

end Pending

namespace Condition

@[simp] theorem assemble_operand (stack : List Pending) (text : String) (rest : List Term) :
    assemble stack (.operand text :: rest) = assemble (.operand text :: stack) rest := by
  rw [assemble]

@[simp] theorem checkFrom_operand (stack : List Form) (text : String) (rest : List Term) :
    checkFrom stack (.operand text :: rest) = checkFrom (.operand text :: stack) rest := by
  rw [checkFrom]

/-- The terms of an expression are read as one piece, whatever waits below and comes behind. -/
theorem assemble_append (e : Expression) (stack : List Pending) (rest : List Term) :
    assemble stack (e.terms ++ rest) = assemble (.expression e :: stack) rest := by
  induction e generalizing stack rest with
  | comparison c => simp [Expression.terms, assemble, Pending.combine?_comparison]
  | combination connective left right ihLeft ihRight =>
    simp only [Expression.terms, List.append_assoc, ihLeft, ihRight, List.singleton_append]
    simp only [assemble, Pending.combine?_combination]

theorem assemble_terms (e : Expression) : assemble [] e.terms = some e := by
  have read := assemble_append e [] []
  rw [List.append_nil] at read
  exact read

/-- What the check accepts can be read, and nothing is lost: the terms of the result are those of
what waited, in the order in which it came, and those that were read. -/
theorem exists_assemble_of_checkFrom {stack : List Pending} {terms : List Term}
    (h : checkFrom (stack.map Pending.form) terms = .ok ()) :
    ∃ e, assemble stack terms = some e ∧
      e.terms = stack.reverse.flatMap Pending.terms ++ terms := by
  -- The check sees only the forms of what waits, so both machines step together.
  induction terms generalizing stack with
  | nil =>
    match stack with
    | [] => cases h
    | [.operand _] => cases h
    | [.expression e] => exact ⟨e, rfl, by simp [Pending.terms]⟩
    | .operand _ :: _ :: _ => cases h
    | .expression _ :: _ :: _ => cases h
  | cons term rest ih =>
    cases term with
    | operand text =>
      rw [checkFrom_operand] at h
      obtain ⟨e, read, same⟩ := @ih (.operand text :: stack) h
      refine ⟨e, by simpa using read, ?_⟩
      simp [same, Pending.terms]
    | operator op =>
      match stack with
      | [] => cases h
      | [.operand _] => cases h
      | [.expression _] => cases h
      | right :: left :: stack =>
        simp only [List.map_cons, checkFrom] at h
        obtain ⟨⟨⟩, accepted, checked⟩ := bind_eq_ok.mp h
        obtain ⟨made, combined⟩ := Pending.exists_of_checkOperands accepted
        obtain ⟨e, read, same⟩ := @ih (.expression made :: stack) checked
        refine ⟨e, by simpa [assemble, combined] using read, ?_⟩
        have parts := Pending.terms_of_combine? combined
        simp [same, Pending.terms, parts]

theorem exists_expression_of_check {condition : Condition} (h : condition.check = .ok ()) :
    ∃ e, condition.expression? = some e ∧ e.terms = condition.terms := by
  obtain ⟨e, read, same⟩ := @exists_assemble_of_checkFrom [] condition.terms h
  exact ⟨e, read, by simpa using same⟩

end Condition

theorem Expression.terms_injective {e other : Expression} (h : e.terms = other.terms) :
    e = other := by
  have read := Condition.assemble_terms e
  rw [h, Condition.assemble_terms other] at read
  exact (Option.some.inj read).symm

end TabStore
