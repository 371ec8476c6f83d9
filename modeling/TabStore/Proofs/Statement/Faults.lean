import TabStore.Proofs.Statement.Refusal

/-!
# Faults of statement texts

Reading a statement fails because of its text, whatever databases there are: no reader of lists,
conditions or clauses gives an error about a database. So such an error tells that the statement was
read.

Results:
1. one lemma for each reader of lists and conditions;
2. `Statement.endsApart_parse`: the same for statements.
-/

namespace TabStore

/-- Whether an error is about a database as a whole. -/
def Error.concernsDatabase : Error → Bool
  | .noWorkingDatabase | .databaseNotFound _ | .databaseExists _ => true
  | _ => false

/-- A step that does not fail over a database. -/
abbrev EndsApart {α : Type} (x : Result α) : Prop :=
  Ends (fun _ => True) (fun e => e.concernsDatabase = false) x

theorem EndsApart.bind {α β : Type} {x : Result α} {f : α → Result β} (first : EndsApart x)
    (next : ∀ a, EndsApart (f a)) : EndsApart (x >>= f) :=
  Ends.bind first fun a _ _ => next a

theorem EndsApart.map {α β : Type} {x : Result α} {f : α → β} (first : EndsApart x) :
    EndsApart (f <$> x) :=
  Ends.map first fun _ _ _ => trivial

/-- What holds beside of the value says nothing of the error. -/
theorem EndsApart.ends {α : Type} {x : Result α} {P : α → Prop} (first : EndsApart x)
    (holds : ∀ a, x = .ok a → P a) : Ends P (fun e => e.concernsDatabase = false) x :=
  ends_iff.mpr ⟨holds, fun _ => first.error⟩

theorem endsApart_validateName (name : String) : EndsApart (validateName name) := by
  unfold validateName
  split
  · exact rfl
  · split
    · trivial
    · exact rfl

/-! ## Lists -/

namespace Items

theorem endsApart_stripParentheses (list : String) : EndsApart (stripParentheses list) := by
  unfold stripParentheses
  split
  · split
    · trivial
    · exact rfl
  · exact rfl

theorem endsApart_split (text : String) : EndsApart (split text) := by
  unfold split
  dsimp only
  split
  · exact rfl
  · split
    · exact rfl
    · trivial

theorem endsApart_checkAttributes (seen names : List String) :
    EndsApart (checkAttributes seen names) := by
  induction names generalizing seen with
  | nil => trivial
  | cons name rest ih =>
    refine (endsApart_validateName name).bind fun _ => ?_
    split
    · exact rfl
    · exact ih (name :: seen)

theorem endsApart_attributes (list : String) : EndsApart (attributes list) := by
  refine (endsApart_stripParentheses list).bind fun inner => ?_
  split
  · exact rfl
  · exact (endsApart_split inner).bind fun names =>
      (endsApart_checkAttributes _ names).bind fun _ => trivial

theorem endsApart_checkNames (names : List String) : EndsApart (checkNames names) := by
  induction names with
  | nil => trivial
  | cons name rest ih => exact (endsApart_validateName name).bind fun _ => ih

theorem endsApart_projection (text : String) : EndsApart (projection text) := by
  unfold projection
  split
  · trivial
  · split
    · exact rfl
    · exact (endsApart_split text).bind fun names =>
        (endsApart_checkNames names).bind fun _ => trivial

theorem endsApart_checkLiteral (raw : String) : EndsApart (checkLiteral raw) := by
  unfold checkLiteral
  split
  · trivial
  · exact rfl

theorem endsApart_checkLiterals (raws : List String) : EndsApart (checkLiterals raws) := by
  induction raws with
  | nil => trivial
  | cons raw rest ih => exact (endsApart_checkLiteral raw).bind fun _ => ih

theorem endsApart_values (list : String) : EndsApart (values list) := by
  refine (endsApart_stripParentheses list).bind fun inner => ?_
  split
  · exact rfl
  · exact (endsApart_split inner).bind fun raws =>
      (endsApart_checkLiterals raws).bind fun _ => trivial

theorem endsApart_assignment (pair : String) : EndsApart (assignment pair) := by
  unfold assignment
  split
  · trivial
  · exact rfl

theorem endsApart_checkedAssignments (seen pairs : List String) :
    EndsApart (checkedAssignments seen pairs) := by
  induction pairs generalizing seen with
  | nil => trivial
  | cons pair rest ih =>
    refine (endsApart_assignment pair).bind fun item => ?_
    refine (endsApart_validateName item.target).bind fun _ => ?_
    refine (endsApart_checkLiteral item.value).bind fun _ => ?_
    split
    · exact rfl
    · exact (ih (item.target :: seen)).bind fun _ => trivial

theorem endsApart_assignments (text : String) : EndsApart (assignments text) := by
  unfold assignments
  split
  · exact rfl
  · exact (endsApart_split text).bind fun pairs => endsApart_checkedAssignments [] pairs

end Items

/-! ## Conditions -/

namespace Condition

theorem endsApart_canonicalChars (text : List Char) : EndsApart (canonicalChars text) := by
  induction text using canonicalChars.induct with
  | case1 =>
    rw [canonicalChars_nil]
    trivial
  | case2 c rest fault failed =>
    rw [canonicalChars_cons, failed]
    rcases canonicalPiece_eq_error.mp failed with ⟨-, -, rfl⟩ | ⟨-, -, -, rfl⟩
    · rfl
    · rfl
  | case3 c rest piece after found _ ih =>
    rw [canonicalChars_cons, found]
    exact EndsApart.map ih

theorem endsApart_flush (stack : List Frame) : EndsApart (flush stack) := by
  unfold flush
  dsimp only
  split
  · exact rfl
  · split
    · exact rfl
    · trivial

theorem endsApart_arrange (stack : List Frame) (found : List Lexeme) :
    EndsApart (arrange stack found) := by
  fun_induction arrange stack found with
  | case1 stack => exact endsApart_flush stack
  | case2 stack rest ih => exact ih
  | case3 stack op rest ih => exact ih
  | case4 stack first rest ih => exact EndsApart.map ih
  | case5 stack op rest ih => exact EndsApart.map ih
  | case6 stack rest ih => exact ih
  | case7 => exact rfl
  | case8 => exact rfl

theorem endsApart_checkOperands (op : Operator) (left right : Form) :
    EndsApart (checkOperands op left right) := by
  unfold checkOperands
  split
  · split
    · trivial
    · exact rfl
  · split
    · next name literal =>
      refine (endsApart_validateName name).bind fun _ => ?_
      split
      · trivial
      · exact rfl
    · exact rfl

theorem endsApart_checkFrom (stack : List Form) (terms : List Term) :
    EndsApart (checkFrom stack terms) := by
  fun_induction checkFrom stack terms with
  | case1 => trivial
  | case2 => exact rfl
  | case3 stack text rest ih => exact ih
  | case4 right left stack op rest ih =>
    exact (endsApart_checkOperands op left right).bind fun _ => ih
  | case5 => exact rfl

theorem endsApart_compile (text : String) : EndsApart (compile text) := by
  refine (endsApart_canonicalChars text.toList).bind fun canonical => ?_
  refine (endsApart_arrange [] (lexemes canonical)).bind fun terms => ?_
  split
  · exact rfl
  · exact (endsApart_checkFrom [] terms).bind fun _ => trivial

end Condition

/-! ## Statements -/

namespace Statement

/-- Any tokens; no error about a database. -/
def Grade.apart : Grade :=
  ⟨fun _ => True, fun _ => True, fun _ => True, fun _ => True,
    fun e => e.concernsDatabase = false⟩

theorem Grade.isKept_apart : Grade.apart.IsKept where
  endMark := trivial
  joined := fun _ _ => trivial
  unknown := fun _ _ => rfl
  unexpected := fun _ _ _ _ => rfl
  required := fun _ => rfl
  noValues := rfl
  validate := fun text _ => endsApart_validateName text
  attributes := fun list _ => Items.endsApart_attributes list
  values := fun list _ => Items.endsApart_values list
  projection := fun text _ => (Items.endsApart_projection text).ends fun _ _ _ _ _ _ => trivial
  assignments := fun text _ => (Items.endsApart_assignments text).ends fun _ _ _ _ => trivial
  condition := fun _ _ _ _ => Condition.endsApart_compile _

theorem endsApart_tokenize (text : String) : EndsApart (Token.tokenize text) := by
  unfold Token.tokenize
  dsimp only
  split
  · exact rfl
  · trivial

theorem endsApart_ofText (text : String) : EndsApart (Source.ofText text) := by
  unfold Source.ofText
  dsimp only
  split
  · exact rfl
  · split
    · exact rfl
    · split
      · exact rfl
      · trivial

/-- A statement is read, or refused for its text. -/
theorem endsApart_parse (text : String) : EndsApart (parse text) := by
  refine (endsApart_ofText text).bind fun source => ?_
  refine (endsApart_tokenize source.main).bind fun tokens => ?_
  exact (ends_ofTokens Grade.isKept_apart (fun _ _ => trivial) (fun _ _ => trivial)
    (fun _ _ => rfl) fun _ _ => rfl).imp fun _ _ _ => trivial

end Statement

end TabStore
