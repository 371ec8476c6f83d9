import TabStore.Proofs.Condition.Evaluation
import TabStore.Proofs.Condition.Levels
import TabStore.Proofs.Condition.Printer

/-!
# Conditions made of conditions

Two conditions in parentheses with AND or OR between them are a condition again, whatever texts they
were read from. Its terms are those of both sides and the operator, and it selects a row as the
operator tells from what both sides select.

Results:
1. `checkFrom_append`: the check passes over the terms of an expression and leaves one outcome;
2. `filter_eq_ok`: a filter gives the values of the expression if every attribute of its comparisons
   exists;
3. `filter_combination`: a combination filters a table exactly if both sides do;
4. `compile_combination`: reading and filtering follow how a text is composed.
-/

namespace TabStore.Condition

/-! ## The check -/

/-- The check takes the terms of an expression for one outcome. -/
theorem checkFrom_append (e : Expression) (stack : List Form) (rest : List Term) :
    checkFrom stack (e.terms ++ rest) = checkFrom (.outcome :: stack) rest := by
  induction e generalizing stack rest with
  | comparison c =>
    have accepted : checkOperands c.operator (.operand c.name) (.operand c.literal) = .ok () := by
      simp [checkOperands, c.compares, c.isName, c.isLiteral]
    simp only [Expression.terms, List.cons_append, List.nil_append, checkFrom_operand]
    rw [checkFrom, accepted]
    rfl
  | combination connective left right ihLeft ihRight =>
    have accepted : checkOperands connective.operator .outcome .outcome = .ok () := by
      cases connective <;> rfl
    simp only [Expression.terms, List.append_assoc, ihLeft, ihRight, List.singleton_append]
    rw [checkFrom, accepted]
    rfl

theorem check_terms (e : Expression) : check ⟨e.terms⟩ = .ok () := by
  have passed := checkFrom_append e [] []
  rw [List.append_nil] at passed
  exact passed

/-! ## Attributes -/

/-- An attribute is noted once. -/
def note (names : List String) (c : Comparison) : List String :=
  if names.contains c.name then names else names ++ [c.name]

theorem attributesFrom_append (e : Expression) (stack : List (Option String)) (names : List String)
    (rest : List Term) : attributesFrom stack names (e.terms ++ rest) =
      attributesFrom (none :: stack) (e.comparisons.foldl note names) rest := by
  induction e generalizing stack names rest with
  | comparison c =>
    simp [Expression.terms, Expression.comparisons, attributesFrom, note, c.compares]
  | combination connective left right ihLeft ihRight =>
    -- What AND and OR find on the stack are outcomes, which name nothing.
    simp [Expression.terms, Expression.comparisons, attributesFrom, ihLeft, ihRight]

theorem mem_foldl_note {name : String} {names : List String} {comparisons : List Comparison} :
    name ∈ comparisons.foldl note names ↔ name ∈ names ∨ ∃ c ∈ comparisons, c.name = name := by
  induction comparisons generalizing names with
  | nil => simp
  | cons c rest ih =>
    have noted : name ∈ note names c ↔ name ∈ names ∨ c.name = name := by
      unfold note
      split
      · next known =>
        refine ⟨.inl, ?_⟩
        rintro (mem | rfl)
        · exact mem
        · exact List.contains_iff_mem.mp known
      · simp [eq_comm]
    rw [List.foldl_cons, ih, noted, or_assoc]
    simp

theorem mem_attributes {condition : Condition} {e : Expression} (h : e.terms = condition.terms)
    {name : String} : name ∈ condition.attributes ↔ ∃ c ∈ e.comparisons, c.name = name := by
  have noted := attributesFrom_append e [] [] []
  rw [List.append_nil, h] at noted
  rw [attributes, noted, attributesFrom, mem_foldl_note]
  simp

theorem checkAttributesOf_eq_ok {table : Table} {names : List String} :
    checkAttributesOf table names = .ok () ↔
      ∀ name ∈ names, ∃ index, table.attributeIndex name = .ok index := by
  induction names with
  | nil => simp [checkAttributesOf]
  | cons name rest ih =>
    rw [checkAttributesOf, bind_eq_ok, ih, List.forall_mem_cons]
    exact exists_and_right

/-! ## Filters -/

/-- A filter gives the values of the expression on all rows, where every attribute that it compares
exists. -/
theorem filter_eq_ok {condition : Condition} {e : Expression} (h : e.terms = condition.terms)
    {table : Table} {mask : List Bool} : condition.filter table = .ok mask ↔
      (∀ c ∈ e.comparisons, ∃ index, table.attributeIndex c.name = .ok index) ∧
      table.rows.mapM (fun row => e.value table row) = .ok mask := by
  have values : condition.evaluate table = fun row => e.value table row :=
    funext fun row => evaluate_terms table row h
  rw [filter, check_bind_eq_ok, checkAttributesOf_eq_ok, values]
  refine and_congr_left' ⟨fun all c mem => all c.name ((mem_attributes h).mpr ⟨c, mem, rfl⟩), ?_⟩
  intro all name mem
  obtain ⟨c, among, rfl⟩ := (mem_attributes h).mp mem
  exact all c among

theorem length_of_filter {condition : Condition} {table : Table} {mask : List Bool}
    (h : condition.filter table = .ok mask) : mask.length = table.rows.length := by
  rw [filter, check_bind_eq_ok] at h
  exact (mapM_eq_ok.mp h.2).length_eq.symm

/-- Where two computations are combined for each entry, both run through, and the outcomes are
combined one by one. -/
theorem mapM_combination {α β : Type} (op : β → β → β) (f g : α → Result β) (entries : List α)
    {outcomes : List β} :
    (entries.mapM fun entry => do
      let a ← f entry
      let b ← g entry
      return op a b) = .ok outcomes ↔
    ∃ l r, entries.mapM f = .ok l ∧ entries.mapM g = .ok r ∧ outcomes = List.zipWith op l r := by
  induction entries generalizing outcomes with
  | nil => simp [eq_comm]
  | cons entry rest ih =>
    simp only [List.mapM_cons, bind_eq_ok, pure_eq_ok, Except.ok.injEq]
    constructor
    · rintro ⟨_, ⟨a, first, b, second, rfl⟩, later, run, rfl⟩
      obtain ⟨l, r, left, right, rfl⟩ := ih.mp run
      exact ⟨a :: l, b :: r, ⟨a, first, l, left, rfl⟩, ⟨b, second, r, right, rfl⟩, rfl⟩
    · rintro ⟨_, _, ⟨a, first, l, left, rfl⟩, ⟨b, second, r, right, rfl⟩, rfl⟩
      have run := ih.mpr ⟨l, r, left, right, rfl⟩
      exact ⟨op a b, ⟨a, first, b, second, rfl⟩, _, run, rfl⟩

/-- A combination filters a table exactly if both sides do. -/
theorem filter_combination {connective : Connective} {left right both : Condition}
    (hl : left.check = .ok ()) (hr : right.check = .ok ())
    (h : both.terms = left.terms ++ right.terms ++ [.operator connective.operator]) {table : Table}
    {mask : List Bool} : both.filter table = .ok mask ↔ ∃ l r, left.filter table = .ok l ∧
      right.filter table = .ok r ∧ mask = List.zipWith connective.apply l r := by
  obtain ⟨e, -, leftTerms⟩ := exists_expression_of_check hl
  obtain ⟨e', -, rightTerms⟩ := exists_expression_of_check hr
  have whole : (Expression.combination connective e e').terms = both.terms := by
    rw [Expression.terms, leftTerms, rightTerms, h]
  have values := @mapM_combination _ _ connective.apply (fun row => e.value table row)
    (fun row => e'.value table row) table.rows mask
  simp only [filter_eq_ok whole, filter_eq_ok leftTerms, filter_eq_ok rightTerms, Expression.value,
    Expression.comparisons, List.forall_mem_append, values]
  constructor
  · rintro ⟨⟨named, named'⟩, l, r, first, second, rfl⟩
    exact ⟨l, r, ⟨named, first⟩, ⟨named', second⟩, rfl⟩
  · rintro ⟨l, r, ⟨named, first⟩, ⟨named', second⟩, rfl⟩
    exact ⟨⟨named, named'⟩, l, r, first, second, rfl⟩

/-! ## Texts -/

theorem read_group {text : List Char} {found : List Lexeme} (h : read text = .ok found)
    (rest : List Char) : read ('(' :: (text ++ ')' :: rest)) =
      (read rest).map fun later => .opening :: (found ++ .closing :: later) := by
  have delimiter : isDelimiter ')' = true := by decide
  rw [read_opening, read_append_cons (closed_of_read h) delimiter, h, read_closing]
  cases read rest <;> rfl

theorem compile_group {text : String} {condition : Condition} (h : compile text = .ok condition) :
    compile ("(" ++ text ++ ")") = .ok condition := by
  obtain ⟨found, readAs, arranged, checked⟩ := compile_eq_ok.mp h
  have letters : ("(" ++ text ++ ")").toList = '(' :: (text.toList ++ ')' :: []) := by
    simp
  refine compile_eq_ok.mpr ⟨.opening :: (found ++ [.closing]), ?_, ?_, checked⟩
  · rw [letters, read_group readAs, read_nil]
    rfl
  · rw [arrange, ← List.nil_append [Frame.opening], arrange_group arranged [] []]
    simp [arrange, flush, Except.map]

/-- With AND or OR between them, two texts in parentheses are read as the terms of both and the
operator. -/
theorem compile_connected {a b : String} {left right : Condition} (ha : compile a = .ok left)
    (hb : compile b = .ok right) (connective : Connective) :
    compile ("(" ++ a ++ ") " ++ connective.operator.source ++ " (" ++ b ++ ")") =
      .ok ⟨left.terms ++ right.terms ++ [.operator connective.operator]⟩ := by
  obtain ⟨found, readLeft, arrangedLeft, checkedLeft⟩ := compile_eq_ok.mp ha
  obtain ⟨found', readRight, arrangedRight, checkedRight⟩ := compile_eq_ok.mp hb
  have letters : ("(" ++ a ++ ") " ++ connective.operator.source ++ " (" ++ b ++ ")").toList =
      '(' :: (a.toList ++ ')' :: ' ' :: (connective.operator.source.toList ++
        ' ' :: '(' :: (b.toList ++ [')']))) := by
    simp
  refine compile_eq_ok.mpr ⟨.opening :: (found ++ .closing :: .operator connective.operator ::
    .opening :: (found' ++ [.closing])), ?_, ?_, ?_⟩
  · have blank : Text.isBlank ' ' = true := by decide
    have operator := read_operator connective.operator
    rw [letters, read_group readLeft, read_blank blank,
      read_append_cons (closed_of_read operator) (isDelimiter_of_isBlank blank), operator,
      read_blank blank, read_group readRight, read_nil]
    rfl
  · have second := arrange_group arrangedRight [.operator connective.operator] []
    rw [arrange, ← List.nil_append [Frame.opening], arrange_group arrangedLeft [], arrange, arrange,
      ← List.nil_append [Frame.opening, _], second]
    simp [arrange, flush, Frame.operator?, Except.map]
  · obtain ⟨e, -, leftTerms⟩ := exists_expression_of_check checkedLeft
    obtain ⟨e', -, rightTerms⟩ := exists_expression_of_check checkedRight
    rw [← leftTerms, ← rightTerms]
    exact check_terms (.combination connective e e')

/-- For any two conditions that are read from texts: parentheses around one change nothing, and with
AND or OR between them their texts are read as the combination. Where both filter a table, it
filters the table to the masks of both, combined row by row, and where one fails, it fails. -/
theorem compile_combination {a b : String} {left right : Condition} (ha : compile a = .ok left)
    (hb : compile b = .ok right) :
    compile ("(" ++ a ++ ")") = compile a ∧
    ∀ connective : Connective, ∃ both,
      compile ("(" ++ a ++ ") " ++ connective.operator.source ++ " (" ++ b ++ ")") = .ok both ∧
      both.terms = left.terms ++ right.terms ++ [.operator connective.operator] ∧
      ∀ table : Table,
        (∀ l r, left.filter table = .ok l → right.filter table = .ok r →
          l.length = r.length ∧ both.filter table = .ok (List.zipWith connective.apply l r)) ∧
        ∀ fault, left.filter table = .error fault ∨ right.filter table = .error fault →
          ∃ reason, both.filter table = .error reason := by
  refine ⟨(compile_group ha).trans ha.symm, fun connective =>
    ⟨_, compile_connected ha hb connective, rfl, fun table => ?_⟩⟩
  have filters := fun mask => @filter_combination connective left right ⟨_⟩ (check_of_compile ha)
    (check_of_compile hb) rfl table mask
  constructor
  · intro l r first second
    exact ⟨(length_of_filter first).trans (length_of_filter second).symm,
      (filters _).mpr ⟨l, r, first, second, rfl⟩⟩
  · intro fault failed
    cases run : filter _ table with
    | error reason => exact ⟨reason, rfl⟩
    | ok mask =>
      obtain ⟨l, r, first, second, -⟩ := (filters mask).mp run
      rw [first, second] at failed
      rcases failed with failed | failed <;> cases failed

/-- A table of people, one of whom is named like two parentheses and what stands between them. -/
def people : Table :=
  ⟨"t", ⟨"d/x"⟩, ["id", "name", "age"],
    [⟨["1", "'a) OR (b'", "20"]⟩, ⟨["2", "'x'", "20"]⟩, ⟨["3", "'x'", "4"]⟩], 3⟩

theorem compile_combination_quoted :
    compile "(age>=18)" = compile "age>=18" ∧
    ∃ both, compile "(age>=18) AND ((name LIKE ') OR (') OR (id = 3))" = .ok both ∧
      both.filter people = .ok [true, false, false] := by
  have first : compile "age>=18" =
      .ok ⟨[.operand "age", .operand "18", .operator .greaterEqual]⟩ := by
    decide +kernel
  have second : compile "(name LIKE ') OR (') OR (id = 3)" =
      .ok ⟨[.operand "name", .operand "') OR ('", .operator .like, .operand "id", .operand "3",
        .operator .equal, .operator .or]⟩ := by
    decide +kernel
  obtain ⟨group, combined⟩ := compile_combination first second
  obtain ⟨both, made, -, masks⟩ := combined .and
  exact ⟨group, both, made,
    ((masks people).1 [true, true, false] [true, false, true] (by decide +kernel)
      (by decide +kernel)).2⟩

end TabStore.Condition
