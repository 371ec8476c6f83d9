import TabStore.Proofs.Condition.Canonical

/-!
# Levels of parentheses

Between two parentheses that match, and outside all of them, lexemes are arranged level by level.
Operands and inner groups keep their places on a level; the only operator that a level may have is
moved behind all of them, wherever it stands.

Results:
1. `arrange_group`, `exists_of_arrange_group`: what stands between two matching parentheses is
   arranged by itself;
2. `arrange_eq_ok`: which lexemes are arranged, and how, told by the levels that they are made of.
-/

namespace TabStore.Condition

/-! ## Arranging between parentheses -/

theorem flush_eq_ok {stack : List Frame} {terms : List Term} (h : flush stack = .ok terms) :
    stack = [] ∧ terms = [] ∨ ∃ op, stack = [.operator op] ∧ terms = [.operator op] := by
  unfold flush at h
  dsimp only at h
  split at h
  · cases h
  · next few =>
    split at h
    · cases h
    · next noOpening =>
      cases h
      match stack with
      | [] => exact .inl ⟨rfl, rfl⟩
      | [.operator op] => exact .inr ⟨op, rfl, rfl⟩
      | .opening :: _ => exact absurd (List.elem_cons_self) noOpening
      | .operator _ :: .opening :: _ => simp at noOpening
      | .operator _ :: .operator _ :: _ => simp [Frame.operator?] at few

/-- The operator that still waits when a text ends is the one that a closing parenthesis releases,
so nothing below the opening parenthesis is touched. -/
theorem arrange_group {stack : List Frame} {inner : List Lexeme} {terms : List Term}
    (h : arrange stack inner = .ok terms) (below : List Frame) (rest : List Lexeme) :
    arrange (stack ++ .opening :: below) (inner ++ .closing :: rest) =
      (arrange below rest).map (terms ++ ·) := by
  fun_induction arrange stack inner generalizing terms with
  | case1 stack =>
    rcases flush_eq_ok h with ⟨rfl, rfl⟩ | ⟨op, rfl, rfl⟩
    · simp only [List.nil_append, arrange]
      cases arrange below rest <;> rfl
    · simp only [List.nil_append, List.singleton_append, arrange]
  | case2 stack inner ih => exact ih h
  | case3 stack op inner ih => exact ih h
  | case4 stack text inner ih =>
    obtain ⟨later, arranged, rfl⟩ := except_map_eq_ok.mp h
    rw [List.cons_append, arrange, ih arranged]
    cases arrange below rest <;> rfl
  | case5 stack op inner ih =>
    obtain ⟨later, arranged, rfl⟩ := except_map_eq_ok.mp h
    rw [List.cons_append, List.cons_append, List.cons_append, arrange, ih arranged]
    cases arrange below rest <;> rfl
  | case6 stack inner ih =>
    rw [List.cons_append, List.cons_append, arrange, ih h]
  | case7 => cases h
  | case8 => cases h

/-- What closes a parenthesis, and what has been arranged until then. -/
theorem exists_of_arrange_group {stack below : List Frame} {found : List Lexeme}
    {terms : List Term} (h : arrange (stack ++ .opening :: below) found = .ok terms) :
    ∃ inner rest first last, found = inner ++ .closing :: rest ∧
      arrange stack inner = .ok first ∧ arrange below rest = .ok last ∧
      terms = first ++ last := by
  induction found generalizing stack terms with
  | nil =>
    rcases flush_eq_ok h with ⟨empty, -⟩ | ⟨op, single, -⟩
    · exact absurd empty (by simp)
    · cases stack with
      | nil => cases single
      | cons frame more => exact absurd (List.cons.inj single).2 (by simp)
  | cons lexeme rest ih =>
    cases lexeme with
    | opening =>
      obtain ⟨inner, later, first, last, rfl, within, others, rfl⟩ := @ih (.opening :: stack) _ h
      exact ⟨.opening :: inner, later, first, last, rfl, by rwa [arrange], others, rfl⟩
    | operator op =>
      obtain ⟨inner, later, first, last, rfl, within, others, rfl⟩ :=
        @ih (.operator op :: stack) _ h
      exact ⟨.operator op :: inner, later, first, last, rfl, by rwa [arrange], others, rfl⟩
    | operand text =>
      rw [arrange] at h
      obtain ⟨tail, arranged, rfl⟩ := except_map_eq_ok.mp h
      obtain ⟨inner, later, first, last, rfl, within, others, rfl⟩ := ih arranged
      refine ⟨.operand text :: inner, later, .operand text :: first, last, rfl, ?_, others, rfl⟩
      rw [arrange, within]
      rfl
    | closing =>
      match stack with
      | [] =>
        rw [List.nil_append, arrange] at h
        exact ⟨[], rest, [], terms, rfl, rfl, h, rfl⟩
      | [.operator op] =>
        rw [List.singleton_append, arrange] at h
        obtain ⟨tail, arranged, rfl⟩ := except_map_eq_ok.mp h
        exact ⟨[], rest, [.operator op], tail, rfl, rfl, arranged, rfl⟩
      | .opening :: stack =>
        rw [List.cons_append, arrange] at h
        obtain ⟨inner, later, first, last, rfl, within, others, rfl⟩ := ih h
        exact ⟨.closing :: inner, later, first, last, rfl, by rwa [arrange], others, rfl⟩
      | .operator op :: .opening :: stack =>
        rw [List.cons_append, List.cons_append, arrange] at h
        obtain ⟨tail, arranged, rfl⟩ := except_map_eq_ok.mp h
        obtain ⟨inner, later, first, last, rfl, within, others, rfl⟩ := ih arranged
        refine ⟨.closing :: inner, later, .operator op :: first, last, rfl, ?_, others, rfl⟩
        rw [arrange, within]
        rfl
      | .operator _ :: .operator _ :: _ => cases h

/-- At most one operator waits on a level. -/
theorem arrange_ne_ok_of_operators (first second : Operator) (below : List Frame)
    (found : List Lexeme) (terms : List Term) :
    arrange (.operator first :: .operator second :: below) found ≠ .ok terms := by
  generalize size : found.length = n
  induction n using Nat.strongRecOn generalizing first second below found terms with
  | _ n ih =>
    intro h
    cases found with
    | nil =>
      rcases flush_eq_ok h with ⟨empty, -⟩ | ⟨op, single, -⟩
      · cases empty
      · cases single
    | cons lexeme rest =>
      have shorter : rest.length < n := by
        rw [← size]
        exact Nat.lt_succ_self rest.length
      cases lexeme with
      | opening =>
        rw [arrange] at h
        obtain ⟨inner, later, front, last, rfl, -, others, -⟩ :=
          @exists_of_arrange_group [] _ _ _ h
        have evenShorter : later.length < n := by
          rw [List.length_append, List.length_cons] at shorter
          omega
        exact ih _ evenShorter _ _ _ _ _ rfl others
      | operator op =>
        rw [arrange] at h
        exact ih _ shorter _ _ _ _ _ rfl h
      | operand text =>
        rw [arrange] at h
        obtain ⟨tail, arranged, -⟩ := except_map_eq_ok.mp h
        exact ih _ shorter _ _ _ _ _ rfl arranged
      | closing => cases h

/-! ## Levels -/

/-- Operands and groups in parentheses one after the other, and the terms that they are arranged
into. A group holds such items as well, and maybe an operator among them. -/
inductive Items : List Lexeme → List Term → Prop
  | nil : Items [] []
  | operand (text : String) {rest : List Lexeme} {last : List Term} :
    Items rest last → Items (.operand text :: rest) (.operand text :: last)
  | group {inner rest : List Lexeme} {first last : List Term} :
    Items inner first → Items rest last →
      Items (.opening :: (inner ++ .closing :: rest)) (first ++ last)
  | operation (op : Operator) {left right rest : List Lexeme} {first second last : List Term} :
    Items left first → Items right second → Items rest last →
      Items (.opening :: (left ++ .operator op :: right ++ .closing :: rest))
        (first ++ second ++ [.operator op] ++ last)

/-- All that stands on one level. -/
inductive Level : List Lexeme → List Term → Prop
  | items {found : List Lexeme} {terms : List Term} : Items found terms → Level found terms
  | operation (op : Operator) {left right : List Lexeme} {first second : List Term} :
    Items left first → Items right second →
      Level (left ++ .operator op :: right) (first ++ second ++ [.operator op])

variable {found inner rest : List Lexeme} {terms first last : List Term}

theorem Level.group (within : Level inner first) (later : Items rest last) :
    Items (.opening :: (inner ++ .closing :: rest)) (first ++ last) := by
  cases within with
  | items items => exact items.group later
  | operation op left right => exact left.operation op right later

/-- Items are arranged by themselves, whatever waits and whatever follows. -/
theorem Items.arrange_append (items : Items found terms) (stack : List Frame)
    (rest : List Lexeme) :
    arrange stack (found ++ rest) = (arrange stack rest).map (terms ++ ·) := by
  induction items generalizing stack rest with
  | nil => cases arranged : arrange stack rest <;> simp [arranged, Except.map]
  | operand text _ ih =>
    rw [List.cons_append, arrange, ih]
    cases arrange stack rest <;> rfl
  | group _ _ ihInner ihRest =>
    rw [List.cons_append, List.append_assoc, List.cons_append, arrange, ihInner, arrange, ihRest]
    cases arrange stack rest <;> simp [Except.map]
  | operation op _ _ _ ihLeft ihRight ihRest =>
    simp only [List.cons_append, List.append_assoc]
    rw [arrange, ihLeft, arrange, ihRight, arrange, ihRest]
    cases arrange stack rest <;> simp [Except.map]

theorem Level.arrange_eq (level : Level found terms) : arrange [] found = .ok terms := by
  cases level with
  | items items =>
    have alone := items.arrange_append [] []
    rw [List.append_nil] at alone
    rw [alone]
    simp [arrange, flush, Except.map]
  | operation op left right =>
    have last := right.arrange_append [.operator op] []
    rw [List.append_nil] at last
    rw [left.arrange_append, arrange, last]
    simp [arrange, flush, Frame.operator?, Except.map]

/-- What is arranged is a level. If an operator waits, the level has no other one. -/
theorem level_of_arrange :
    (arrange [] found = .ok terms → Level found terms) ∧
      ∀ op, arrange [.operator op] found = .ok terms →
        ∃ before, Items found before ∧ terms = before ++ [.operator op] := by
  generalize size : found.length = n
  induction n using Nat.strongRecOn generalizing found terms with
  | _ n ih =>
    cases found with
    | nil =>
      refine ⟨fun h => ?_, fun op h => ⟨[], .nil, ?_⟩⟩
      · cases h
        exact .items .nil
      · cases h
        rfl
    | cons lexeme rest =>
      have shorter : rest.length < n := by
        rw [← size]
        exact Nat.lt_succ_self rest.length
      cases lexeme with
      | operand text =>
        refine ⟨fun h => ?_, fun op h => ?_⟩
        · rw [arrange] at h
          obtain ⟨later, arranged, rfl⟩ := except_map_eq_ok.mp h
          cases (ih _ shorter rfl).1 arranged with
          | items items => exact .items (items.operand text)
          | operation op left right => exact .operation op (left.operand text) right
        · rw [arrange] at h
          obtain ⟨later, arranged, rfl⟩ := except_map_eq_ok.mp h
          obtain ⟨before, items, rfl⟩ := (ih _ shorter rfl).2 op arranged
          exact ⟨_, items.operand text, rfl⟩
      | operator op =>
        refine ⟨fun h => ?_, fun other h => ?_⟩
        · rw [arrange] at h
          obtain ⟨before, items, rfl⟩ := (ih _ shorter rfl).2 op h
          exact .operation op .nil items
        · rw [arrange] at h
          exact absurd h (arrange_ne_ok_of_operators op other [] rest terms)
      | opening =>
        -- The group is arranged by itself, and what follows it in the same way as the whole.
        refine ⟨fun h => ?_, fun op h => ?_⟩
        · rw [arrange] at h
          obtain ⟨inner, later, front, last, rfl, within, others, rfl⟩ :=
            @exists_of_arrange_group [] _ _ _ h
          rw [List.length_append, List.length_cons] at shorter
          have level := (@ih inner.length (by omega) _ _ rfl).1 within
          cases (@ih later.length (by omega) _ _ rfl).1 others with
          | items items => exact .items (level.group items)
          | operation op left right =>
            have whole := Level.operation op (level.group left) right
            simpa using whole
        · rw [arrange] at h
          obtain ⟨inner, later, front, last, rfl, within, others, rfl⟩ :=
            @exists_of_arrange_group [] _ _ _ h
          rw [List.length_append, List.length_cons] at shorter
          have level := (@ih inner.length (by omega) _ _ rfl).1 within
          obtain ⟨before, items, rfl⟩ := (@ih later.length (by omega) _ _ rfl).2 op others
          exact ⟨_, level.group items, by simp⟩
      | closing => exact ⟨nofun, nofun⟩

theorem arrange_eq_ok : arrange [] found = .ok terms ↔ Level found terms :=
  ⟨level_of_arrange.1, Level.arrange_eq⟩

end TabStore.Condition
