import TabStore.Proofs.Statement.Reader

/-!
# The grammar of statements

Which tokens and which list each statement is read from. A condition is everything behind WHERE, the
list included; apart from conditions, only the attributes of a new table and the values of a new row
are read from the list.

Results:
1. `Spells`: the grammar; `ConditionHead`: what stands before a condition in it;
2. `Reader.expect_eq_ok`, `Reader.name_eq_ok`, `Reader.textUntil_eq_ok`, `Reader.condition_eq_ok`:
   what each step of a rule reads;
3. `spells_of_statement`, `statement_of_spells`, `ofTokens_eq_ok_iff`: exactly the statements of the
   grammar are read.
-/

namespace TabStore

def SchemaChange.keyword : SchemaChange → Keyword
  | .add _ => .add
  | .drop _ => .drop

namespace Statement

/-- The text that is compiled for the tokens behind WHERE and the list. -/
def rejoined (tokens : List Token) (list : Option String) : String :=
  let words := " ".intercalate (tokens.map Token.display)
  match list with
  | none => words
  | some list => if words.isEmpty then list else words ++ " " ++ list

theorem rejoined_singleton (token : Token) : rejoined [token] none = token.display := by
  show " ".intercalate [token.display] = _
  rw [String.intercalate_singleton]

/-- The tokens that stand before a condition, and the statement that is made of the condition. -/
inductive ConditionHead : List Token → (Condition → Statement) → Prop
  | select {text : List Token} {columns : Projection} {table : String} :
      .keyword .fromClause ∉ text → Items.projection (rejoined text none) = .ok columns →
      IsName table →
      ConditionHead
        (.keyword .select :: (text ++ [.keyword .fromClause, .word table, .keyword .whereClause]))
        fun condition => .table (.select table columns (some condition))
  | update {text : List Token} {assignments : List Assignment} {table : String} :
      IsName table → .keyword .whereClause ∉ text →
      Items.assignments (rejoined text none) = .ok assignments →
      ConditionHead
        (.keyword .update :: .word table :: .keyword .set :: (text ++ [.keyword .whereClause]))
        fun condition => .table (.update table assignments condition)
  | delete {table : String} :
      IsName table →
      ConditionHead
        [.keyword .delete, .keyword .fromClause, .word table, .keyword .whereClause]
        fun condition => .table (.delete table condition)

/-- The statements of the grammar, with the tokens and the list that spell them. -/
inductive Spells : List Token → Option String → Statement → Prop
  | use {name : String} :
      IsName name → Spells [.keyword .use, .word name] none (.database (.use name))
  | createDatabase {name : String} :
      IsName name →
      Spells [.keyword .create, .keyword .database, .word name] none (.database (.create name))
  | dropDatabase {name : String} :
      IsName name →
      Spells [.keyword .drop, .keyword .database, .word name] none (.database (.drop name))
  | createTable {table : String} :
      IsName table →
      Spells [.keyword .create, .keyword .table, .word table] none (.table (.create table []))
  | createTableOf {table list : String} {attributes : List String} :
      IsName table → Items.attributes list = .ok attributes →
      Spells [.keyword .create, .keyword .table, .word table] (some list)
        (.table (.create table attributes))
  | dropTable {table : String} :
      IsName table →
      Spells [.keyword .drop, .keyword .table, .word table] none (.table (.drop table))
  | alter {table : String} {change : SchemaChange} :
      IsName table → IsName change.name →
      Spells [.keyword .alter, .keyword .table, .word table, .keyword change.keyword,
        .word change.name] none (.table (.alter table change))
  | insert {table list : String} {values : List String} :
      IsName table → Items.values list = .ok values →
      Spells [.keyword .insert, .keyword .into, .word table, .keyword .values] (some list)
        (.table (.insert table values))
  | select {text : List Token} {columns : Projection} {table : String} :
      .keyword .fromClause ∉ text → Items.projection (rejoined text none) = .ok columns →
      IsName table →
      Spells (.keyword .select :: (text ++ [.keyword .fromClause, .word table])) none
        (.table (.select table columns none))
  | join {primary secondary : JoinSide} :
      IsName primary.table → IsName secondary.table → IsName primary.on → IsName secondary.on →
      Spells [.keyword .join, .word primary.table, .keyword .and, .word secondary.table,
        .keyword .on, .word primary.on, .keyword .and, .word secondary.on] none
        (.table (.join primary secondary))
  | condition {head tokens : List Token} {make : Condition → Statement} {list : Option String}
      {condition : Condition} :
      ConditionHead head make → Condition.compile (rejoined tokens list) = .ok condition →
      Spells (head ++ tokens) list (make condition)

/-! ## Steps of a rule -/

namespace Reader

variable {α β : Type} {tokens : List Token} {list : Option String} {before after : Remaining}

@[simp] theorem peek_cons (token : Token) :
    peek ⟨token :: tokens, list⟩ = .ok (token, ⟨token :: tokens, list⟩) := rfl

@[simp] theorem peek_nil : peek ⟨[], list⟩ = .ok (.endMark, ⟨[], list⟩) := rfl

@[simp] theorem skip_cons (token : Token) :
    skip ⟨token :: tokens, list⟩ = .ok ((), ⟨tokens, list⟩) := rfl

@[simp] theorem takeList_apply : takeList ⟨tokens, list⟩ = .ok (list, ⟨tokens, none⟩) := rfl

@[simp] theorem lift_ok (a : α) (remaining : Remaining) :
    lift (.ok a) remaining = .ok (a, remaining) := rfl

@[simp] theorem pure_apply (a : α) (remaining : Remaining) :
    (pure a : Reader α) remaining = .ok (a, remaining) := rfl

@[simp] theorem map_apply (f : α → β) (reader : Reader α) (remaining : Remaining) :
    (f <$> reader) remaining = (reader remaining).map fun result => (f result.1, result.2) := by
  show (reader remaining >>= fun result => pure (f result.1, result.2)) = _
  cases reader remaining with
  | error e => rfl
  | ok result => rfl

@[simp] theorem expect_cons (keyword : Keyword) :
    expect keyword ⟨.keyword keyword :: tokens, list⟩ = .ok ((), ⟨tokens, list⟩) := by
  simp [expect, bind_apply]

theorem name_cons {text : String} (h : IsName text) :
    name ⟨.word text :: tokens, list⟩ = .ok (text, ⟨tokens, list⟩) := by
  have valid : validateName text = .ok () := h
  simp [name, bind_apply, valid, Except.map]

theorem bind_eq_ok {reader : Reader α} {next : α → Reader β} {b : β} :
    (reader >>= next) before = .ok (b, after) ↔
      ∃ a between, reader before = .ok (a, between) ∧ next a between = .ok (b, after) := by
  rw [bind_apply, TabStore.bind_eq_ok, Prod.exists]

theorem map_eq_ok {reader : Reader α} {f : α → β} {b : β} :
    (f <$> reader) before = .ok (b, after) ↔
      ∃ a, reader before = .ok (a, after) ∧ f a = b := by
  rw [map_apply, except_map_eq_ok, Prod.exists]
  simp only [Prod.mk.injEq]
  exact ⟨fun ⟨a, _, read, same, kept⟩ => ⟨a, kept ▸ read, same⟩,
    fun ⟨a, read, same⟩ => ⟨a, after, read, same, rfl⟩⟩

theorem lift_eq_ok {result : Result α} {a : α} :
    lift result before = .ok (a, after) ↔ result = .ok a ∧ after = before := by
  rw [lift, except_map_eq_ok]
  simp [eq_comm]

theorem pure_eq_ok {a b : α} :
    (pure a : Reader α) before = .ok (b, after) ↔ a = b ∧ before = after := by
  rw [pure_apply, Except.ok.injEq, Prod.mk.injEq]

theorem takeList_eq_ok {list : Option String} :
    takeList before = .ok (list, after) ↔ before.list = list ∧ ⟨before.tokens, none⟩ = after := by
  rw [takeList, Except.ok.injEq, Prod.mk.injEq]

theorem peek_eq_ok {token : Token} :
    peek before = .ok (token, after) ↔
      before.tokens.headD .endMark = token ∧ before = after := by
  rw [peek, Except.ok.injEq, Prod.mk.injEq]

/-- What is skipped is the token that was seen, unless it is the end. -/
theorem eq_of_skip {token : Token} {u : Unit} (seen : before.tokens.headD .endMark = token)
    (some : token ≠ .endMark) (skipped : skip before = .ok (u, after)) :
    before = ⟨token :: after.tokens, after.list⟩ := by
  obtain ⟨tokens, list⟩ := before
  cases tokens with
  | nil => exact absurd seen.symm some
  | cons first rest =>
    cases seen
    cases skipped
    rfl

theorem expect_eq_ok {keyword : Keyword} {u : Unit} :
    expect keyword before = .ok (u, after) ↔
      before = ⟨.keyword keyword :: after.tokens, after.list⟩ := by
  constructor
  · intro h
    obtain ⟨token, between, peeked, h⟩ := bind_eq_ok.mp h
    obtain ⟨seen, rfl⟩ := peek_eq_ok.mp peeked
    split at h
    · next same => exact eq_of_skip (seen.trans same) (by simp) h
    · cases h
  · rintro rfl
    exact expect_cons keyword

theorem name_eq_ok {text : String} :
    name before = .ok (text, after) ↔
      IsName text ∧ before = ⟨.word text :: after.tokens, after.list⟩ := by
  constructor
  · intro h
    obtain ⟨token, between, peeked, h⟩ := bind_eq_ok.mp h
    obtain ⟨seen, rfl⟩ := peek_eq_ok.mp peeked
    split at h
    · next written =>
      simp only [bind_eq_ok, lift_eq_ok, pure_eq_ok] at h
      obtain ⟨_, _, ⟨valid, rfl⟩, _, _, skipped, rfl, rfl⟩ := h
      exact ⟨valid, eq_of_skip seen (by simp) skipped⟩
    · cases h
  · rintro ⟨valid, rfl⟩
    exact name_cons valid

/-- The text before a keyword is put together from the tokens before the first such keyword. -/
theorem textUntil_eq_ok {keyword : Keyword} {tokens : List Token} {list : Option String}
    {text : String} :
    textUntil (· == .keyword keyword) before = .ok (text, ⟨.keyword keyword :: tokens, list⟩) ↔
      ∃ taken, .keyword keyword ∉ taken ∧ rejoined taken none = text ∧
        before = ⟨taken ++ .keyword keyword :: tokens, list⟩ := by
  obtain ⟨all, given⟩ := before
  constructor
  · intro h
    have whole := @List.takeWhile_append_dropWhile _ (fun t => !(t == Token.keyword keyword)) all
    simp only [textUntil, Except.ok.injEq, Prod.mk.injEq, Remaining.mk.injEq] at h
    obtain ⟨written, left, rfl⟩ := h
    rw [left] at whole
    refine ⟨_, fun mem => ?_, written, congrArg (Remaining.mk · given) whole.symm⟩
    simpa using List.all_eq_true.mp List.all_takeWhile _ mem
  · rintro ⟨taken, apart, rfl, same⟩
    cases same
    have goesOn : ∀ token ∈ taken, (!(token == Token.keyword keyword)) = true := by
      intro token mem
      rw [Bool.not_eq_true', beq_eq_false_iff_ne]
      rintro rfl
      exact apart mem
    simp [textUntil, rejoined, List.takeWhile_append_of_pos goesOn,
      List.dropWhile_append_of_pos goesOn]

theorem condition_apply (tokens : List Token) (list : Option String) :
    Reader.condition ⟨tokens, list⟩ =
      (Condition.compile (rejoined tokens list)).map fun c => (c, ⟨[], none⟩) := by
  have all : tokens.takeWhile (fun _ => true) = tokens := List.takeWhile_eq_self_iff.mpr (by simp)
  have taken : Reader.textUntil (fun _ => false) ⟨tokens, list⟩ =
      .ok (" ".intercalate (tokens.map Token.display), ⟨[], list⟩) := by
    simp [Reader.textUntil, all]
  simp only [Reader.condition, Reader.bind_apply, taken, ok_bind, Reader.takeList_apply]
  cases list <;> rfl

theorem condition_eq_ok {c : Condition} :
    condition before = .ok (c, after) ↔
      Condition.compile (rejoined before.tokens before.list) = .ok c ∧ after = ⟨[], none⟩ := by
  obtain ⟨tokens, list⟩ := before
  rw [condition_apply, except_map_eq_ok]
  constructor
  · rintro ⟨read, compiled, same⟩
    cases same
    exact ⟨compiled, rfl⟩
  · rintro ⟨compiled, rfl⟩
    exact ⟨c, compiled, rfl⟩

end Reader

/-! ## One verb after the other -/

section Verb

variable {before : Remaining} {s : Statement}

theorem spells_use (h : Reader.afterVerb .use before = .ok (s, ⟨[], none⟩)) :
    Spells (.keyword .use :: before.tokens) before.list s := by
  simp only [Reader.afterVerb, Reader.map_eq_ok, Reader.use, Reader.bind_eq_ok, Reader.name_eq_ok,
    Reader.pure_eq_ok] at h
  obtain ⟨_, ⟨name, _, ⟨valid, rfl⟩, rfl, rfl⟩, rfl⟩ := h
  exact .use valid

theorem spells_create (h : Reader.afterVerb .create before = .ok (s, ⟨[], none⟩)) :
    Spells (.keyword .create :: before.tokens) before.list s := by
  simp only [Reader.afterVerb, Reader.create, Reader.bind_eq_ok, Reader.peek_eq_ok] at h
  obtain ⟨token, _, ⟨seen, rfl⟩, h⟩ := h
  split at h
  · simp only [Reader.bind_eq_ok, Reader.name_eq_ok, Reader.pure_eq_ok] at h
    obtain ⟨_, _, skipped, name, _, ⟨valid, rfl⟩, rfl, rfl⟩ := h
    rw [Reader.eq_of_skip seen (by simp) skipped]
    exact .createDatabase valid
  · simp only [Reader.bind_eq_ok, Reader.name_eq_ok, Reader.takeList_eq_ok] at h
    obtain ⟨_, _, skipped, table, ⟨left, list⟩, ⟨valid, rfl⟩, _, _, ⟨rfl, rfl⟩, h⟩ := h
    rw [Reader.eq_of_skip seen (by simp) skipped]
    cases list with
    | none =>
      cases h
      exact .createTable valid
    | some list =>
      simp only [Reader.bind_eq_ok, Reader.lift_eq_ok, Reader.pure_eq_ok] at h
      obtain ⟨attributes, _, ⟨read, rfl⟩, rfl, last⟩ := h
      cases last
      exact .createTableOf valid read
  · cases h

theorem spells_drop (h : Reader.afterVerb .drop before = .ok (s, ⟨[], none⟩)) :
    Spells (.keyword .drop :: before.tokens) before.list s := by
  simp only [Reader.afterVerb, Reader.drop, Reader.bind_eq_ok, Reader.peek_eq_ok] at h
  obtain ⟨token, _, ⟨seen, rfl⟩, h⟩ := h
  split at h
  · simp only [Reader.bind_eq_ok, Reader.name_eq_ok, Reader.pure_eq_ok] at h
    obtain ⟨_, _, skipped, name, _, ⟨valid, rfl⟩, rfl, rfl⟩ := h
    rw [Reader.eq_of_skip seen (by simp) skipped]
    exact .dropDatabase valid
  · simp only [Reader.bind_eq_ok, Reader.name_eq_ok, Reader.pure_eq_ok] at h
    obtain ⟨_, _, skipped, table, _, ⟨valid, rfl⟩, rfl, rfl⟩ := h
    rw [Reader.eq_of_skip seen (by simp) skipped]
    exact .dropTable valid
  · cases h

theorem spells_alter (h : Reader.afterVerb .alter before = .ok (s, ⟨[], none⟩)) :
    Spells (.keyword .alter :: before.tokens) before.list s := by
  simp only [Reader.afterVerb, Reader.map_eq_ok, Reader.alter, Reader.bind_eq_ok,
    Reader.expect_eq_ok, Reader.name_eq_ok, Reader.peek_eq_ok] at h
  obtain ⟨_, ⟨_, _, rfl, table, between, ⟨valid, rfl⟩, token, _, ⟨seen, rfl⟩, h⟩, rfl⟩ := h
  split at h
  · simp only [Reader.bind_eq_ok, Reader.name_eq_ok, Reader.pure_eq_ok] at h
    obtain ⟨_, _, skipped, name, _, ⟨added, rfl⟩, rfl, rfl⟩ := h
    rw [Reader.eq_of_skip seen (by simp) skipped]
    exact @Spells.alter _ (.add name) valid added
  · simp only [Reader.bind_eq_ok, Reader.name_eq_ok, Reader.pure_eq_ok] at h
    obtain ⟨_, _, skipped, name, _, ⟨dropped, rfl⟩, rfl, rfl⟩ := h
    rw [Reader.eq_of_skip seen (by simp) skipped]
    exact @Spells.alter _ (.drop name) valid dropped
  · cases h

theorem spells_insert (h : Reader.afterVerb .insert before = .ok (s, ⟨[], none⟩)) :
    Spells (.keyword .insert :: before.tokens) before.list s := by
  simp only [Reader.afterVerb, Reader.map_eq_ok, Reader.insert, Reader.bind_eq_ok,
    Reader.expect_eq_ok, Reader.name_eq_ok, Reader.takeList_eq_ok] at h
  obtain ⟨_, ⟨_, _, rfl, table, _, ⟨valid, rfl⟩, _, ⟨left, list⟩, rfl, _, _, ⟨rfl, rfl⟩, h⟩, rfl⟩ := h
  cases list with
  | none => cases h
  | some list =>
    simp only [Reader.bind_eq_ok, Reader.lift_eq_ok, Reader.pure_eq_ok] at h
    obtain ⟨values, _, ⟨read, rfl⟩, rfl, last⟩ := h
    cases last
    exact .insert valid read

theorem spells_select (h : Reader.afterVerb .select before = .ok (s, ⟨[], none⟩)) :
    Spells (.keyword .select :: before.tokens) before.list s := by
  simp only [Reader.afterVerb, Reader.map_eq_ok, Reader.select, Reader.bind_eq_ok,
    Reader.expect_eq_ok, Reader.lift_eq_ok, Reader.name_eq_ok, Reader.peek_eq_ok] at h
  obtain ⟨_, ⟨text, _, cut, _, _, rfl, columns, _, ⟨read, rfl⟩, table, between, ⟨valid, rfl⟩, token,
    _, ⟨seen, rfl⟩, h⟩, rfl⟩ := h
  obtain ⟨taken, apart, rfl, rfl⟩ := Reader.textUntil_eq_ok.mp cut
  split at h
  · next isWhere =>
    simp only [Reader.bind_eq_ok, Reader.condition_eq_ok, Reader.pure_eq_ok] at h
    obtain ⟨_, _, skipped, condition, _, ⟨compiled, rfl⟩, rfl, -⟩ := h
    rw [Reader.eq_of_skip (seen.trans isWhere) (by simp) skipped]
    have whole := Spells.condition (.select apart read valid) compiled
    rwa [List.cons_append, List.append_assoc] at whole
  · obtain ⟨rfl, rfl⟩ := Reader.pure_eq_ok.mp h
    exact .select apart read valid

theorem requiredCondition_eq_ok {verb : Keyword} {after : Remaining} {c : Condition}
    (h : Reader.requiredCondition verb before = .ok (c, after)) :
    ∃ tokens, before = ⟨.keyword .whereClause :: tokens, before.list⟩ ∧
      Condition.compile (rejoined tokens before.list) = .ok c := by
  obtain ⟨_, _, peeked, h⟩ := Reader.bind_eq_ok.mp h
  obtain ⟨-, rfl⟩ := Reader.peek_eq_ok.mp peeked
  split at h
  · cases h
  · simp only [Reader.bind_eq_ok, Reader.expect_eq_ok, Reader.condition_eq_ok] at h
    obtain ⟨_, _, rfl, compiled, -⟩ := h
    exact ⟨_, rfl, compiled⟩

theorem spells_update (h : Reader.afterVerb .update before = .ok (s, ⟨[], none⟩)) :
    Spells (.keyword .update :: before.tokens) before.list s := by
  simp only [Reader.afterVerb, Reader.map_eq_ok, Reader.update, Reader.bind_eq_ok,
    Reader.expect_eq_ok, Reader.lift_eq_ok, Reader.name_eq_ok, Reader.pure_eq_ok] at h
  obtain ⟨_, ⟨table, _, ⟨valid, rfl⟩, _, _, rfl, text, _, cut, assignments, _, ⟨read, rfl⟩, condition,
    _, required, rfl, -⟩, rfl⟩ := h
  obtain ⟨rest, same, compiled⟩ := requiredCondition_eq_ok required
  rw [same] at cut
  obtain ⟨taken, apart, rfl, rfl⟩ := Reader.textUntil_eq_ok.mp cut
  have whole := Spells.condition (.update valid apart read) compiled
  rwa [List.cons_append, List.cons_append, List.cons_append, List.append_assoc] at whole

theorem spells_delete (h : Reader.afterVerb .delete before = .ok (s, ⟨[], none⟩)) :
    Spells (.keyword .delete :: before.tokens) before.list s := by
  simp only [Reader.afterVerb, Reader.map_eq_ok, Reader.delete, Reader.bind_eq_ok,
    Reader.expect_eq_ok, Reader.name_eq_ok, Reader.pure_eq_ok] at h
  obtain ⟨_, ⟨_, _, rfl, table, _, ⟨valid, rfl⟩, condition, _, required, rfl, -⟩, rfl⟩ := h
  obtain ⟨rest, same, compiled⟩ := requiredCondition_eq_ok required
  rw [same]
  exact .condition (.delete valid) compiled

theorem spells_join (h : Reader.afterVerb .join before = .ok (s, ⟨[], none⟩)) :
    Spells (.keyword .join :: before.tokens) before.list s := by
  simp only [Reader.afterVerb, Reader.map_eq_ok, Reader.join, Reader.bind_eq_ok,
    Reader.expect_eq_ok, Reader.name_eq_ok, Reader.pure_eq_ok] at h
  obtain ⟨_, ⟨primary, _, ⟨validPrimary, rfl⟩, _, _, rfl, secondary, _, ⟨validSecondary, rfl⟩, _, _,
    rfl, primaryKey, _, ⟨validPrimaryKey, rfl⟩, _, _, rfl, secondaryKey, _,
    ⟨validSecondaryKey, rfl⟩, rfl, rfl⟩, rfl⟩ := h
  exact @Spells.join ⟨primary, primaryKey⟩ ⟨secondary, secondaryKey⟩ validPrimary validSecondary
    validPrimaryKey validSecondaryKey

theorem spells_of_statement (h : Reader.statement before = .ok (s, ⟨[], none⟩)) :
    Spells before.tokens before.list s := by
  obtain ⟨token, _, peeked, h⟩ := Reader.bind_eq_ok.mp h
  obtain ⟨seen, rfl⟩ := Reader.peek_eq_ok.mp peeked
  split at h
  · next verb =>
    obtain ⟨_, after, skipped, h⟩ := Reader.bind_eq_ok.mp h
    rw [Reader.eq_of_skip seen (by simp) skipped]
    cases verb with
    | use => exact spells_use h
    | create => exact spells_create h
    | drop => exact spells_drop h
    | alter => exact spells_alter h
    | insert => exact spells_insert h
    | select => exact spells_select h
    | update => exact spells_update h
    | delete => exact spells_delete h
    | join => exact spells_join h
    | table | database | add | into | values | fromClause | whereClause | set | and | on => cases h
  · cases h

end Verb

/-! ## Reading what the grammar spells -/

theorem ConditionHead.reads {head : List Token} {make : Condition → Statement}
    (h : ConditionHead head make) (tokens : List Token) (list : Option String) :
    Reader.statement ⟨head ++ tokens, list⟩ =
      (Reader.condition ⟨tokens, list⟩).map fun result => (make result.1, result.2) := by
  cases h with
  | @select text columns table apart read valid =>
    have cut : Reader.textUntil (· == .keyword .fromClause)
        ⟨text ++ .keyword .fromClause :: .word table :: .keyword .whereClause :: tokens, list⟩ =
          .ok (rejoined text none,
            ⟨.keyword .fromClause :: .word table :: .keyword .whereClause :: tokens, list⟩) :=
      Reader.textUntil_eq_ok.mpr ⟨text, apart, rfl, rfl⟩
    rw [List.cons_append, List.append_assoc]
    show Reader.afterVerb .select ⟨_, list⟩ = _
    simp [Reader.afterVerb, Reader.select, Reader.bind_apply, cut, read, Reader.name_cons valid]
    cases Reader.condition ⟨tokens, list⟩ <;> rfl
  | @update text assignments table valid apart read =>
    have cut : Reader.textUntil (· == .keyword .whereClause)
        ⟨text ++ .keyword .whereClause :: tokens, list⟩ =
          .ok (rejoined text none, ⟨.keyword .whereClause :: tokens, list⟩) :=
      Reader.textUntil_eq_ok.mpr ⟨text, apart, rfl, rfl⟩
    rw [List.cons_append, List.cons_append, List.cons_append, List.append_assoc]
    show Reader.afterVerb .update ⟨_, list⟩ = _
    simp [Reader.afterVerb, Reader.update, Reader.requiredCondition, Reader.bind_apply, cut, read,
      Reader.name_cons valid]
    cases Reader.condition ⟨tokens, list⟩ <;> rfl
  | @delete table valid =>
    show Reader.afterVerb .delete ⟨_, list⟩ = _
    simp [Reader.afterVerb, Reader.delete, Reader.requiredCondition, Reader.bind_apply,
      Reader.name_cons valid]
    cases Reader.condition ⟨tokens, list⟩ <;> rfl

theorem statement_of_spells {tokens : List Token} {list : Option String} {s : Statement}
    (h : Spells tokens list s) : Reader.statement ⟨tokens, list⟩ = .ok (s, ⟨[], none⟩) := by
  have verb : ∀ keyword tokens list, Reader.statement ⟨.keyword keyword :: tokens, list⟩ =
      Reader.afterVerb keyword ⟨tokens, list⟩ := fun _ _ _ => rfl
  cases h with
  | use valid =>
    simp [verb, Reader.afterVerb, Reader.use, Reader.name_cons valid, Except.map]
  | createDatabase valid | createTable valid =>
    simp [verb, Reader.afterVerb, Reader.create, Reader.bind_apply, Reader.name_cons valid,
      Except.map]
  | createTableOf valid read =>
    simp [verb, Reader.afterVerb, Reader.create, Reader.bind_apply, Reader.name_cons valid, read,
      Except.map]
  | dropDatabase valid | dropTable valid =>
    simp [verb, Reader.afterVerb, Reader.drop, Reader.bind_apply, Reader.name_cons valid,
      Except.map]
  | @alter table change valid changed =>
    cases change with
    | add name =>
      have added : IsName name := changed
      simp [verb, Reader.afterVerb, Reader.alter, Reader.bind_apply, Reader.name_cons valid,
        SchemaChange.keyword, SchemaChange.name, Reader.name_cons added, Except.map]
    | drop name =>
      have dropped : IsName name := changed
      simp [verb, Reader.afterVerb, Reader.alter, Reader.bind_apply, Reader.name_cons valid,
        SchemaChange.keyword, SchemaChange.name, Reader.name_cons dropped, Except.map]
  | insert valid read =>
    simp [verb, Reader.afterVerb, Reader.insert, Reader.bind_apply, Reader.name_cons valid, read,
      Except.map]
  | @select text columns table apart read valid =>
    have cut : Reader.textUntil (· == .keyword .fromClause)
        ⟨text ++ [.keyword .fromClause, .word table], none⟩ =
          .ok (rejoined text none, ⟨[.keyword .fromClause, .word table], none⟩) :=
      Reader.textUntil_eq_ok.mpr ⟨text, apart, rfl, rfl⟩
    simp [verb, Reader.afterVerb, Reader.select, Reader.bind_apply, cut, read,
      Reader.name_cons valid, Except.map]
  | join validPrimary validSecondary validPrimaryKey validSecondaryKey =>
    simp [verb, Reader.afterVerb, Reader.join, Reader.bind_apply, Reader.name_cons validPrimary,
      Reader.name_cons validSecondary, Reader.name_cons validPrimaryKey,
      Reader.name_cons validSecondaryKey, Except.map]
  | @condition head tokens make list condition reads compiled =>
    have read : Reader.condition ⟨tokens, list⟩ = .ok (condition, ⟨[], none⟩) :=
      Reader.condition_eq_ok.mpr ⟨compiled, rfl⟩
    rw [reads.reads, read]
    rfl

/-- The statements that are read are those of the grammar. -/
theorem ofTokens_eq_ok_iff {tokens : List Token} {list : Option String} {s : Statement} :
    ofTokens tokens list = .ok s ↔ Spells (tokens.takeWhile (· != .endMark)) list s := by
  rw [ofTokens_eq_ok]
  exact ⟨spells_of_statement, statement_of_spells⟩

end Statement

end TabStore
