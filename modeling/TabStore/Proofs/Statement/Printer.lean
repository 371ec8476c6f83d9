import Mathlib.Data.List.Basic
import TabStore.Proofs.Condition.Printer
import TabStore.Proofs.Statement.Grammar
import TabStore.Proofs.Text.Words

/-!
# Statements written out

A statement is written as the tokens of its main clause with single spaces between them, its list if
it has one, and a semicolon. Reading what is written for a statement gives the statement again.

Results:
1. `tokenize_displayed`: tokens that are written with spaces between them are read again;
2. `ofText_source`: what is written for a statement is cut into its main clause and its list;
3. `spells_clause`, `ofTokens_clause`: every verb is read from the tokens and the list that are
   written for it;
4. `parse_source`: a statement that was read from some text is read again from what is written
   for it.
-/

namespace TabStore

open Text

def Projection.token : Projection → Token
  | .all => .star
  | .columns names => .word (",".intercalate names)

namespace Statement

/-- The tokens of the main clause. -/
def clause : Statement → List Token
  | .database (.use name) => [.keyword .use, .word name]
  | .database (.create name) => [.keyword .create, .keyword .database, .word name]
  | .database (.drop name) => [.keyword .drop, .keyword .database, .word name]
  | .table (.create name _) => [.keyword .create, .keyword .table, .word name]
  | .table (.drop name) => [.keyword .drop, .keyword .table, .word name]
  | .table (.alter name change) =>
    [.keyword .alter, .keyword .table, .word name, .keyword change.keyword, .word change.name]
  | .table (.insert name _) => [.keyword .insert, .keyword .into, .word name, .keyword .values]
  | .table (.select name columns none) =>
    [.keyword .select, columns.token, .keyword .fromClause, .word name]
  | .table (.select name columns (some _)) =>
    [.keyword .select, columns.token, .keyword .fromClause, .word name, .keyword .whereClause]
  | .table (.update name assignments _) =>
    [.keyword .update, .word name, .keyword .set,
      .word (",".intercalate (assignments.map Assignment.source)), .keyword .whereClause]
  | .table (.delete name _) =>
    [.keyword .delete, .keyword .fromClause, .word name, .keyword .whereClause]
  | .table (.join primary secondary) =>
    [.keyword .join, .word primary.table, .keyword .and, .word secondary.table, .keyword .on,
      .word primary.on, .keyword .and, .word secondary.on]

/-- What follows the main clause in parentheses. -/
def list? : Statement → Option String
  | .table (.create _ (first :: rest)) => some (Items.enclosedList (first :: rest))
  | .table (.insert _ values) => some (Items.enclosedList values)
  | .table (.select _ _ condition) => condition.map Condition.source
  | .table (.update _ _ condition) | .table (.delete _ condition) => some condition.source
  | _ => none

def source (s : Statement) : String :=
  let main := " ".intercalate (s.clause.map Token.display)
  match s.list? with
  | none => main ++ ";"
  | some list => main ++ " " ++ list ++ ";"

end Statement

/-! ## Tokens -/

/-- A token that is read from its own text, wherever it stands in a main clause. -/
structure Token.IsSolid (token : Token) : Prop where
  some : token.display.toList ≠ []
  noBlank : Free isBlank false token.display.toList
  clear : IsClear token.display
  same : Token.ofWord token.display = token

namespace Token

theorem isSolid_keyword (keyword : Keyword) : (Token.keyword keyword).IsSolid where
  some := by cases keyword <;> decide
  noBlank := by
    have plain : '\'' ∉ keyword.word.toList := by cases keyword <;> decide
    refine (free_iff_of_plain plain).mpr ?_
    cases keyword <;> exact forall_of_all (by decide)
  clear := isClear_word keyword
  same := by cases keyword <;> decide

theorem isSolid_star : star.IsSolid where
  some := by decide
  noBlank := ⟨fun _ => by decide, trivial⟩
  clear := isClear_of_plain (by decide) (by decide)
  same := by decide

theorem isClear_of_isClauseName {name : String} (h : IsClauseName name) : IsClear name :=
  isClear_of_plain h.isName.no_quote h.noList

theorem isSolid_name {name : String} (h : IsClauseName name) : (word name).IsSolid where
  some := h.isName.ne_nil
  noBlank := h.isName.free_iff.mpr fun _ mem => h.isName.not_isBlank mem
  clear := isClear_of_isClauseName h
  same := h.isName.ofWord

/-- Words with a comma or an equals sign are no keywords. -/
theorem ofWord_of_mem {text : String} {c : Char} (mark : c = ',' ∨ c = '=')
    (mem : c ∈ text.toList) :
    ofWord text = .word text := by
  have notStar : text ≠ "*" := by
    rintro rfl
    rcases mark with rfl | rfl <;> exact absurd mem (by decide)
  have noKeyword : Keyword.ofWord? text = none := by
    rw [Keyword.ofWord?, List.find?_eq_none]
    intro keyword _
    rw [beq_iff_eq]
    intro same
    have upperMem : upperChar c ∈ keyword.word.toList := same ▸ List.mem_map_of_mem mem
    rcases mark with rfl | rfl <;> cases keyword <;> exact absurd upperMem (by decide)
  rw [ofWord, if_neg notStar, noKeyword]

/-- A list without white space and parentheses stands in a main clause as one word. -/
theorem isSolid_list {items : List String} (some : items ≠ [])
    (h : ∀ item ∈ items, Items.IsItem item.toList ∧ IsClear item)
    (same : ofWord (",".intercalate items) = .word (",".intercalate items)) :
    (word (",".intercalate items)).IsSolid := by
  refine ⟨?_, ?_, ?_, same⟩
  · have notBlank := Items.isBlankText_intercalate some fun item mem => (h item mem).1
    intro empty
    rw [display] at empty
    rw [Items.isBlankText, empty] at notBlank
    cases notBlank
  · exact (Items.free_intercalate_items (by decide) fun item mem =>
      ⟨(h item mem).1.noBlank, (h item mem).1.closed⟩).1
  · exact Items.free_intercalate_items (by decide) fun item mem => (h item mem).2

theorem mem_intercalate_of_two {first second : String} {rest : List String} :
    ',' ∈ (",".intercalate (first :: second :: rest)).toList := by
  simp

theorem isSolid_projection {columns : Projection} (h : columns.IsReadable) :
    columns.token.IsSolid := by
  cases columns with
  | all => exact isSolid_star
  | columns names =>
    obtain ⟨valid, noList⟩ := h
    refine isSolid_list valid.some (fun name mem => ⟨?_, ?_⟩) ?_
    · exact Items.isItem_of_isName (valid.isName name mem) (valid.noComma name mem)
    · exact isClear_of_plain (valid.isName name mem).no_quote (noList name mem)
    · -- One column is a name, several columns have a comma between them.
      match names, valid with
      | [], valid => exact absurd rfl valid.some
      | [name], valid =>
        rw [String.intercalate_singleton]
        exact (valid.isName name List.mem_cons_self).ofWord
      | _ :: _ :: _, _ => exact ofWord_of_mem (.inl rfl) mem_intercalate_of_two

theorem isSolid_assignments {assignments : List Assignment}
    (valid : Items.IsAssignments assignments)
    (noList : ∀ a ∈ assignments, '(' ∉ a.target.toList) :
    (word (",".intercalate (assignments.map Assignment.source))).IsSolid := by
  refine isSolid_list (by simpa using valid.some) (fun pair mem => ?_) ?_
  · obtain ⟨a, found, rfl⟩ := List.mem_map.mp mem
    have sound := valid.sound a found
    refine ⟨Items.isItem_source sound (valid.noComma a found), ?_⟩
    refine Items.free_source sound (fun c mem => beq_eq_false_iff_ne.mpr fun same => ?_) (by decide)
      (Value.free_of_isLiteral sound.isLiteral (by decide) fun c =>
        Items.ne_of_isPlainLiteralChar (by decide))
    exact noList a found (same ▸ mem)
  · obtain ⟨first, rest, rfl⟩ := List.exists_cons_of_ne_nil valid.some
    refine ofWord_of_mem (c := '=') (.inr rfl) ?_
    cases rest with
    | nil => simp [Assignment.source]
    | cons next more => simp [Assignment.source]

/-- A token that is read from its own text. -/
structure IsReread (token : Token) : Prop where
  isWord : IsWord token.display.toList
  same : ofWord token.display = token

theorem IsSolid.isWord {token : Token} (solid : token.IsSolid) : IsWord token.display.toList :=
  ⟨solid.some, solid.noBlank, solid.clear.2⟩

theorem IsSolid.isReread {token : Token} (solid : token.IsSolid) : token.IsReread :=
  ⟨solid.isWord, solid.same⟩

def ofWords (words : List (List Char)) : List Token :=
  words.map fun word => ofWord (String.ofList word)

theorem tokenize_eq_ok {text : String} {tokens : List Token} : tokenize text = .ok tokens ↔
    Closed text.toList ∧ tokens = ofWords (words text.toList) ++ [.endMark] := by
  unfold tokenize
  dsimp only
  split
  · next isOpen => simp [Closed, isOpen]
  · next closed =>
    rw [Bool.not_eq_true] at closed
    simp only [Closed, closed, true_and, Except.ok.injEq]
    exact eq_comm

/-- Tokens that are read from their own texts are read again with spaces between them. -/
theorem tokenize_displayed {tokens : List Token} (reread : ∀ token ∈ tokens, token.IsReread) :
    tokenize (" ".intercalate (tokens.map display)) = .ok (tokens ++ [.endMark]) := by
  have chars : (" ".intercalate (tokens.map display)).toList =
      [' '].intercalate (tokens.map fun token => token.display.toList) := by
    rw [String.toList_intercalate, List.map_map]
    rfl
  have isWord : ∀ word ∈ tokens.map fun token => token.display.toList, IsWord word := by
    intro word mem
    obtain ⟨token, found, rfl⟩ := List.mem_map.mp mem
    exact (reread token found).isWord
  have read : ofWords (tokens.map fun token => token.display.toList) = tokens := by
    rw [ofWords, List.map_map]
    refine (List.map_congr_left fun token mem => ?_).trans tokens.map_id
    rw [Function.comp_apply, String.ofList_toList, (reread token mem).same]
    rfl
  refine tokenize_eq_ok.mpr ⟨?_, ?_⟩
  · rw [chars]
    exact closed_intercalate (by decide) fun word mem => (isWord word mem).closed
  · rw [chars, words_intercalate isWord, read]

theorem tokenize_intercalate {tokens : List Token} (solid : ∀ token ∈ tokens, token.IsSolid) :
    tokenize (" ".intercalate (tokens.map display)) = .ok (tokens ++ [.endMark]) :=
  tokenize_displayed fun token mem => (solid token mem).isReread

end Token

/-! ## The main clause and the list -/

/-- A text in parentheses. -/
def IsEnclosed (list : String) : Prop := ∃ inner, list.toList = '(' :: (inner ++ [')'])

namespace Source

theorem trimEnd_append_semicolon (text : List Char) {after : List Char}
    (white : ∀ c ∈ after, isBlank c = true) : trimEnd (text ++ ';' :: after) = text ++ [';'] := by
  have last : ∀ c, (text ++ [';']).getLast? = some c → isBlank c = false := by
    intro c last
    rw [List.getLast?_concat] at last
    cases last
    decide
  rw [List.append_cons, trimEnd_append_of_last last, trimEnd_of_blank white, List.append_nil]

/-- A text that ends with a semicolon is the body before it, trimmed. -/
theorem ofText_append_semicolon {text body : List Char} (some : body ≠ [])
    (trimmed : trim text = body) : ofText (String.ofList (text ++ [';'])) = .ok (ofBody body) := by
  have terminated : dropTerminator (text ++ [';']) = Option.some text := by
    simp [dropTerminator]
  have notEmpty : ¬ (text ++ [';']).isEmpty = true := by simp
  have bodyNotEmpty : ¬ body.isEmpty = true := by simpa using some
  unfold ofText
  dsimp only
  rw [String.toList_ofList, trimEnd_append_semicolon text (List.forall_mem_nil _), if_neg notEmpty,
    terminated]
  dsimp only
  rw [trimmed, if_neg bodyNotEmpty]

theorem ofBody_clear {main : String} (clear : IsClear main) :
    ofBody main.toList = ⟨main, none⟩ := by
  rw [ofBody, breakUnquoted_of_free clear.1]
  simp

theorem ofBody_append_list {main list : String} (clear : IsClear main)
    (last : ∀ c, main.toList.getLast? = some c → isBlank c = false) (enclosed : IsEnclosed list) :
    ofBody (main.toList ++ ' ' :: list.toList) = ⟨main, some list⟩ := by
  obtain ⟨inner, same⟩ := enclosed
  have clearBlank : Free (· == '(') false (main.toList ++ [' ']) :=
    Free.append clear.2 clear.1 ⟨fun _ => by decide, trivial⟩
  have closedBlank : Closed (main.toList ++ [' ']) := clear.2.append rfl
  have cut := @breakUnquoted_append_cons (· == '(') false _ (inner ++ [')']) '(' clearBlank
    closedBlank rfl
  rw [List.append_assoc, List.singleton_append, ← same] at cut
  rw [ofBody, cut]
  rw [same]
  dsimp only
  rw [← same, trimEnd_append_blank (by decide), trimEnd_of_last last, String.ofList_toList,
    String.ofList_toList]

end Source

namespace Statement

theorem clause_ne_nil (s : Statement) : s.clause ≠ [] := by
  unfold clause
  split <;> exact List.cons_ne_nil _ _

theorem isSolid_clause {s : Statement} (h : s.IsReadable) : ∀ token ∈ s.clause, token.IsSolid := by
  have keyword := Token.isSolid_keyword
  have name := @Token.isSolid_name
  have nil : ∀ token ∈ ([] : List Token), token.IsSolid := nofun
  unfold clause
  split <;> simp only [List.forall_mem_cons]
  · exact ⟨keyword _, name h, nil⟩
  · exact ⟨keyword _, keyword _, name h, nil⟩
  · exact ⟨keyword _, keyword _, name h, nil⟩
  · exact ⟨keyword _, keyword _, name h.1, nil⟩
  · exact ⟨keyword _, keyword _, name h, nil⟩
  · exact ⟨keyword _, keyword _, name h.1, keyword _, name h.2, nil⟩
  · exact ⟨keyword _, keyword _, name h.1, keyword _, nil⟩
  · exact ⟨keyword _, Token.isSolid_projection h.2.1, keyword _, name h.1, nil⟩
  · exact ⟨keyword _, Token.isSolid_projection h.2.1, keyword _, name h.1, keyword _, nil⟩
  · exact ⟨keyword _, name h.1, keyword _, Token.isSolid_assignments h.2.1 h.2.2.1, keyword _, nil⟩
  · exact ⟨keyword _, keyword _, name h.1, keyword _, nil⟩
  · exact ⟨keyword _, name h.1, keyword _, name h.2.2.1, keyword _, name h.2.1, keyword _,
      name h.2.2.2, nil⟩

theorem isEnclosed_source {condition : Condition} (h : condition.IsCompiled) :
    IsEnclosed condition.source := by
  obtain ⟨text, compiled⟩ := h
  obtain ⟨e, -, -, written⟩ := Condition.exists_source_of_compile compiled
  rw [IsEnclosed, written, String.toList_ofList]
  cases e with
  | comparison c => exact ⟨_, enclosed_eq _ _ _⟩
  | combination connective left right => exact ⟨_, enclosed_eq _ _ _⟩

theorem isEnclosed_list {s : Statement} (h : s.IsReadable) {list : String}
    (found : s.list? = some list) : IsEnclosed list := by
  have items : ∀ items, IsEnclosed (Items.enclosedList items) := fun items =>
    ⟨(",".intercalate items).toList, by simp [Items.enclosedList]⟩
  unfold list? at found
  split at found
  · cases found
    exact items _
  · cases found
    exact items _
  · obtain ⟨c, present, rfl⟩ := Option.map_eq_some_iff.mp found
    exact isEnclosed_source (h.2.2 c present)
  · cases found
    exact isEnclosed_source h.2.2.2
  · cases found
    exact isEnclosed_source h.2
  · cases found

/-- Words with spaces between them neither start nor end with white space. -/
theorem ends_intercalate {words : List String} (some : words ≠ [])
    (h : ∀ word ∈ words, word.toList ≠ [] ∧ Free isBlank false word.toList ∧ Closed word.toList) :
    (" ".intercalate words).toList ≠ [] ∧
      (∀ c, (" ".intercalate words).toList.head? = Option.some c → isBlank c = false) ∧
      ∀ c, (" ".intercalate words).toList.getLast? = Option.some c → isBlank c = false := by
  induction words with
  | nil => exact absurd rfl some
  | cons word rest ih =>
    obtain ⟨wordSome, free, closed⟩ := h word List.mem_cons_self
    cases rest with
    | nil =>
      rw [String.intercalate_singleton]
      exact ⟨wordSome, free.ends closed⟩
    | cons next more =>
      obtain ⟨restSome, -, last⟩ := ih (List.cons_ne_nil _ _) fun other mem =>
        h other (List.mem_cons_of_mem word mem)
      rw [String.intercalate_cons_cons, String.toList_append, String.toList_append]
      refine ⟨by simp [wordSome], fun c head => ?_, fun c found => last c ?_⟩
      · rw [List.append_assoc, List.head?_append_of_ne_nil _ wordSome] at head
        exact (free.ends closed).1 c head
      · rwa [List.getLast?_append_of_ne_nil _ restSome] at found

theorem ofText_source {s : Statement} (h : s.IsReadable) :
    Source.ofText s.source = .ok ⟨" ".intercalate (s.clause.map Token.display), s.list?⟩ := by
  have solid : ∀ word ∈ s.clause.map Token.display, word.toList ≠ [] ∧
      Free isBlank false word.toList ∧ IsClear word := by
    intro word mem
    obtain ⟨token, found, rfl⟩ := List.mem_map.mp mem
    have token := isSolid_clause h token found
    exact ⟨token.some, token.noBlank, token.clear⟩
  generalize same : " ".intercalate (s.clause.map Token.display) = main
  obtain ⟨some, first, last⟩ := ends_intercalate (by simpa using s.clause_ne_nil)
    fun word mem => ⟨(solid word mem).1, (solid word mem).2.1, (solid word mem).2.2.2⟩
  rw [same] at some first last
  have clear : IsClear main := by
    rw [IsClear, ← same, String.toList_intercalate]
    refine free_intercalate (by decide) (by decide) fun piece mem => ?_
    obtain ⟨word, found, rfl⟩ := List.mem_map.mp mem
    exact (solid word found).2.2
  unfold source
  dsimp only
  rw [same]
  -- Only a list brings an opening parenthesis into the text, so the text is split there.
  cases found : s.list? with
  | none =>
    have written : main ++ ";" = String.ofList (main.toList ++ [';']) := by
      rw [← String.toList_inj]
      simp
    dsimp only
    rw [written, Source.ofText_append_semicolon some (trim_of_ends first last),
      Source.ofBody_clear clear]
  | some list =>
    have enclosed := isEnclosed_list h found
    obtain ⟨inner, listText⟩ := enclosed
    have written : main ++ " " ++ list ++ ";" =
        String.ofList ((main.toList ++ ' ' :: list.toList) ++ [';']) := by
      rw [← String.toList_inj]
      simp
    have bodyFirst : ∀ c, (main.toList ++ ' ' :: list.toList).head? = Option.some c →
        isBlank c = false := by
      intro c head
      rw [List.head?_append_of_ne_nil _ some] at head
      exact first c head
    have bodyLast : ∀ c, (main.toList ++ ' ' :: list.toList).getLast? = Option.some c →
        isBlank c = false := by
      intro c found
      rw [listText, ← List.cons_append, ← List.cons_append, ← List.append_assoc,
        List.getLast?_concat] at found
      cases found
      decide
    dsimp only
    rw [written, Source.ofText_append_semicolon (by simp) (trim_of_ends bodyFirst bodyLast),
      Source.ofBody_append_list clear last ⟨inner, listText⟩]

/-! ## Reading what is written -/

theorem projection_token {columns : Projection} (h : columns.IsReadable) :
    .keyword .fromClause ∉ [columns.token] ∧
      Items.projection (rejoined [columns.token] none) = .ok columns := by
  rw [rejoined_singleton]
  cases columns with
  | all => exact ⟨by simp [Projection.token], rfl⟩
  | columns names => exact ⟨by simp [Projection.token], Items.projection_columns h.1⟩

theorem compile_rejoined_source {c : Condition} (h : c.IsCompiled) :
    Condition.compile (rejoined [] (some c.source)) = .ok c := by
  obtain ⟨text, compiled⟩ := h
  exact Condition.compile_source compiled

theorem conditionHead_select {columns : Projection} {name : String} (valid : IsName name)
    (readable : columns.IsReadable) : ConditionHead
      [.keyword .select, columns.token, .keyword .fromClause, .word name, .keyword .whereClause]
      fun condition => .table (.select name columns (some condition)) :=
  .select (projection_token readable).1 (projection_token readable).2 valid

theorem conditionHead_update {assignments : List Assignment} {name : String} (valid : IsName name)
    (sound : Items.IsAssignments assignments) : ConditionHead
      [.keyword .update, .word name, .keyword .set,
        .word (",".intercalate (assignments.map Assignment.source)), .keyword .whereClause]
      fun condition => .table (.update name assignments condition) := by
  have read : Items.assignments (rejoined
      [.word (",".intercalate (assignments.map Assignment.source))] none) = .ok assignments := by
    rw [rejoined_singleton]
    exact Items.assignments_written sound
  exact .update valid (by simp) read

/-- What is written for a statement spells it. -/
theorem spells_clause {s : Statement} (h : s.IsReadable) : Spells s.clause s.list? s := by
  match s with
  | .database (.use name) => exact .use h.isName
  | .database (.create name) => exact .createDatabase h.isName
  | .database (.drop name) => exact .dropDatabase h.isName
  | .table (.create name []) => exact .createTable h.1.isName
  | .table (.create name (first :: rest)) =>
    have valid := h.2.resolve_left (List.cons_ne_nil _ _)
    exact .createTableOf h.1.isName (Items.attributes_enclosed valid)
  | .table (.drop name) => exact .dropTable h.isName
  | .table (.alter name change) => exact .alter h.1.isName h.2.isName
  | .table (.insert name values) => exact .insert h.1.isName (Items.values_enclosed h.2.1 h.2.2)
  | .table (.select name columns none) =>
    obtain ⟨apart, read⟩ := projection_token h.2.1
    exact .select apart read h.1.isName
  | .table (.select name columns (some c)) =>
    exact .condition (conditionHead_select h.1.isName h.2.1)
      (compile_rejoined_source (h.2.2 c rfl))
  | .table (.update name assignments c) =>
    exact .condition (conditionHead_update h.1.isName h.2.1) (compile_rejoined_source h.2.2.2)
  | .table (.delete name c) =>
    exact .condition (.delete h.1.isName) (compile_rejoined_source h.2)
  | .table (.join primary secondary) =>
    exact .join h.1.isName h.2.2.1.isName h.2.1.isName h.2.2.2.isName

theorem statement_clause {s : Statement} (h : s.IsReadable) :
    Reader.statement ⟨s.clause, s.list?⟩ = .ok (s, ⟨[], none⟩) :=
  statement_of_spells (spells_clause h)

theorem ofTokens_clause {s : Statement} (h : s.IsReadable) :
    ofTokens (s.clause ++ [.endMark]) s.list? = .ok s := by
  -- The end mark is no token that is read from its own text.
  have noEnd : ∀ token ∈ s.clause, (token != Token.endMark) = true := by
    intro token mem
    have same := (isSolid_clause h token mem).same
    rw [bne_iff_ne]
    rintro rfl
    revert same
    decide
  have cut : (s.clause ++ [Token.endMark]).takeWhile (· != Token.endMark) = s.clause := by
    rw [List.takeWhile_append_of_pos noEnd]
    exact List.append_nil _
  have run : Reader.statement.run ⟨s.clause, s.list?⟩ = .ok (s, ⟨[], none⟩) := statement_clause h
  rw [ofTokens, cut, run]
  rfl

/-- A statement that is read from a text is read again, unchanged, from what is written for it. -/
theorem parse_source {text : String} {s : Statement} (h : parse text = .ok s) :
    parse s.source = .ok s := by
  have readable := isReadable_of_parse h
  have tokenized := Token.tokenize_intercalate (isSolid_clause readable)
  rw [parse, ofText_source readable, ok_bind]
  dsimp only
  rw [tokenized, ok_bind]
  exact ofTokens_clause readable

theorem parse_source_select : ∃ s,
    parse "select a.b;c , d=e from t,1 where (name like 'AND (;') or (id>=-2);" = .ok s ∧
      s.source = "SELECT a.b;c,d=e FROM t,1 WHERE ((name LIKE 'AND (;') OR (id >= -2));" ∧
      parse s.source = .ok s := by
  have read :
      parse "select a.b;c , d=e from t,1 where (name like 'AND (;') or (id>=-2);" =
        .ok (.table (.select "t,1" (.columns ["a.b;c", "d=e"]) (some ⟨[.operand "name",
          .operand "'AND (;'", .operator .like, .operand "id", .operand "-2",
          .operator .greaterEqual, .operator .or]⟩))) := by
    decide +kernel
  exact ⟨_, read, by decide +kernel, parse_source read⟩

end Statement

end TabStore
