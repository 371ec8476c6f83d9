import TabStore.Proofs.Condition.Words
import TabStore.Proofs.Statement.Printer

/-!
# Conditions in statements

A statement is cut at its first parenthesis and into words, and what stands behind WHERE is put
together again before it is compiled. Whatever the condition is, this neither changes it nor accepts
or refuses more than compiling its own text does.

Results:
1. `exists_isCut`: how the text behind WHERE is cut, and the tokens before the cut;
2. `compile_rejoined`: what is put together again is compiled like the text that was cut;
3. `exists_read`, `parse_append_condition`: a statement whose last rule is a condition is read
   exactly if that condition is compiled from its own text, and otherwise all such statements fail
   alike;
4. `parse_where`: this holds of DELETE, SELECT and UPDATE;
5. `exists_parse_where`: the three fail alike where the condition is not read.
-/

namespace TabStore

open Text

namespace Token

theorem tokenize_trimEnd (text : List Char) :
    tokenize (String.ofList (trimEnd text)) = tokenize (String.ofList text) := by
  have sameEnd : openAtEnd false (trimEnd text) = openAtEnd false text := openAtEnd_trimEnd false text
  unfold tokenize
  dsimp only
  rw [String.toList_ofList, String.toList_ofList, sameEnd]
  split
  · rfl
  · next closed =>
    rw [Bool.not_eq_true] at closed
    exact congrArg (fun found => Except.ok (ofWords found ++ [endMark])) (words_trimEnd closed)

theorem tokenize_of_open {text : String} (isOpen : openAtEnd false text.toList = true) :
    tokenize text = .error .unterminatedString := if_pos isOpen

theorem ofWord_ne_endMark (word : String) : ofWord word ≠ .endMark := by
  unfold ofWord
  split
  · nofun
  · split <;> nofun

theorem IsSolid.ne_endMark {token : Token} (solid : token.IsSolid) : token ≠ .endMark :=
  fun same => ofWord_ne_endMark _ (solid.same.trans same)

end Token

namespace Condition

theorem isWord_respelled {word : List Char} (h : IsWord word) : IsWord (respelled word) := by
  rcases respelled_cases word with same | ⟨keyword, -, same⟩
  · rwa [same]
  · rw [same]
    exact (Token.isSolid_keyword keyword).isWord

end Condition

namespace Statement

/-! ## Cutting and putting together again -/

/-- A text behind WHERE is all main clause, or it is cut before a parenthesis. -/
inductive IsCut : List Char → List Char → Option String → Prop
  | whole (text : List Char) : IsCut text text none
  | list {front : List Char} (rest : List Char) : Closed front →
      IsCut (front ++ '(' :: rest) front (some (String.ofList ('(' :: rest)))

section Rejoined

variable {front : List Char}

theorem toList_intercalate_words : (" ".intercalate
    ((Token.ofWords (words front)).map Token.display)).toList =
      [' '].intercalate ((words front).map Condition.respelled) := by
  rw [String.toList_intercalate, Token.ofWords, List.map_map, List.map_map]
  rfl

theorem isWord_of_mem_respelled (closed : Closed front) :
    ∀ word ∈ (words front).map Condition.respelled, IsWord word := by
  intro word mem
  obtain ⟨original, found, rfl⟩ := List.mem_map.mp mem
  exact Condition.isWord_respelled (isWord_of_mem_words closed found)

theorem closed_intercalate_words (closed : Closed front) : Closed (" ".intercalate
    ((Token.ofWords (words front)).map Token.display)).toList := by
  have blank : ' ' ≠ '\'' := by decide
  rw [toList_intercalate_words]
  exact closed_intercalate blank fun word mem => (isWord_of_mem_respelled closed word mem).closed

/-- The words of a text, with single spaces between them and in the spelling of their tokens, are
read as the text itself. -/
theorem read_intercalate_words (closed : Closed front) {found : List Condition.Lexeme}
    (fit : ∀ lexeme ∈ found, lexeme.IsFit) :
    Condition.read (" ".intercalate ((Token.ofWords (words front)).map Token.display)).toList =
      .ok found ↔ Condition.read front = .ok found := by
  rw [Condition.read_eq_readWords (closed_intercalate_words closed), toList_intercalate_words,
    words_intercalate (isWord_of_mem_respelled closed), Condition.readWords_respelled fit,
    Condition.read_eq_readWords closed]

theorem isEmpty_intercalate_words (closed : Closed front) : (" ".intercalate
    ((Token.ofWords (words front)).map Token.display)).isEmpty = (words front).isEmpty := by
  cases found : words front with
  | nil => rfl
  | cons word rest =>
    have again := words_intercalate (isWord_of_mem_respelled closed)
    rw [← toList_intercalate_words] at again
    cases empty : (" ".intercalate ((Token.ofWords (words front)).map Token.display)).isEmpty with
    | false => rw [← found, empty, found]; rfl
    | true =>
      rw [String.isEmpty_iff.mp empty, found] at again
      cases again

end Rejoined

theorem read_rejoined {text front : List Char} {list : Option String} (cut : IsCut text front list)
    (closed : Closed front) {found : List Condition.Lexeme}
    (fit : ∀ lexeme ∈ found, lexeme.IsFit) :
    Condition.read (rejoined (Token.ofWords (words front)) list).toList = .ok found ↔
      Condition.read text = .ok found := by
  cases cut with
  | whole => exact read_intercalate_words closed fit
  | list rest =>
    have delimiter : Condition.isDelimiter '(' = true := by decide
    rw [Condition.read_append_cons closed delimiter, rejoined, isEmpty_intercalate_words closed]
    split
    · next empty =>
      rw [Condition.read_eq_readWords closed, List.isEmpty_iff.mp empty, String.toList_ofList]
      cases Condition.read ('(' :: rest) <;> rfl
    · have glued : ∀ words : String, (words ++ " " ++ String.ofList ('(' :: rest)).toList =
          words.toList ++ ' ' :: '(' :: rest := fun words => by simp
      rw [glued, Condition.read_append_blank (closed_intercalate_words closed) isBlank_space]
      simp only [bind_eq_ok, except_map_eq_ok]
      constructor
      · rintro ⟨first, readFirst, later, readLater, rfl⟩
        rw [List.forall_mem_append] at fit
        exact ⟨first, (read_intercalate_words closed fit.1).mp readFirst, later, readLater, rfl⟩
      · rintro ⟨first, readFirst, later, readLater, rfl⟩
        rw [List.forall_mem_append] at fit
        exact ⟨first, (read_intercalate_words closed fit.1).mpr readFirst, later, readLater, rfl⟩

theorem compile_rejoined {text : String} {front : List Char} {list : Option String}
    (cut : IsCut (trimEnd (' ' :: text.toList)) front list) (closed : Closed front)
    (condition : Condition) :
    Condition.compile (rejoined (Token.ofWords (words front)) list) = .ok condition ↔
      Condition.compile text = .ok condition := by
  refine Condition.compile_congr (fun found fit => ?_) condition
  rw [read_rejoined cut closed fit, Condition.read_trimEnd, Condition.read_blank isBlank_space]

/-- A text behind the words of a main clause is cut before its first parenthesis, whatever these
words are, and white space at the cut is not missed. -/
theorem exists_isCut (text : List Char) :
    ∃ front list, IsCut text front list ∧ (∃ rest, text = front ++ rest) ∧
      ∀ main : String, IsClear main → ∃ kept,
        Source.ofBody (main.toList ++ text) = ⟨kept, list⟩ ∧
          Token.tokenize kept = Token.tokenize (String.ofList (main.toList ++ front)) := by
  rcases free_or_exists_separator (· == '(') false text with
    free | ⟨front, c, rest, rfl, free, closed, opening⟩
  · refine ⟨text, none, .whole text, ⟨[], (List.append_nil text).symm⟩, fun main clear => ?_⟩
    refine ⟨_, ?_, rfl⟩
    rw [Source.ofBody, breakUnquoted_of_free (Free.append clear.2 clear.1 free)]
  · have same : c = '(' := beq_iff_eq.mp opening
    subst same
    refine ⟨front, _, .list rest closed, ⟨'(' :: rest, rfl⟩, fun main clear => ?_⟩
    refine ⟨_, ?_, Token.tokenize_trimEnd _⟩
    have cut := @breakUnquoted_append_cons (· == '(') false _ rest '('
      (Free.append clear.2 clear.1 free) (clear.2.append closed) rfl
    rw [List.append_assoc] at cut
    rw [Source.ofBody, cut]

theorem IsCut.closed_front {text front : List Char} {list : Option String}
    (cut : IsCut text front list) (closed : Closed text) : Closed front := by
  cases cut with
  | whole => exact closed
  | list _ frontClosed => exact frontClosed

/-- What is read for the text behind WHERE once it is cut. -/
def readCut (front : List Char) (list : Option String) : Result Condition :=
  if openAtEnd false front then .error .unterminatedString
  else Condition.compile (rejoined (Token.ofWords (words front)) list)

theorem readCut_eq_ok {text : String} {front : List Char} {list : Option String}
    (cut : IsCut (trimEnd (' ' :: text.toList)) front list) (condition : Condition) :
    readCut front list = .ok condition ↔ Condition.compile text = .ok condition := by
  unfold readCut
  split
  · next isOpen =>
    -- Every literal of a text that compiles ends, so the cut is behind the ends of literals.
    refine iff_of_false nofun fun compiled => ?_
    obtain ⟨found, readText, -⟩ := Condition.compile_eq_ok.mp compiled
    rw [← Condition.read_blank isBlank_space] at readText
    have closed : Closed front := cut.closed_front
      ((openAtEnd_trimEnd false _).trans (Condition.closed_of_read readText))
    rw [closed] at isOpen
    cases isOpen
  · next closed => exact compile_rejoined cut ((Bool.not_eq_true _).mp closed) condition

/-- What is cut from the white space behind a main clause has its words behind those of the main
clause. -/
theorem words_append_front {main : List Char} (closed : Closed main) {text front rest : List Char}
    (same : trimEnd (' ' :: text) = front ++ rest) :
    words (main ++ front) = words main ++ words front := by
  cases front with
  | nil => rw [words_nil, List.append_nil, List.append_nil]
  | cons c more =>
    obtain ⟨blanks, -, whole⟩ := trimEnd_append (' ' :: text)
    rw [same, List.cons_append, List.cons_append, List.cons.injEq] at whole
    rw [← whole.1, words_append_cons closed isBlank_space, words_cons isBlank_space]

/-! ## Statements -/

/-- The tokens of a statement whose last rule is a condition. -/
structure EndsInCondition (head : List Token) (make : Condition → Statement) : Prop where
  some : head ≠ []
  solid : ∀ token ∈ head, token.IsSolid
  reads : ∀ tokens list, Reader.statement ⟨head ++ tokens, list⟩ =
    (Reader.condition ⟨tokens, list⟩).map fun result => (make result.1, result.2)

theorem ofTokens_append {head : List Token} {make : Condition → Statement}
    (ends : EndsInCondition head make) (words : List (List Char)) (list : Option String) :
    ofTokens (head ++ Token.ofWords words ++ [.endMark]) list =
      (Condition.compile (rejoined (Token.ofWords words) list)).map make := by
  have noEnd : ∀ token ∈ head ++ Token.ofWords words, (token != Token.endMark) = true := by
    intro token mem
    rw [bne_iff_ne]
    rcases List.mem_append.mp mem with first | later
    · exact (ends.solid token first).ne_endMark
    · obtain ⟨word, -, rfl⟩ := List.mem_map.mp later
      exact Token.ofWord_ne_endMark _
  have cut : (head ++ Token.ofWords words ++ [Token.endMark]).takeWhile (· != Token.endMark) =
      head ++ Token.ofWords words := by
    rw [List.takeWhile_append_of_pos noEnd]
    exact List.append_nil _
  have run : Reader.statement.run ⟨head ++ Token.ofWords words, list⟩ = _ :=
    ends.reads (Token.ofWords words) list
  rw [ofTokens, cut, run, Reader.condition_apply]
  cases Condition.compile (rejoined (Token.ofWords words) list) <;> rfl

theorem EndsInCondition.words {head : List Token} {make : Condition → Statement}
    (ends : EndsInCondition head make) :
    IsClear (" ".intercalate (head.map Token.display)) ∧
      Token.ofWords (words (" ".intercalate (head.map Token.display)).toList) = head := by
  have space : " ".toList = [' '] := rfl
  rw [IsClear, String.toList_intercalate, List.map_map, space]
  have pieces : ∀ piece ∈ head.map (String.toList ∘ Token.display),
      IsWord piece ∧ Free (· == '(') false piece := by
    intro piece mem
    obtain ⟨token, found, rfl⟩ := List.mem_map.mp mem
    exact ⟨(ends.solid token found).isWord, (ends.solid token found).clear.1⟩
  refine ⟨free_intercalate (by decide) (by decide) fun piece mem =>
    ⟨(pieces piece mem).2, (pieces piece mem).1.closed⟩, ?_⟩
  rw [words_intercalate fun piece mem => (pieces piece mem).1, Token.ofWords, List.map_map]
  refine (List.map_congr_left fun token mem => ?_).trans head.map_id
  rw [Function.comp_apply, Function.comp_apply, String.ofList_toList, (ends.solid token mem).same]
  rfl

/-- What stands before a condition has no part in how the condition is read, nor in how that
fails. -/
theorem exists_read (text : String) : ∃ read : Result Condition,
    (∀ condition, read = .ok condition ↔ Condition.compile text = .ok condition) ∧
    ∀ {head : List Token} {make : Condition → Statement}, EndsInCondition head make →
      parse (" ".intercalate (head.map Token.display) ++ " " ++ text ++ ";") = read.map make := by
  obtain ⟨front, list, cut, ⟨rest, same⟩, bodies⟩ := exists_isCut (trimEnd (' ' :: text.toList))
  refine ⟨readCut front list, readCut_eq_ok cut, fun {head make} ends => ?_⟩
  obtain ⟨clear, tokens⟩ := ends.words
  have displayed : ∀ word ∈ head.map Token.display, IsWord word.toList := by
    intro word mem
    obtain ⟨token, found, rfl⟩ := List.mem_map.mp mem
    exact (ends.solid token found).isWord
  obtain ⟨some, first, last⟩ := ends_intercalate (by simpa using ends.some) fun word mem =>
    ⟨(displayed word mem).some, (displayed word mem).noBlank, (displayed word mem).closed⟩
  generalize " ".intercalate (head.map Token.display) = main at clear tokens some first last ⊢
  have written : main ++ " " ++ text ++ ";" =
      String.ofList ((main.toList ++ ' ' :: text.toList) ++ [';']) := by
    rw [← String.toList_inj]
    simp
  have trimmed : trim (main.toList ++ ' ' :: text.toList) =
      main.toList ++ trimEnd (' ' :: text.toList) := by
    rw [trim, trimStart_of_head, trimEnd_append_of_last last]
    intro c head
    rw [List.head?_append_of_ne_nil _ some] at head
    exact first c head
  obtain ⟨kept, body, tokenized⟩ := bodies main clear
  have closedApart : openAtEnd false (main.toList ++ front) = openAtEnd false front := by
    rw [openAtEnd_append, clear.2]
  rw [parse, written, Source.ofText_append_semicolon (by simp [some]) trimmed, ok_bind, body]
  dsimp only
  rw [tokenized, readCut]
  split
  · next isOpen =>
    rw [Token.tokenize_of_open (by rwa [String.toList_ofList, closedApart])]
    rfl
  · next closed =>
    have allTokens : Token.ofWords (words (main.toList ++ front)) =
        head ++ Token.ofWords (words front) := by
      rw [words_append_front clear.2 same, Token.ofWords, List.map_append, ← Token.ofWords,
        ← Token.ofWords, tokens]
    have closedMain : Closed (String.ofList (main.toList ++ front)).toList := by
      rw [String.toList_ofList, Closed, closedApart]
      exact (Bool.not_eq_true _).mp closed
    rw [Token.tokenize_eq_ok.mpr ⟨closedMain, rfl⟩, ok_bind, String.toList_ofList, allTokens,
      ofTokens_append ends]

/-- A statement whose last rule is a condition is read exactly if that condition is compiled from
the text that stands in its place. -/
theorem parse_append_condition {head : List Token} {make : Condition → Statement}
    (ends : EndsInCondition head make) (text : String) (s : Statement) :
    parse (" ".intercalate (head.map Token.display) ++ " " ++ text ++ ";") = .ok s ↔
      ∃ condition, Condition.compile text = .ok condition ∧ s = make condition := by
  obtain ⟨read, reads, parsed⟩ := exists_read text
  rw [parsed ends, except_map_eq_ok]
  simp only [reads, eq_comm]

/-! ## DELETE, SELECT and UPDATE -/

section Where

variable {name : String} (valid : IsClauseName name)

include valid

theorem endsInCondition_delete :
    EndsInCondition [.keyword .delete, .keyword .fromClause, .word name, .keyword .whereClause]
      (fun condition => .table (.delete name condition)) where
  some := List.cons_ne_nil _ _
  solid := by
    simp only [List.forall_mem_cons]
    exact ⟨Token.isSolid_keyword _, Token.isSolid_keyword _, Token.isSolid_name valid,
      Token.isSolid_keyword _, nofun⟩
  reads := (ConditionHead.delete valid.isName).reads

theorem endsInCondition_select {columns : Projection} (readable : columns.IsReadable) :
    EndsInCondition
      [.keyword .select, columns.token, .keyword .fromClause, .word name, .keyword .whereClause]
      (fun condition => .table (.select name columns (some condition))) where
  some := List.cons_ne_nil _ _
  solid := by
    simp only [List.forall_mem_cons]
    exact ⟨Token.isSolid_keyword _, Token.isSolid_projection readable, Token.isSolid_keyword _,
      Token.isSolid_name valid, Token.isSolid_keyword _, nofun⟩
  reads := (conditionHead_select valid.isName readable).reads

theorem endsInCondition_update {assignments : List Assignment}
    (sound : Items.IsAssignments assignments) (noList : ∀ a ∈ assignments, '(' ∉ a.target.toList) :
    EndsInCondition
      [.keyword .update, .word name, .keyword .set,
        .word (",".intercalate (assignments.map Assignment.source)), .keyword .whereClause]
      (fun condition => .table (.update name assignments condition)) where
  some := List.cons_ne_nil _ _
  solid := by
    simp only [List.forall_mem_cons]
    exact ⟨Token.isSolid_keyword _, Token.isSolid_name valid, Token.isSolid_keyword _,
      Token.isSolid_assignments sound noList, Token.isSolid_keyword _, nofun⟩
  reads := (conditionHead_update valid.isName sound).reads

end Where

/-- A condition behind WHERE means what its own text means: each statement is read from the text
around it exactly if the condition is compiled from its text, and to the same condition. -/
theorem parse_where {name : String} (valid : validateName name = .ok ()) (noList : '(' ∉ name.toList)
    (text : String) (s : Statement) :
    (parse ("DELETE FROM " ++ name ++ " WHERE " ++ text ++ ";") = .ok s ↔
      ∃ condition, Condition.compile text = .ok condition ∧
        s = .table (.delete name condition)) ∧
    (parse ("SELECT * FROM " ++ name ++ " WHERE " ++ text ++ ";") = .ok s ↔
      ∃ condition, Condition.compile text = .ok condition ∧
        s = .table (.select name .all (some condition))) ∧
    (parse ("UPDATE " ++ name ++ " SET a=1 WHERE " ++ text ++ ";") = .ok s ↔
      ∃ condition, Condition.compile text = .ok condition ∧
        s = .table (.update name [⟨"a", "1"⟩] condition)) := by
  have clauseName : IsClauseName name := ⟨valid, noList⟩
  have one : Items.assignments "a=1" = .ok [⟨"a", "1"⟩] := by decide +kernel
  have all : Projection.all.IsReadable := trivial
  have delete := parse_append_condition (endsInCondition_delete clauseName) text s
  have select := parse_append_condition (endsInCondition_select clauseName all) text s
  have update := parse_append_condition
    (endsInCondition_update clauseName (Items.assignments_eq_ok one).1 (by decide)) text s
  refine ⟨?_, ?_, ?_⟩
  · rw [← delete]
    refine Eq.congr_left (congrArg parse ?_)
    simp [← String.toList_inj, Token.display, Keyword.word]
  · rw [← select]
    refine Eq.congr_left (congrArg parse ?_)
    simp [← String.toList_inj, Token.display, Keyword.word, Projection.token]
  · rw [← update]
    refine Eq.congr_left (congrArg parse ?_)
    simp [← String.toList_inj, Token.display, Keyword.word, Assignment.source]

theorem parse_where_unspaced :
    parse ("DELETE FROM " ++ "a;b" ++ " WHERE " ++ "(age>=18)and( name Like ') (;' )" ++ ";") =
      .ok (.table (.delete "a;b" ⟨[.operand "age", .operand "18", .operator .greaterEqual,
        .operand "name", .operand "') (;'", .operator .like, .operator .and]⟩)) := by
  have compiled : Condition.compile "(age>=18)and( name Like ') (;' )" =
      .ok ⟨[.operand "age", .operand "18", .operator .greaterEqual, .operand "name",
        .operand "') (;'", .operator .like, .operator .and]⟩ := by
    decide +kernel
  have valid : validateName "a;b" = .ok () := by decide +kernel
  exact (parse_where valid (by decide) _ _).1.mpr ⟨_, compiled, rfl⟩

/-! ## One condition in three statements -/

/-- Assignments that can stand in a main clause. -/
structure IsClauseAssignments (assignments : List Assignment) : Prop
    extends Items.IsAssignments assignments where
  noList : ∀ a ∈ assignments, '(' ∉ a.target.toList

def selectWhere (name condition : String) : String :=
  "SELECT * FROM " ++ name ++ " WHERE " ++ condition ++ ";"

def deleteWhere (name condition : String) : String :=
  "DELETE FROM " ++ name ++ " WHERE " ++ condition ++ ";"

def updateWhere (name : String) (assignments : List Assignment) (condition : String) : String :=
  "UPDATE " ++ name ++ " SET " ++ ",".intercalate (assignments.map Assignment.source) ++
    " WHERE " ++ condition ++ ";"

/-- The three statements read the same condition, or they fail to read it alike. -/
theorem exists_parse_where {name : String} (valid : IsClauseName name) (condition : String) :
    ∃ read : Result Condition,
      parse (selectWhere name condition) =
        read.map (fun c => .table (.select name .all (some c))) ∧
      parse (deleteWhere name condition) = read.map (fun c => .table (.delete name c)) ∧
      ∀ assignments, IsClauseAssignments assignments →
        parse (updateWhere name assignments condition) =
          read.map fun c => .table (.update name assignments c) := by
  obtain ⟨read, -, parsed⟩ := exists_read condition
  have all : Projection.all.IsReadable := trivial
  refine ⟨read, ?_, ?_, fun assignments clause => ?_⟩
  · have head : " ".intercalate ([.keyword .select, Projection.all.token, .keyword .fromClause,
        .word name, .keyword .whereClause].map Token.display) =
      "SELECT" ++ " " ++ "*" ++ " " ++ "FROM" ++ " " ++ name ++ " " ++ "WHERE" := rfl
    refine Eq.trans (congrArg parse ?_) (parsed (endsInCondition_select valid all))
    show "SELECT * FROM " ++ name ++ " WHERE " ++ condition ++ ";" = _
    rw [head]
    simp [← String.toList_inj]
  · have head : " ".intercalate ([.keyword .delete, .keyword .fromClause, .word name,
        .keyword .whereClause].map Token.display) =
      "DELETE" ++ " " ++ "FROM" ++ " " ++ name ++ " " ++ "WHERE" := rfl
    refine Eq.trans (congrArg parse ?_) (parsed (endsInCondition_delete valid))
    show "DELETE FROM " ++ name ++ " WHERE " ++ condition ++ ";" = _
    rw [head]
    simp [← String.toList_inj]
  · have head : ∀ written : String, " ".intercalate ([.keyword .update, .word name, .keyword .set,
        .word written, .keyword .whereClause].map Token.display) =
      "UPDATE" ++ " " ++ name ++ " " ++ "SET" ++ " " ++ written ++ " " ++ "WHERE" := fun _ => rfl
    refine Eq.trans (congrArg parse ?_)
      (parsed (endsInCondition_update valid clause.toIsAssignments clause.noList))
    show "UPDATE " ++ name ++ " SET " ++ ",".intercalate (assignments.map Assignment.source) ++
      " WHERE " ++ condition ++ ";" = _
    rw [head]
    generalize ",".intercalate (assignments.map Assignment.source) = written
    simp [← String.toList_inj]

end Statement

end TabStore
