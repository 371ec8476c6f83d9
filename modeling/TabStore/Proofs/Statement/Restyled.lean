import Mathlib.Logic.Relation
import TabStore.Proofs.Condition.Reserved
import TabStore.Proofs.Statement.Layout

/-!
# Layout and letter case

Neither the white space in the text of a statement nor the letter case of its keywords and operators
matters. A change is told on the text itself: which run of white space is replaced, or which word is
written otherwise.

Results:
1. `Token.ofWord_eq_keyword_iff`, `Condition.compile_operator`: keywords and operators are known by
   their upper case;
2. `Restyling`: the changes, one at a time;
3. `parse_of_restyling`: a change leaves the statement that is read;
4. `parse_restyled`: any number of changes leaves it.
-/

namespace TabStore

open Text

theorem Token.ofWord_eq_keyword_iff {word : List Char} {keyword : Keyword} :
    ofWord (String.ofList word) = .keyword keyword ↔ upper word = keyword.word.toList := by
  unfold ofWord
  constructor
  · intro h
    split at h
    · cases h
    · split at h
      · next found =>
        cases h
        unfold Keyword.ofWord? at found
        simpa using List.find?_some found
      · cases h
  · intro spelled
    have noStar : String.ofList word ≠ "*" := by
      intro star
      rw [← String.toList_inj, String.toList_ofList] at star
      rw [star] at spelled
      revert spelled
      cases keyword <;> decide
    have found : Keyword.ofWord? (String.ofList word) = some keyword := by
      rw [Keyword.ofWord?, String.toList_ofList, spelled]
      cases keyword <;> decide
    rw [if_neg noStar, found]

namespace Condition

variable {word : List Char}

theorem isWordChar_of_upper {capitals : List Char} (capital : ∀ c ∈ capitals, c.isUpper = true)
    (spelled : upper word = capitals) : ∀ c ∈ word, isWordChar c = true := by
  intro c mem
  refine isWordChar_of_upperChar (capital _ ?_)
  rw [← spelled]
  exact List.mem_map_of_mem mem

theorem isWord_of_isWordChar (some : word ≠ []) (letters : ∀ c ∈ word, isWordChar c = true) :
    IsWord word ∧ Free (· == '(') false word := by
  have plain : '\'' ∉ word := fun mem => absurd (letters _ mem) (by decide +kernel)
  refine ⟨⟨some, (free_iff_of_plain plain).mpr fun c mem => ?_, closed_of_plain plain⟩,
    (free_iff_of_plain plain).mpr fun c mem => ?_⟩
  · cases blank : isBlank c with
    | false => rfl
    | true =>
      have letter := letters c mem
      rw [not_isWordChar_of_isBlank blank] at letter
      cases letter
  · rw [beq_eq_false_iff_ne]
    rintro rfl
    exact absurd (letters _ mem) (by decide +kernel)

/-- The letter case of an operator does not matter. -/
theorem compile_operator {before other after : List Char} {reserved : String}
    (place : IsPlace before after) (mem : reserved ∈ conditionWords)
    (spelled : upper word = reserved.toList) (spelledOther : upper other = reserved.toList)
    (condition : Condition) :
    compile (String.ofList (before ++ word ++ after)) = .ok condition ↔
      compile (String.ofList (before ++ other ++ after)) = .ok condition := by
  have capital := List.all_eq_true.mp (upper_conditionWords reserved mem).1
  have some : ∀ word, upper word = reserved.toList → word ≠ [] := by
    rintro _ spelled rfl
    exact toList_ne_nil_of_mem_conditionWords reserved mem spelled.symm
  have code : canonicalWord word = canonicalWord other := by
    simp only [conditionWords, List.mem_cons, List.not_mem_nil, or_false] at mem
    unfold canonicalWord
    rw [spelled, spelledOther]
    rcases mem with rfl | rfl | rfl <;> rfl
  refine compile_congr (fun found _ => ?_) condition
  rw [String.toList_ofList, String.toList_ofList, read, read,
    canonicalChars_word (some word spelled) (isWordChar_of_upper capital spelled) place,
    canonicalChars_word (some other spelledOther) (isWordChar_of_upper capital spelledOther) place,
    code]

end Condition

namespace Statement

/-! ## Changes of layout and letter case -/

/-- A run of white space. -/
structure IsRun (run : List Char) : Prop where
  some : run ≠ []
  white : ∀ c ∈ run, isBlank c = true

/-- One change of the layout of a text, or of the letter case of a keyword or an operator. -/
inductive Restyling : List Char → List Char → Prop
  /-- A run of white space outside the literals is replaced by another. -/
  | run {before run other after : List Char} :
      Closed before → IsRun run → IsRun other →
      Restyling (before ++ run ++ after) (before ++ other ++ after)
  /-- White space is added in front of the text. -/
  | start {blanks text : List Char} :
      (∀ c ∈ blanks, isBlank c = true) → Restyling text (blanks ++ text)
  /-- White space is added in front of the final semicolon. -/
  | beforeEnd {body blanks tail : List Char} :
      (∀ c ∈ blanks, isBlank c = true) → (∀ c ∈ tail, isBlank c = true) →
      Restyling (body ++ ';' :: tail) (body ++ blanks ++ ';' :: tail)
  /-- White space is added behind the final semicolon. -/
  | afterEnd {blanks text : List Char} :
      (∀ c ∈ blanks, isBlank c = true) → Restyling text (text ++ blanks)
  /-- A keyword of the main clause is written in another letter case. -/
  | keyword {before word other after tail : List Char} {keyword : Keyword} :
      Free (· == '(') false before → Closed before → EndsBlank before → FollowsWord after →
      Token.ofWord (String.ofList word) = .keyword keyword → sameIgnoringCase word other = true →
      (∀ c ∈ tail, isBlank c = true) →
      Restyling (before ++ word ++ after ++ ';' :: tail) (before ++ other ++ after ++ ';' :: tail)
  /-- An operator of the condition that is a word is written in another letter case. -/
  | operator {main before word other after tail : List Char} {make : Condition → Statement}
      {reserved : String} :
      Free (· == '(') false main → Closed main →
      ConditionHead (Token.ofWords (words main)) make → before ≠ [] → FollowsWord before →
      Condition.IsPlace before after → reserved ∈ conditionWords →
      upper word = reserved.toList → sameIgnoringCase word other = true →
      (∀ c ∈ tail, isBlank c = true) →
      Restyling (main ++ (before ++ word ++ after) ++ ';' :: tail)
        (main ++ (before ++ other ++ after) ++ ';' :: tail)

section Step

variable {before word other after : List Char} {s : Statement}

/-- A main clause up to a keyword, in whatever letter case the keyword is. -/
theorem main_append_keyword {keyword : Keyword} (free : Free (· == '(') false before)
    (closed : Closed before) (ends : EndsBlank before)
    (spelled : upper word = keyword.word.toList) :
    Free (· == '(') false (before ++ word) ∧ Closed (before ++ word) ∧
      Token.ofWords (words (before ++ word)) = Token.ofWords (words before) ++ [.keyword keyword] := by
  have capital : ∀ c ∈ keyword.word.toList, c.isUpper = true := by
    cases keyword <;> exact forall_of_all (by decide)
  have some : word ≠ [] := by
    rintro rfl
    revert spelled
    cases keyword <;> decide
  obtain ⟨isWord, noList⟩ :=
    Condition.isWord_of_isWordChar some (Condition.isWordChar_of_upper capital spelled)
  refine ⟨Free.append closed free noList, closed.append isWord.closed, ?_⟩
  rw [words_append_of_endsBlank closed ends, words_of_free isWord.noBlank some, Token.ofWords,
    List.map_append, List.map_singleton, Token.ofWord_eq_keyword_iff.mpr spelled]
  rfl

theorem Reads.keyword {keyword : Keyword} (free : Free (· == '(') false before)
    (closed : Closed before) (ends : EndsBlank before) (follows : FollowsWord after)
    (found : Token.ofWord (String.ofList word) = .keyword keyword)
    (same : sameIgnoringCase word other = true) (h : Reads (before ++ word ++ after) s) :
    Reads (before ++ other ++ after) s := by
  have spelled := Token.ofWord_eq_keyword_iff.mp found
  have spelledOther := (upper_eq_of_sameIgnoringCase same).symm.trans spelled
  obtain ⟨mainFree, mainClosed, tokens⟩ := main_append_keyword free closed ends spelled
  obtain ⟨otherFree, otherClosed, otherTokens⟩ := main_append_keyword free closed ends spelledOther
  rw [reads_append_iff mainFree mainClosed follows, tokens] at h
  rw [reads_append_iff otherFree otherClosed follows, otherTokens]
  exact h

theorem Reads.operator {main : List Char} {make : Condition → Statement} {reserved : String}
    (free : Free (· == '(') false main) (closed : Closed main)
    (head : ConditionHead (Token.ofWords (words main)) make) (some : before ≠ [])
    (follows : FollowsWord before) (place : Condition.IsPlace before after)
    (mem : reserved ∈ conditionWords) (spelled : upper word = reserved.toList)
    (same : sameIgnoringCase word other = true) (h : Reads (main ++ (before ++ word ++ after)) s) :
    Reads (main ++ (before ++ other ++ after)) s := by
  have spelledOther := (upper_eq_of_sameIgnoringCase same).symm.trans spelled
  have starts : ∀ word, FollowsWord (before ++ word ++ after) := by
    intro word c head
    rw [List.append_assoc, List.head?_append_of_ne_nil _ some] at head
    exact follows c head
  rw [reads_condition_iff head free closed (starts word)] at h
  rw [reads_condition_iff head free closed (starts other)]
  obtain ⟨condition, compiled, made⟩ := h
  exact ⟨condition,
    (Condition.compile_operator place mem spelled spelledOther condition).mp compiled, made⟩

end Step

/-- A run of white space stands on one side of the final semicolon. -/
theorem cases_of_run {before run after body tail : List Char} (white : ∀ c ∈ run, isBlank c = true)
    (same : before ++ run ++ after = body ++ ';' :: tail) :
    (∃ rest, after = rest ++ ';' :: tail ∧ body = before ++ run ++ rest) ∨
      ∃ rest, before = body ++ ';' :: rest ∧ tail = rest ++ run ++ after := by
  have noEnd : ';' ∉ run := fun mem => absurd (white _ mem) (by decide)
  rcases List.append_eq_append_iff.mp same with ⟨rest, inBody, rfl⟩ | ⟨cut, inBefore, split⟩
  · exact .inl ⟨rest, rfl, inBody⟩
  · cases cut with
    | nil => exact .inl ⟨[], split.symm, by rw [List.append_nil, inBefore, List.append_nil]⟩
    | cons c more =>
      cases split
      rcases List.append_eq_append_iff.mp inBefore with ⟨_, -, rfl⟩ | ⟨rest, rfl, split⟩
      · simp at noEnd
      · cases rest with
        | nil =>
          rw [List.nil_append] at split
          simp [← split] at noEnd
        | cons d rest =>
          cases split
          exact .inr ⟨rest, rfl, rfl⟩

/-- One change of layout or letter case leaves the statement that is read. -/
theorem parse_of_restyling {text other : List Char} {s : Statement} (step : Restyling text other)
    (h : parse (String.ofList text) = .ok s) : parse (String.ofList other) = .ok s := by
  cases step with
  | @run before run other after closed isRun isOther =>
    obtain ⟨body, tail, ending, same⟩ := exists_body_of_parse h
    rw [String.toList_ofList] at same
    rw [same, parse_eq_ok_iff ending] at h
    rcases cases_of_run isRun.white same with ⟨rest, rfl, rfl⟩ | ⟨rest, rfl, rfl⟩
    · rw [← List.append_assoc, parse_eq_ok_iff ending]
      refine h.of_words ?_
      rw [words_append_run closed isRun.some isRun.white,
        words_append_run closed isOther.some isOther.white]
    · rw [List.forall_mem_append, List.forall_mem_append] at ending
      have otherEnding : ∀ c ∈ rest ++ other ++ after, isBlank c = true := by
        rw [List.forall_mem_append, List.forall_mem_append]
        exact ⟨⟨ending.1.1, isOther.white⟩, ending.2⟩
      rw [List.append_assoc, List.append_assoc, List.cons_append, ← List.append_assoc rest,
        parse_eq_ok_iff otherEnding]
      exact h
  | @start blanks text white =>
    obtain ⟨body, tail, ending, same⟩ := exists_body_of_parse h
    rw [String.toList_ofList] at same
    rw [same, parse_eq_ok_iff ending] at h
    rw [same, ← List.append_assoc, parse_eq_ok_iff ending]
    exact h.of_words (words_append_of_blank white body).symm
  | @beforeEnd body blanks tail white ending =>
    rw [parse_eq_ok_iff ending] at h ⊢
    exact h.of_words (words_append_blanks h.closed white).symm
  | @afterEnd blanks text white =>
    obtain ⟨body, tail, ending, same⟩ := exists_body_of_parse h
    rw [String.toList_ofList] at same
    rw [same, parse_eq_ok_iff ending] at h
    have otherEnding : ∀ c ∈ tail ++ blanks, isBlank c = true :=
      List.forall_mem_append.mpr ⟨ending, white⟩
    rw [same, List.append_assoc, List.cons_append, parse_eq_ok_iff otherEnding]
    exact h
  | @keyword before word other after tail _ free closed ends follows found same white =>
    rw [parse_eq_ok_iff white] at h ⊢
    exact h.keyword free closed ends follows found same
  | @operator main before word other after tail _ _ free closed head some follows place mem spelled
      same white =>
    rw [parse_eq_ok_iff white] at h ⊢
    exact h.operator free closed head some follows place mem spelled same

/-- Layout and letter case do not matter: whatever is changed in them, one thing after the other, the
same statement is read. -/
theorem parse_restyled {text other : String} {s : Statement} (h : parse text = .ok s)
    (steps : Relation.ReflTransGen Restyling text.toList other.toList) : parse other = .ok s := by
  have chars : ∀ final, Relation.ReflTransGen Restyling text.toList final →
      parse (String.ofList final) = .ok s := by
    intro final steps
    induction steps with
    | refl => rwa [String.ofList_toList]
    | tail _ step ih => exact parse_of_restyling step ih
  have last := chars _ steps
  rwa [String.ofList_toList] at last

theorem parse_restyled_delete : ∃ s, parse "DELETE FROM t WHERE (a=1)and(b=' x');" = .ok s ∧
    parse "delete FROM\u00A0\n t WHERE (a=1)AND(b=' x') ;" = .ok s := by
  have read : parse "DELETE FROM t WHERE (a=1)and(b=' x');" =
      .ok (.table (.delete "t" ⟨[.operand "a", .operand "1", .operator .equal, .operand "b",
        .operand "' x'", .operator .equal, .operator .and]⟩)) := by
    decide +kernel
  have valid : IsName "t" := by
    show validateName "t" = .ok ()
    decide +kernel
  have keyword : Restyling "DELETE FROM t WHERE (a=1)and(b=' x');".toList
      "delete FROM t WHERE (a=1)and(b=' x');".toList := by
    simpa using @Restyling.keyword [] "DELETE".toList "delete".toList
      " FROM t WHERE (a=1)and(b=' x')".toList [] .delete trivial rfl nofun (by rintro _ ⟨⟩; decide)
      (by decide +kernel) (by decide) nofun
  have run : Restyling "delete FROM t WHERE (a=1)and(b=' x');".toList
      "delete FROM\u00A0\n t WHERE (a=1)and(b=' x');".toList := by
    simpa using @Restyling.run "delete FROM".toList [' '] ['\u00A0', '\n', ' ']
      "t WHERE (a=1)and(b=' x');".toList (closed_of_plain (by decide))
      ⟨by decide, forall_of_all (by decide)⟩ ⟨by decide, forall_of_all (by decide)⟩
  have head : ConditionHead (Token.ofWords (words "delete FROM\u00A0\n t WHERE".toList))
      fun condition => .table (.delete "t" condition) := by
    have tokens : Token.ofWords (words "delete FROM\u00A0\n t WHERE".toList) =
        [.keyword .delete, .keyword .fromClause, .word "t", .keyword .whereClause] := by
      decide +kernel
    rw [tokens]
    exact .delete valid
  have operator : Restyling "delete FROM\u00A0\n t WHERE (a=1)and(b=' x');".toList
      "delete FROM\u00A0\n t WHERE (a=1)AND(b=' x');".toList := by
    simpa using @Restyling.operator "delete FROM\u00A0\n t WHERE".toList " (a=1)".toList
      "and".toList "AND".toList "(b=' x')".toList [] _ "AND"
      ((free_iff_of_plain (by decide)).mpr (forall_of_all (by decide)))
      (closed_of_plain (by decide)) head (by decide) (by rintro _ ⟨⟩; decide)
      ⟨closed_of_plain (by decide), by rintro _ ⟨⟩; decide +kernel,
        by rintro _ ⟨⟩; decide +kernel⟩
      (by decide) (by decide) (by decide) nofun
  have beforeEnd : Restyling "delete FROM\u00A0\n t WHERE (a=1)AND(b=' x');".toList
      "delete FROM\u00A0\n t WHERE (a=1)AND(b=' x') ;".toList := by
    simpa using @Restyling.beforeEnd "delete FROM\u00A0\n t WHERE (a=1)AND(b=' x')".toList [' '] []
      (forall_of_all (by decide)) nofun
  exact ⟨_, read, parse_restyled read ((((Relation.ReflTransGen.single keyword).tail run).tail
    operator).tail beforeEnd)⟩

end Statement

end TabStore
