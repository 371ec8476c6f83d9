import TabStore.Proofs.Statement.Where
import TabStore.Proofs.Text.Pieces

/-!
# The cut between main clause and list

The text of a statement is cut before its first unquoted parenthesis, before its main clause is cut
into words. The two scanners keep track of literals in their own ways, one over the whole body, the
other within each word. Here the cut is described by the body alone; nothing but white space gets
lost at it, and behind it every literal of the main clause has ended.

Results:
1. `ofText_eq_ok`, `ofBody_eq_iff`: a text is cut if it has a body, into the main clause and the list
   of that body;
2. `ofText_uncut`: put together again, both are cut at the same place;
3. `exists_tokens`, `tokenize_eq_error_iff`: a main clause has tokens if its quotes are even, as they
   are in front of a list, and is refused if they are odd;
4. `ofText_lossless`: all this of every text that is cut.
-/

namespace TabStore

open Text

/-- A text that neither starts nor ends with white space. -/
structure Text.IsTrimmed (text : List Char) : Prop where
  first : ∀ c, text.head? = some c → isBlank c = false
  last : ∀ c, text.getLast? = some c → isBlank c = false

theorem Text.ne_opening_of_isBlank {c : Char} (blank : isBlank c = true) : (c == '(') = false := by
  rw [beq_eq_false_iff_ne]
  rintro rfl
  exact absurd blank (by decide)

namespace Source

/-- What a text holds in front of its final semicolon, without the white space around it. -/
structure IsBody (text body : List Char) : Prop where
  some : body ≠ []
  trimmed : IsTrimmed body
  exists_blanks : ∃ before behind after, (∀ c ∈ before, isBlank c = true) ∧
    (∀ c ∈ behind, isBlank c = true) ∧ (∀ c ∈ after, isBlank c = true) ∧
    text = before ++ body ++ behind ++ ';' :: after

/-- A main clause and a list that stand in a body one behind the other, with white space between
them. Only the list may have parentheses outside of literals: in the main clause, an odd number of
quotes stands in front of each. -/
structure IsCutFrom (source : Source) (body : List Char) : Prop where
  exists_gap : ∃ gap, (∀ c ∈ gap, isBlank c = true) ∧
    body = source.main.toList ++ gap ++ (source.list.getD "").toList
  main : IsTrimmed source.main.toList
  quoted : ∀ left right, source.main.toList = left ++ '(' :: right → Odd (left.count '\'')
  list : ∀ list, source.list = some list → IsTrimmed list.toList ∧ ∃ rest, list.toList = '(' :: rest
  balanced : source.list ≠ none → Even (source.main.toList.count '\'')

/-! ## The body of a text -/

theorem ofText_append_blanks {body after : List Char} (white : ∀ c ∈ after, isBlank c = true) :
    ofText (String.ofList (body ++ ';' :: after)) = ofText (String.ofList (body ++ [';'])) := by
  unfold ofText
  dsimp only
  rw [String.toList_ofList, String.toList_ofList, trimEnd_append_semicolon body white,
    trimEnd_append_semicolon body (List.forall_mem_nil _)]

theorem exists_of_ofText {text : String} {source : Source} (cut : ofText text = .ok source) :
    ∃ front after, (∀ c ∈ after, isBlank c = true) ∧ text.toList = front ++ ';' :: after ∧
      trim front ≠ [] ∧ source = ofBody (trim front) := by
  obtain ⟨after, white, same⟩ := trimEnd_append text.toList
  unfold ofText at cut
  dsimp only at cut
  split at cut
  · cases cut
  · split at cut
    · cases cut
    · next front terminated =>
      unfold dropTerminator at terminated
      split at terminated
      · next last =>
        obtain ⟨begin, trimmed⟩ := List.getLast?_eq_some_iff.mp last
        rw [trimmed, List.dropLast_concat, Option.some.injEq] at terminated
        rw [trimmed, terminated, List.append_assoc, List.singleton_append] at same
        split at cut
        · cases cut
        · next notEmpty =>
          cases cut
          exact ⟨front, after, white, same, by simpa using notEmpty, rfl⟩
      · cases terminated

theorem ofText_eq_ok {text : String} {source : Source} : ofText text = .ok source ↔
    ∃ body, IsBody text.toList body ∧ source = ofBody body := by
  constructor
  · intro cut
    obtain ⟨front, after, white, same, notEmpty, rfl⟩ := exists_of_ofText cut
    obtain ⟨before, behind, whiteBefore, whiteBehind, whole⟩ := exists_trim front
    refine ⟨trim front, ⟨notEmpty, ⟨(ends_trim front).1, (ends_trim front).2⟩, ?_⟩, rfl⟩
    exact ⟨before, behind, after, whiteBefore, whiteBehind, white, by rw [← whole, same]⟩
  · rintro ⟨body, ⟨notEmpty, trimmed, before, behind, after, white, white', white'', same⟩, rfl⟩
    rw [← String.ofList_toList (s := text), same, ofText_append_blanks white'']
    exact ofText_append_semicolon notEmpty (trim_of_blanks white white' trimmed.first trimmed.last)

/-! ## The cut -/

theorem isTrimmed_trimEnd {front back : List Char} (trimmed : IsTrimmed (front ++ back)) :
    IsTrimmed (trimEnd front) := by
  refine ⟨fun c head => trimmed.first c ?_, fun c last => ?_⟩
  · obtain ⟨rest, -, whole⟩ := trimEnd_append front
    rw [whole, List.head?_append, List.head?_append, head]
    rfl
  · rw [trimEnd, List.getLast?_reverse] at last
    exact head?_dropWhile last

theorem isCutFrom_ofBody {body : List Char} (trimmed : IsTrimmed body) :
    IsCutFrom (ofBody body) body := by
  rcases free_or_exists_separator (· == '(') false body with
    free | ⟨front, c, rest, rfl, free, closed, opening⟩
  · rw [ofBody, breakUnquoted_of_free free]
    refine ⟨⟨[], List.forall_mem_nil _, ?_⟩, ?_, fun left right same => ?_,
      fun list absent => ?_, fun some => absurd rfl some⟩
    · simp
    · rwa [String.toList_ofList]
    · rw [String.toList_ofList] at same
      exact free_iff_odd.mp free left '(' right same rfl
    · cases absent
  · cases eq_of_beq opening
    obtain ⟨gap, white, whole⟩ := trimEnd_append front
    rw [ofBody, breakUnquoted_append_cons free closed opening]
    refine ⟨⟨gap, white, ?_⟩, ?_, fun left right same => ?_, ?_, fun _ => ?_⟩
    · simp [← whole]
    · rw [String.toList_ofList]
      exact isTrimmed_trimEnd trimmed
    · rw [String.toList_ofList] at same
      rw [whole, same, List.append_assoc] at free
      exact free_iff_odd.mp free left '(' (right ++ gap) rfl rfl
    · rintro _ ⟨⟩
      rw [String.toList_ofList]
      refine ⟨⟨?_, fun c last => trimmed.last c ?_⟩, rest, rfl⟩
      · rintro _ ⟨⟩
        decide
      · rw [List.getLast?_append, last]
        rfl
    · rw [String.toList_ofList, ← closed_iff_even, Closed, openAtEnd_trimEnd]
      exact closed

/-- Where there is no list, the main clause is the whole body. -/
theorem IsCutFrom.main_eq {source : Source} {body : List Char} (cut : IsCutFrom source body)
    (trimmed : IsTrimmed body) (noList : source.list = none) : source.main.toList = body := by
  obtain ⟨gap, white, same⟩ := cut.exists_gap
  rw [noList, Option.getD_none, String.toList_empty, List.append_nil] at same
  rcases List.eq_nil_or_concat' gap with rfl | ⟨front, c, rfl⟩
  · rw [same, List.append_nil]
  · have blank : isBlank c = false := trimmed.last c (by rw [same, ← List.append_assoc]; simp)
    rw [white c (by simp)] at blank
    cases blank

theorem ofBody_eq_iff {source : Source} {body : List Char} (trimmed : IsTrimmed body) :
    ofBody body = source ↔ IsCutFrom source body := by
  refine ⟨fun same => same ▸ isCutFrom_ofBody trimmed, fun cut => ?_⟩
  have whole := cut.main_eq trimmed
  obtain ⟨main, list⟩ := source
  have free : Free (· == '(') false main.toList := free_iff_odd.mpr fun left c right same opening =>
    cut.quoted left right (eq_of_beq opening ▸ same)
  cases list with
  | none =>
    rw [← whole rfl, ofBody, breakUnquoted_of_free free]
    dsimp only
    rw [String.ofList_toList]
  | some list =>
    have closed : Closed main.toList := closed_iff_even.mpr (cut.balanced (Option.some_ne_none list))
    obtain ⟨gap, white, same⟩ := cut.exists_gap
    obtain ⟨-, rest, starts⟩ := cut.list list rfl
    have plain : '\'' ∉ gap := fun mem => absurd (white _ mem) (by decide)
    have freeGap : Free (· == '(') false gap :=
      (free_iff_of_plain plain).mpr fun c mem => ne_opening_of_isBlank (white c mem)
    have trimmedMain : trimEnd (main.toList ++ gap) = main.toList := by
      rw [trimEnd_append_of_last cut.main.last, trimEnd_of_blank white, List.append_nil]
    rw [Option.getD_some, starts] at same
    rw [same, ofBody, breakUnquoted_append_cons (Free.append closed free freeGap)
      (closed.append (closed_of_plain plain)) rfl]
    dsimp only
    rw [trimmedMain, ← starts, String.ofList_toList, String.ofList_toList]

/-! ## The same cut again -/

/-- Without the white space between them, the main clause and the list are cut apart at the same
place. -/
theorem IsCutFrom.uncut {source : Source} {body : List Char} (cut : IsCutFrom source body) :
    IsCutFrom source (source.main.toList ++ (source.list.getD "").toList) :=
  ⟨⟨[], nofun, by simp⟩, cut.main, cut.quoted, cut.list, cut.balanced⟩

theorem IsCutFrom.isTrimmed_uncut {source : Source} {body : List Char}
    (cut : IsCutFrom source body) :
    IsTrimmed (source.main.toList ++ (source.list.getD "").toList) := by
  obtain ⟨main, list⟩ := source
  cases list with
  | none => simpa using cut.main
  | some list =>
    obtain ⟨ends, rest, starts⟩ := cut.list list rfl
    have some : list.toList ≠ [] := by simp [starts]
    refine ⟨fun c head => ?_, fun c last => ends.last c ?_⟩
    · cases front : main.toList with
      | nil => exact ends.first c (by simpa [front] using head)
      | cons d more => exact cut.main.first c (by simpa [front] using head)
    · rwa [Option.getD_some, List.getLast?_append_of_ne_nil _ some] at last

theorem ofText_uncut {source : Source} {body : List Char} (cut : IsCutFrom source body)
    (some : body ≠ []) (trimmed : IsTrimmed body) :
    ofText (source.main ++ source.list.getD "" ++ ";") = .ok source := by
  have uncutTrimmed := cut.isTrimmed_uncut
  have uncut := (ofBody_eq_iff uncutTrimmed).mpr cut.uncut
  refine ofText_eq_ok.mpr ⟨_, ⟨?_, uncutTrimmed, ?_⟩, uncut.symm⟩
  · intro nothing
    obtain ⟨noMain, noList⟩ := List.append_eq_nil_iff.mp nothing
    cases listed : source.list with
    | none => exact some (cut.main_eq trimmed listed ▸ noMain)
    | some list =>
      obtain ⟨-, rest, starts⟩ := cut.list list listed
      rw [listed, Option.getD_some, starts] at noList
      cases noList
  · exact ⟨[], [], [], nofun, nofun, nofun, by simp⟩

/-! ## Tokens of the main clause -/

theorem exists_tokens {text : String} (even : Even (text.toList.count '\'')) :
    ∃ tokens, Token.tokenize text = .ok tokens :=
  ⟨_, Token.tokenize_eq_ok.mpr ⟨closed_iff_even.mpr even, rfl⟩⟩

/-- A text has no tokens if its quotes are odd. -/
theorem tokenize_eq_error_iff {text : String} {e : Error} : Token.tokenize text = .error e ↔
    e = .unterminatedString ∧ Odd (text.toList.count '\'') := by
  constructor
  · intro refused
    by_cases even : Even (text.toList.count '\'')
    · obtain ⟨tokens, read⟩ := exists_tokens even
      rw [read] at refused
      cases refused
    · have isOpen := mt closed_iff_even.mp even
      rw [Token.tokenize_of_open ((Bool.not_eq_false _).mp isOpen)] at refused
      cases refused
      exact ⟨rfl, Nat.not_even_iff_odd.mp even⟩
  · rintro ⟨rfl, odd⟩
    have isOpen := mt closed_iff_even.mp (Nat.not_even_iff_odd.mpr odd)
    exact Token.tokenize_of_open ((Bool.not_eq_false _).mp isOpen)

/-- A text that is cut has a body, and the main clause and the list are that body without the white
space between them. They are cut again at the same place. In front of a list the main clause has
tokens; without a list it has them unless the quotes of the body are odd. -/
theorem ofText_lossless {text : String} {source : Source} (cut : ofText text = .ok source) :
    ∃ body, IsBody text.toList body ∧ IsCutFrom source body ∧
      ofText (source.main ++ source.list.getD "" ++ ";") = .ok source ∧
      (source.list ≠ none → ∃ tokens, Token.tokenize source.main = .ok tokens) ∧
      (source.list = none → source.main.toList = body ∧ ∀ e,
        Token.tokenize source.main = .error e ↔
          e = .unterminatedString ∧ Odd (body.count '\'')) := by
  obtain ⟨body, isBody, rfl⟩ := ofText_eq_ok.mp cut
  have isCut := isCutFrom_ofBody isBody.trimmed
  refine ⟨body, isBody, isCut, ofText_uncut isCut isBody.some isBody.trimmed,
    fun listed => exists_tokens (isCut.balanced listed), fun noList => ?_⟩
  have whole := isCut.main_eq isBody.trimmed noList
  refine ⟨whole, fun e => ?_⟩
  rw [tokenize_eq_error_iff, whole]

theorem ofText_lossless_of_quoted :
    ofText "\tINSERT INTO t VALUES \n('(a', 1) ; " = .ok ⟨"INSERT INTO t VALUES", some "('(a', 1)"⟩ ∧
      ofText "INSERT INTO t VALUES('(a', 1);" = .ok ⟨"INSERT INTO t VALUES", some "('(a', 1)"⟩ ∧
      (∃ tokens, Token.tokenize "INSERT INTO t VALUES" = .ok tokens) ∧
      ofText "USE 'a(b;" = .ok ⟨"USE 'a(b", none⟩ ∧
      Token.tokenize "USE 'a(b" = .error .unterminatedString := by
  have listed : ofText "\tINSERT INTO t VALUES \n('(a', 1) ; " =
      .ok ⟨"INSERT INTO t VALUES", some "('(a', 1)"⟩ := by decide +kernel
  have unlisted : ofText "USE 'a(b;" = .ok ⟨"USE 'a(b", none⟩ := by decide +kernel
  obtain ⟨_, -, -, again, tokens, -⟩ := ofText_lossless listed
  obtain ⟨_, -, -, -, -, whole⟩ := ofText_lossless unlisted
  obtain ⟨rfl, refused⟩ := whole rfl
  exact ⟨listed, again, tokens nofun, unlisted, (refused _).mpr ⟨rfl, by decide +kernel⟩⟩

end Source

end TabStore
