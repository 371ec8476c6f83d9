import TabStore.Proofs.Items.Layout
import TabStore.Proofs.Statement.Cut

/-!
# Statements and their layout

White space is dropped, skipped or put back in several places: around the text of a statement,
between the words of its main clause, in lists, and in conditions. All these places agree on what a
word is, so a statement is read from the words in front of the final semicolon, whatever white space
stands between them.

Results:
1. `Condition.compile_of_words`: texts with the same words are compiled alike;
2. `Reads.of_words`: what a text is read as depends on its words alone;
3. `parse_eq_ok_iff`, `exists_body_of_parse`: a statement is read from what stands in front of the
   final semicolon, and only white space stands behind it;
4. `reads_condition_iff`: the condition of a statement is compiled from the text behind WHERE,
   wherever in the main clause or the list that text is cut.
-/

namespace TabStore

open Text

/-! ## Conditions -/

theorem Condition.compile_of_words {text other : String}
    (same : words text.toList = words other.toList) (condition : Condition) :
    compile text = .ok condition ↔ compile other = .ok condition := by
  have bothClosed := closed_iff_of_words same
  refine compile_congr (fun found _ => ?_) condition
  by_cases closed : Closed text.toList
  · rw [read_eq_readWords closed, read_eq_readWords (bothClosed.mp closed), same]
  · exact iff_of_false (fun read => closed (closed_of_read read))
      fun read => closed (bothClosed.mpr (closed_of_read read))

theorem Condition.closed_of_compile {text : String} {condition : Condition}
    (h : compile text = .ok condition) : Closed text.toList := by
  obtain ⟨found, read, -⟩ := compile_eq_ok.mp h
  exact closed_of_read read

namespace Statement

/-- Tokens in whose texts every literal ends. -/
def AreClosed (tokens : List Token) : Prop := ∀ token ∈ tokens, Closed token.display.toList

section Tokens

variable {tokens : List Token} {list other : String}

theorem areClosed_ofWords {text : List Char} (closed : Closed text) :
    AreClosed (Token.ofWords (words text)) := by
  intro token mem
  obtain ⟨word, found, rfl⟩ := List.mem_map.mp mem
  exact (isWord_of_mem_respelled closed _ (List.mem_map_of_mem found)).closed

theorem closed_joined (closed : AreClosed tokens) :
    Closed (" ".intercalate (tokens.map Token.display)).toList := by
  have blank : ' ' ≠ '\'' := by decide
  rw [String.toList_intercalate]
  refine closed_intercalate blank fun piece mem => ?_
  obtain ⟨text, found, rfl⟩ := List.mem_map.mp mem
  obtain ⟨token, present, rfl⟩ := List.mem_map.mp found
  exact closed token present

theorem toList_rejoined (tokens : List Token) (list : String) :
    (rejoined tokens (some list)).toList =
      if (" ".intercalate (tokens.map Token.display)).isEmpty then list.toList
      else (" ".intercalate (tokens.map Token.display)).toList ++ ' ' :: list.toList := by
  unfold rejoined
  dsimp only
  split
  · rfl
  · simp

theorem words_rejoined (closed : AreClosed tokens) (same : words list.toList = words other.toList) :
    words (rejoined tokens (some list)).toList = words (rejoined tokens (some other)).toList := by
  rw [toList_rejoined, toList_rejoined]
  split
  · exact same
  · rw [words_append_cons (closed_joined closed) isBlank_space,
      words_append_cons (closed_joined closed) isBlank_space, same]

theorem closed_of_rejoined (closed : AreClosed tokens)
    (h : Closed (rejoined tokens (some list)).toList) : Closed list.toList := by
  rw [toList_rejoined] at h
  split at h
  · exact h
  · rwa [Closed, openAtEnd_append, closed_joined closed] at h

end Tokens

/-! ## Statements -/

/-- No list on both sides, or lists with the same words. -/
def HaveSameWords : Option String → Option String → Prop
  | none, none => True
  | some list, some other => words list.toList = words other.toList
  | _, _ => False

namespace Spells

variable {tokens : List Token} {s : Statement}

theorem of_words {list other : Option String} (h : Spells tokens list s)
    (closed : AreClosed tokens) (same : HaveSameWords list other) : Spells tokens other s := by
  match list, other, same with
  | none, none, _ => exact h
  | some list, some other, same =>
    cases h with
    | createTableOf valid read =>
      rw [Items.attributes_eq_enclosedItems] at read
      exact .createTableOf valid (Items.enclosedItems_of_words same read)
    | insert valid read =>
      rw [Items.values_eq_enclosedItems] at read
      exact .insert valid (Items.enclosedItems_of_words same read)
    | condition head compiled =>
      have later := words_rejoined (fun token mem => closed token (List.mem_append_right _ mem)) same
      exact .condition head ((Condition.compile_of_words later _).mp compiled)

theorem closed_list {list : String} (h : Spells tokens (some list) s) (closed : AreClosed tokens) :
    Closed list.toList := by
  cases h with
  | createTableOf valid read =>
    rw [Items.attributes_eq_enclosedItems] at read
    exact Items.closed_of_enclosedItems read
  | insert valid read =>
    rw [Items.values_eq_enclosedItems] at read
    exact Items.closed_of_enclosedItems read
  | condition head compiled =>
    exact closed_of_rejoined (fun token mem => closed token (List.mem_append_right _ mem))
      (Condition.closed_of_compile compiled)

end Spells

/-- The list of a statement: what is left of its text from the first parenthesis on. -/
def listOf? (rest : List Char) : Option String :=
  if rest.isEmpty then none else some (String.ofList rest)

/-- A statement is read from a text, in front of the final semicolon. -/
def Reads (body : List Char) (s : Statement) : Prop :=
  let cut := breakUnquoted (· == '(') false body
  Closed cut.1 ∧ Spells (Token.ofWords (words cut.1)) (listOf? cut.2) s

theorem words_opening (rest : List Char) : words ('(' :: rest) ≠ [] := by
  intro none
  have nothing := flatten_words ('(' :: rest)
  rw [none] at nothing
  cases nothing

/-- What is left of a text is nothing or starts with a parenthesis. -/
theorem rest_cases (text : List Char) : (breakUnquoted (· == '(') false text).2 = [] ∨
    ∃ rest, (breakUnquoted (· == '(') false text).2 = '(' :: rest := by
  rcases free_or_exists_separator (· == '(') false text with
    free | ⟨front, c, rest, rfl, free, closed, opening⟩
  · exact .inl (by rw [breakUnquoted_of_free free])
  · cases eq_of_beq opening
    exact .inr ⟨rest, by rw [breakUnquoted_append_cons free closed opening]⟩

theorem haveSameWords_listOf? {body other : List Char}
    (same : words (breakUnquoted (· == '(') false body).2 =
      words (breakUnquoted (· == '(') false other).2) :
    HaveSameWords (listOf? (breakUnquoted (· == '(') false body).2)
      (listOf? (breakUnquoted (· == '(') false other).2) := by
  rcases rest_cases body with left | ⟨left, cutLeft⟩
  · rcases rest_cases other with right | ⟨right, cutRight⟩
    · rw [left, right]
      trivial
    · rw [left, cutRight] at same
      exact absurd same.symm (words_opening right)
  · rcases rest_cases other with right | ⟨right, cutRight⟩
    · rw [cutLeft, right] at same
      exact absurd same (words_opening left)
    · rw [cutLeft, cutRight] at same ⊢
      show words (String.ofList _).toList = words (String.ofList _).toList
      rwa [String.toList_ofList, String.toList_ofList]

namespace Reads

variable {body other : List Char} {s : Statement}

theorem closed (h : Reads body s) : Closed body := by
  obtain ⟨closedMain, spells⟩ := h
  have whole := breakUnquoted_append (· == '(') false body
  cases rest : (breakUnquoted (· == '(') false body).2 with
  | nil =>
    rw [rest, List.append_nil] at whole
    rwa [whole] at closedMain
  | cons c tail =>
    rw [rest] at spells whole
    have listed : Closed (c :: tail) := by
      simpa using spells.closed_list (areClosed_ofWords closedMain)
    rw [← whole]
    exact closedMain.append listed

/-- What a text is read as depends on its words alone. -/
theorem of_words (h : Reads body s) (same : words body = words other) : Reads other s := by
  obtain ⟨mains, lists⟩ := words_breakUnquoted_congr (p := (· == '('))
    (fun _ => ne_opening_of_isBlank) h.closed same
  obtain ⟨closedMain, spells⟩ := h
  refine ⟨(closed_iff_of_words mains).mp closedMain, ?_⟩
  rw [← mains]
  exact spells.of_words (areClosed_ofWords closedMain) (haveSameWords_listOf? lists)

theorem trim_iff : Reads (trim body) s ↔ Reads body s := by
  constructor
  · intro h
    exact h.of_words (words_trim (closed_trim.mp h.closed))
  · intro h
    exact h.of_words (words_trim h.closed).symm

theorem trim_ne_nil (h : Reads body s) : trim body ≠ [] := by
  intro nothing
  rw [← trim_iff, nothing] at h
  cases statement_of_spells h.2

end Reads

theorem takeWhile_ofWords (words : List (List Char)) :
    (Token.ofWords words ++ [Token.endMark]).takeWhile (· != Token.endMark) =
      Token.ofWords words := by
  have goesOn : ∀ token ∈ Token.ofWords words, (token != Token.endMark) = true := by
    intro token mem
    obtain ⟨word, -, rfl⟩ := List.mem_map.mp mem
    exact bne_iff_ne.mpr (Token.ofWord_ne_endMark _)
  rw [List.takeWhile_append_of_pos goesOn]
  exact List.append_nil _

theorem read_eq_ok_iff {main : List Char} {list : Option String} {s : Statement} :
    (Token.tokenize (String.ofList main) >>= fun tokens => ofTokens tokens list) = .ok s ↔
      Closed main ∧ Spells (Token.ofWords (words main)) list s := by
  rw [bind_eq_ok]
  simp only [Token.tokenize_eq_ok, String.toList_ofList]
  constructor
  · rintro ⟨_, ⟨closed, rfl⟩, read⟩
    rw [ofTokens_eq_ok_iff, takeWhile_ofWords] at read
    exact ⟨closed, read⟩
  · rintro ⟨closed, spells⟩
    refine ⟨_, ⟨closed, rfl⟩, ?_⟩
    rwa [ofTokens_eq_ok_iff, takeWhile_ofWords]

theorem ofBody_eq_ok_iff {body : List Char} {s : Statement} :
    (Token.tokenize (Source.ofBody body).main >>= fun tokens =>
      ofTokens tokens (Source.ofBody body).list) = .ok s ↔ Reads body s := by
  have whole := breakUnquoted_append (· == '(') false body
  unfold Source.ofBody Reads
  split
  · next main noList =>
    rw [noList] at whole ⊢
    rw [← whole, List.append_nil]
    exact read_eq_ok_iff
  · next main list other cut =>
    have some : ¬ list.isEmpty = true := by simpa using other
    rw [cut]
    dsimp only
    rw [Token.tokenize_trimEnd, read_eq_ok_iff, listOf?, if_neg some]

/-- A statement is read from what stands in front of the final semicolon. -/
theorem parse_eq_ok_iff {body tail : List Char} (white : ∀ c ∈ tail, isBlank c = true)
    {s : Statement} : parse (String.ofList (body ++ ';' :: tail)) = .ok s ↔ Reads body s := by
  rw [parse, Source.ofText_append_blanks white]
  by_cases nothing : trim body = []
  · refine iff_of_false (fun read => ?_) fun read => read.trim_ne_nil nothing
    obtain ⟨source, cut, -⟩ := bind_eq_ok.mp read
    rw [Source.ofText, String.toList_ofList,
      Source.trimEnd_append_semicolon body (List.forall_mem_nil _)] at cut
    simp [Source.dropTerminator, nothing] at cut
  · rw [Source.ofText_append_semicolon nothing rfl, ok_bind, ofBody_eq_ok_iff, Reads.trim_iff]

theorem exists_body_of_parse {text : String} {s : Statement} (h : parse text = .ok s) :
    ∃ body tail, (∀ c ∈ tail, isBlank c = true) ∧ text.toList = body ++ ';' :: tail := by
  obtain ⟨source, cut, -⟩ := bind_eq_ok.mp h
  obtain ⟨body, tail, white, same, -⟩ := Source.exists_of_ofText cut
  exact ⟨body, tail, white, same⟩

/-! ## Behind the main clause -/

/-- A text that can follow a word of a main clause: it starts with white space or with the list, or
it is empty. -/
def FollowsWord (text : List Char) : Prop :=
  ∀ c, text.head? = some c → isBlank c = true ∨ c = '('

theorem FollowsWord.startsBlank {text : List Char} (follows : FollowsWord text) :
    StartsBlank (breakUnquoted (· == '(') false text).1 := by
  intro c head
  have free := free_breakUnquoted (· == '(') false text
  have whole := breakUnquoted_append (· == '(') false text
  cases front : (breakUnquoted (· == '(') false text).1 with
  | nil =>
    rw [front] at head
    cases head
  | cons d rest =>
    rw [front] at head free whole
    cases head
    refine (follows c (by rw [← whole]; rfl)).resolve_right ?_
    rintro rfl
    exact absurd (free.1 rfl) (by decide)

section Cut

variable {main rest : List Char} {s : Statement}

theorem breakUnquoted_main (free : Free (· == '(') false main) (closed : Closed main)
    (rest : List Char) : breakUnquoted (· == '(') false (main ++ rest) =
      (main ++ (breakUnquoted (· == '(') false rest).1, (breakUnquoted (· == '(') false rest).2) := by
  rw [breakUnquoted_append_of_free free, closed]

/-- Behind a main clause that ends with a whole word, the tokens of the rest follow. -/
theorem reads_append_iff (free : Free (· == '(') false main) (closed : Closed main)
    (follows : FollowsWord rest) : Reads (main ++ rest) s ↔
      Closed (breakUnquoted (· == '(') false rest).1 ∧
        Spells (Token.ofWords (words main) ++
            Token.ofWords (words (breakUnquoted (· == '(') false rest).1))
          (listOf? (breakUnquoted (· == '(') false rest).2) s := by
  have apart : openAtEnd false (main ++ (breakUnquoted (· == '(') false rest).1) =
      openAtEnd false (breakUnquoted (· == '(') false rest).1 := by
    rw [openAtEnd_append, closed]
  rw [Reads, breakUnquoted_main free closed]
  dsimp only
  rw [Closed, apart, words_append_of_startsBlank closed follows.startsBlank, Token.ofWords,
    List.map_append]
  rfl

theorem isCut_breakUnquoted (text : List Char) :
    IsCut text (breakUnquoted (· == '(') false text).1
      (listOf? (breakUnquoted (· == '(') false text).2) := by
  rcases free_or_exists_separator (· == '(') false text with
    free | ⟨front, c, rest, rfl, free, closed, opening⟩
  · rw [breakUnquoted_of_free free]
    exact .whole text
  · cases eq_of_beq opening
    rw [breakUnquoted_append_cons free closed opening]
    exact .list rest closed

/-- A statement with a condition is read exactly if the condition is compiled from what stands
behind WHERE. -/
theorem reads_condition_iff {make : Condition → Statement}
    (head : ConditionHead (Token.ofWords (words main)) make)
    (free : Free (· == '(') false main) (closed : Closed main) (follows : FollowsWord rest) :
    Reads (main ++ rest) s ↔
      ∃ condition, Condition.compile (String.ofList rest) = .ok condition ∧ make condition = s := by
  have cut := isCut_breakUnquoted rest
  rw [reads_append_iff free closed follows]
  generalize (breakUnquoted (· == '(') false rest).1 = front at cut ⊢
  generalize listOf? (breakUnquoted (· == '(') false rest).2 = list at cut ⊢
  have compiled : Closed front → ∀ condition,
      Condition.compile (rejoined (Token.ofWords (words front)) list) = .ok condition ↔
        Condition.compile (String.ofList rest) = .ok condition := by
    intro frontClosed condition
    refine Condition.compile_congr (fun found fit => ?_) condition
    rw [read_rejoined cut frontClosed fit, String.toList_ofList]
  constructor
  · rintro ⟨frontClosed, spells⟩
    have read := statement_of_spells spells
    rw [head.reads] at read
    obtain ⟨⟨condition, left⟩, found, same⟩ := except_map_eq_ok.mp read
    cases same
    exact ⟨condition, (compiled frontClosed condition).mp (Reader.condition_eq_ok.mp found).1, rfl⟩
  · rintro ⟨condition, found, rfl⟩
    have restClosed := Condition.closed_of_compile found
    rw [String.toList_ofList] at restClosed
    have frontClosed := cut.closed_front restClosed
    exact ⟨frontClosed, .condition head ((compiled frontClosed condition).mpr found)⟩

end Cut

end Statement

end TabStore
