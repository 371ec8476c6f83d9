import TabStore.Proofs.Text.Pieces

/-!
# Words and the texts that they stand in

A text is told by its words and the white space around them. The scanner that cuts it reads from one
unquoted white space to the next; here its words are told by the text alone.

Results:
1. `isUnbroken_iff`: a single word, by the number of quotes in front of its white space;
2. `areWords_iff`: a text whose literals end has the words that the scanner finds, and no others.
-/

namespace TabStore.Text

/-- A text that is not empty, with an even number of quotes, and an odd number in front of each of
its white space characters. -/
structure IsUnbroken (text : List Char) : Prop where
  some : text ≠ []
  even : Even (text.count '\'')
  quoted : ∀ left c right, text = left ++ c :: right → isBlank c = true → Odd (left.count '\'')

theorem isUnbroken_iff {text : List Char} : IsUnbroken text ↔ IsWord text :=
  ⟨fun h => ⟨h.some, free_iff_odd.mpr h.quoted, closed_iff_even.mpr h.even⟩,
    fun h => ⟨h.some, closed_iff_even.mp h.closed, free_iff_odd.mp h.noBlank⟩⟩

/-- A text is these words in this order, with white space between them and any white space around
them. -/
inductive AreWords : List (List Char) → List Char → Prop
  | nil {blanks : List Char} : (∀ c ∈ blanks, isBlank c = true) → AreWords [] blanks
  | cons {blanks word rest : List Char} {words : List (List Char)} :
      (∀ c ∈ blanks, isBlank c = true) → IsUnbroken word → StartsBlank rest →
      AreWords words rest → AreWords (word :: words) (blanks ++ word ++ rest)

namespace AreWords

variable {found : List (List Char)} {text : List Char}

theorem cons_blank (h : AreWords found text) {c : Char} (blank : isBlank c = true) :
    AreWords found (c :: text) := by
  cases h with
  | nil white => exact .nil (List.forall_mem_cons.mpr ⟨blank, white⟩)
  | cons white unbroken starts later =>
    exact .cons (List.forall_mem_cons.mpr ⟨blank, white⟩) unbroken starts later

theorem closed_words (h : AreWords found text) : Closed text ∧ words text = found := by
  have plain : ∀ blanks : List Char, (∀ c ∈ blanks, isBlank c = true) → '\'' ∉ blanks :=
    fun _ white mem => absurd (white _ mem) (by decide)
  induction h with
  | @nil blanks white =>
    refine ⟨closed_of_plain (plain _ white), ?_⟩
    rw [← List.append_nil blanks, words_append_of_blank white, words_nil]
  | cons white unbroken starts _ ih =>
    have word := isUnbroken_iff.mp unbroken
    refine ⟨((closed_of_plain (plain _ white)).append word.closed).append ih.1, ?_⟩
    rw [List.append_assoc, words_append_of_blank white,
      words_append_of_startsBlank word.closed starts, words_of_free word.noBlank word.some, ih.2]
    rfl

end AreWords

/-- A text that starts with a word. -/
theorem areWords_cons {word rest : List Char} {found : List (List Char)} (h : IsWord word)
    (starts : StartsBlank rest) (later : AreWords found rest) :
    AreWords (word :: found) (word ++ rest) :=
  @AreWords.cons [] word rest found nofun (isUnbroken_iff.mpr h) starts later

theorem areWords_nil : AreWords [] [] := .nil nofun

theorem areWords_words {text : List Char} (closed : Closed text) : AreWords (words text) text := by
  induction text using piece_induction isBlank with
  | whole text free =>
    cases text with
    | nil => exact areWords_nil
    | cons c rest =>
      have some := List.cons_ne_nil c rest
      have only : AreWords [c :: rest] (c :: rest ++ []) :=
        areWords_cons ⟨some, free, closed⟩ nofun areWords_nil
      rwa [List.append_nil, ← words_of_free free some] at only
  | cut piece c rest free pieceClosed blank ih =>
    have later := (ih ((closed_append_blank pieceClosed blank).mp closed)).cons_blank blank
    rw [words_append_cons pieceClosed blank]
    cases piece with
    | nil => exact later
    | cons d more =>
      have some := List.cons_ne_nil d more
      have starts : StartsBlank (c :: rest) := by
        rintro _ ⟨⟩
        exact blank
      rw [words_of_free free some]
      exact areWords_cons ⟨some, free, pieceClosed⟩ starts later

/-- The words of a text are those that are found between its unquoted white space. -/
theorem areWords_iff {found : List (List Char)} {text : List Char} :
    AreWords found text ↔ Closed text ∧ words text = found := by
  refine ⟨AreWords.closed_words, ?_⟩
  rintro ⟨closed, rfl⟩
  exact areWords_words closed

end TabStore.Text
