import Mathlib.Data.List.Basic
import TabStore.Proofs.Text.Words

/-!
# White space between words

Texts with the same words differ only in the white space between them, and every scanner sees the
same in both.

Results:
1. `words_append_run`, `words_trim`: white space that separates words may be any white space, and
   there may be any at the ends;
2. `flatten_words`, `closed_iff_of_words`: texts with the same words are the same text once their
   unquoted white space is removed, and the literals of both end or those of neither;
3. `words_breakUnquoted_congr`: cut before their first separator, they have the same words on both
   sides of the cut.
-/

namespace TabStore.Text

variable {p : Char → Bool}

theorem breakUnquoted_append_of_free {isOpen : Bool} {left : List Char} (free : Free p isOpen left)
    (right : List Char) : breakUnquoted p isOpen (left ++ right) =
      (left ++ (breakUnquoted p (openAtEnd isOpen left) right).1,
        (breakUnquoted p (openAtEnd isOpen left) right).2) := by
  induction left generalizing isOpen with
  | nil => rfl
  | cons c rest ih =>
    rw [List.cons_append, breakUnquoted, if_neg free.stays, ih free.2]
    rfl

theorem flatten_splitUnquoted (p : Char → Bool) (isOpen : Bool) (text : List Char) :
    (splitUnquoted p isOpen text).flatten = removeUnquoted p isOpen text := by
  induction text generalizing isOpen with
  | nil => rfl
  | cons c rest ih =>
    rw [splitUnquoted, removeUnquoted]
    split
    · exact ih isOpen
    · have later := ih (quoteAfter isOpen c)
      cases pieces : splitUnquoted p (quoteAfter isOpen c) rest with
      | nil => exact absurd pieces (splitUnquoted_ne_nil p _ rest)
      | cons first more =>
        rw [pieces] at later
        exact congrArg (c :: ·) later

theorem flatten_words (text : List Char) :
    (words text).flatten = removeUnquoted isBlank false text := by
  rw [words, List.flatten_filter_not_isEmpty, flatten_splitUnquoted]

theorem toList_removeBlanks (text : String) :
    (removeBlanks text).toList = removeUnquoted isBlank false text.toList :=
  String.toList_ofList

theorem closed_iff_of_words {left right : List Char} (same : words left = words right) :
    Closed left ↔ Closed right := by
  have removed : removeUnquoted isBlank false left = removeUnquoted isBlank false right := by
    rw [← flatten_words, same, flatten_words]
  rw [Closed, Closed, ← openAtEnd_removeUnquoted isBlank_quote, removed,
    openAtEnd_removeUnquoted isBlank_quote]

theorem words_append_of_blank {blanks : List Char} (white : ∀ c ∈ blanks, isBlank c = true)
    (right : List Char) : words (blanks ++ right) = words right := by
  induction blanks with
  | nil => rfl
  | cons c rest ih =>
    rw [List.forall_mem_cons] at white
    rw [List.cons_append, words_cons white.1, ih white.2]

/-- White space that is not quoted separates words, however much of it there is. -/
theorem words_append_run {left run : List Char} (closed : Closed left) (some : run ≠ [])
    (white : ∀ c ∈ run, isBlank c = true) (right : List Char) :
    words (left ++ run ++ right) = words left ++ words right := by
  obtain ⟨c, rest, rfl⟩ := List.exists_cons_of_ne_nil some
  rw [List.forall_mem_cons] at white
  rw [List.append_assoc, List.cons_append, words_append_cons closed white.1,
    words_append_of_blank white.2]

/-- A text that ends in white space, or nothing. -/
def EndsBlank (text : List Char) : Prop := ∀ c, text.getLast? = some c → isBlank c = true

theorem words_append_of_endsBlank {left : List Char} (closed : Closed left) (ends : EndsBlank left)
    (right : List Char) : words (left ++ right) = words left ++ words right := by
  rcases List.eq_nil_or_concat' left with rfl | ⟨front, c, rfl⟩
  · rfl
  · have blank := ends c List.getLast?_concat
    have closedFront : Closed front := by
      rwa [Closed, openAtEnd_append, openAtEnd_cons,
        quoteAfter_of_ne (ne_quote isBlank_quote blank), openAtEnd_nil] at closed
    rw [← List.append_cons, words_append_cons closedFront blank,
      words_append_cons closedFront blank, words_nil, List.append_nil]

/-- A text that starts with white space, or nothing. -/
def StartsBlank (text : List Char) : Prop := ∀ c, text.head? = some c → isBlank c = true

theorem words_append_of_startsBlank {left : List Char} (closed : Closed left) {right : List Char}
    (starts : StartsBlank right) : words (left ++ right) = words left ++ words right := by
  cases right with
  | nil => rw [words_nil, List.append_nil, List.append_nil]
  | cons c rest =>
    have blank := starts c rfl
    rw [words_append_cons closed blank, words_cons blank]

/-- What trimming takes away is white space. -/
theorem exists_trim (text : List Char) : ∃ before after, (∀ c ∈ before, isBlank c = true) ∧
    (∀ c ∈ after, isBlank c = true) ∧ text = before ++ trim text ++ after := by
  obtain ⟨after, white, same⟩ := trimEnd_append (trimStart text)
  refine ⟨text.takeWhile isBlank, after, List.all_eq_true.mp List.all_takeWhile, white, ?_⟩
  rw [List.append_assoc, trim, ← same, trimStart, List.takeWhile_append_dropWhile]

theorem closed_trim {text : List Char} : Closed (trim text) ↔ Closed text := by
  obtain ⟨before, after, first, last, same⟩ := exists_trim text
  have plain : ∀ blanks : List Char, (∀ c ∈ blanks, isBlank c = true) → '\'' ∉ blanks :=
    fun _ white mem => absurd (white _ mem) (by decide)
  rw [Closed, Closed, congrArg (openAtEnd false) same, openAtEnd_append, openAtEnd_append,
    openAtEnd_of_plain (plain _ first), openAtEnd_of_plain (plain _ last)]

theorem words_trim {text : List Char} (closed : Closed text) : words (trim text) = words text := by
  obtain ⟨before, after, first, last, same⟩ := exists_trim text
  rw [congrArg words same, List.append_assoc, words_append_of_blank first,
    words_append_blanks (closed_trim.mpr closed) last]

/-! ## Cutting between words and within a word -/

/-- The words up to the first unquoted separator, and the words from there on. -/
def breakWords (p : Char → Bool) : List (List Char) → List (List Char) × List (List Char)
  | [] => ([], [])
  | word :: rest =>
    match breakUnquoted p false word with
    | (_, []) => (word :: (breakWords p rest).1, (breakWords p rest).2)
    | (front, back) => (words front, back :: rest)

theorem breakWords_of_free {piece : List Char} (whole : Free isBlank false piece)
    (free : Free p false piece) (later : List (List Char)) :
    breakWords p (words piece ++ later) =
      (words piece ++ (breakWords p later).1, (breakWords p later).2) := by
  cases piece with
  | nil => rfl
  | cons c rest =>
    rw [words_of_free whole (List.cons_ne_nil c rest), List.singleton_append, breakWords,
      breakUnquoted_of_free free]
    rfl

theorem breakWords_of_separator {front back : List Char} {c : Char}
    (whole : Free isBlank false (front ++ c :: back)) (free : Free p false front)
    (closed : Closed front) (separator : p c = true) (later : List (List Char)) :
    breakWords p (words (front ++ c :: back) ++ later) = (words front, (c :: back) :: later) := by
  rw [words_of_free whole (by simp), List.singleton_append, breakWords,
    breakUnquoted_append_cons free closed separator]

/-- Where a text is cut, its words are cut. -/
theorem words_breakUnquoted (apart : ∀ c, isBlank c = true → p c = false) {text : List Char}
    (closed : Closed text) :
    (words (breakUnquoted p false text).1, words (breakUnquoted p false text).2) =
      breakWords p (words text) := by
  induction text using piece_induction isBlank with
  | whole text whole =>
    rw [← List.append_nil (words text)]
    rcases free_or_exists_separator p false text with free | ⟨f, d, g, rfl, free, shut, sep⟩
    · rw [breakWords_of_free whole free, breakUnquoted_of_free free]
      simp [breakWords]
    · have back := (free_append.mp whole).2
      rw [shut] at back
      rw [breakWords_of_separator whole free shut sep, breakUnquoted_append_cons free shut sep,
        words_of_free back (List.cons_ne_nil d g)]
  | cut piece c rest whole pieceClosed blank ih =>
    rw [words_append_cons pieceClosed blank]
    rcases free_or_exists_separator p false piece with free | ⟨f, d, g, rfl, free, shut, sep⟩
    · have later := ih ((closed_append_blank pieceClosed blank).mp closed)
      have stays : Free p false [c] := ⟨fun _ => apart c blank, trivial⟩
      have stillClosed : Closed (piece ++ [c]) := (closed_append_blank pieceClosed blank).mpr rfl
      rw [breakWords_of_free whole free, ← later, List.append_cons,
        breakUnquoted_append_of_free (Free.append pieceClosed free stays),
        stillClosed, List.append_assoc, List.singleton_append, words_append_cons pieceClosed blank]
    · have back := (free_append.mp whole).2
      have backClosed : Closed (d :: g) := by
        rw [Closed, openAtEnd_append, shut] at pieceClosed
        exact pieceClosed
      rw [shut] at back
      rw [breakWords_of_separator whole free shut sep, List.append_assoc, List.cons_append,
        breakUnquoted_append_cons free shut sep, ← List.cons_append,
        words_append_cons backClosed blank, words_of_free back (List.cons_ne_nil d g)]
      rfl

theorem words_breakUnquoted_congr (apart : ∀ c, isBlank c = true → p c = false)
    {left right : List Char} (closed : Closed left) (same : words left = words right) :
    words (breakUnquoted p false left).1 = words (breakUnquoted p false right).1 ∧
      words (breakUnquoted p false left).2 = words (breakUnquoted p false right).2 := by
  have leftWords := words_breakUnquoted apart closed
  have rightWords := words_breakUnquoted apart ((closed_iff_of_words same).mp closed)
  rw [same, ← rightWords, Prod.mk.injEq] at leftWords
  exact leftWords

end TabStore.Text
