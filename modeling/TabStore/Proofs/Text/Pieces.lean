import Mathlib.Algebra.Ring.Parity
import Mathlib.Data.List.Induction
import TabStore.Proofs.Text.Layout

/-!
# Pieces of a text

Whether a character stands inside a literal is told by the number of quotes in front of it. Removing
white space takes no quote away, so a text is split at the same separators before and after it.

Results:
1. `closed_iff_even`, `free_iff_odd`: literals that end and characters that are quoted, by the
   number of quotes;
2. `intercalate_splitUnquoted`: the pieces of a text, joined by the separator, are the text;
3. `splitUnquoted_removeUnquoted`, `breakUnquoted_removeUnquoted`: the pieces of what is left of a
   text are what is left of its pieces;
4. `trim_of_blanks`, `removeUnquoted_of_blanks`: white space at the ends of a text;
5. `eq_trim_iff`, `isInfix_iff`: what is left of a text without its unquoted white space is the
   trimmed text, and stands in the text at all, exactly if the text is a single word.
-/

namespace TabStore.Text

variable {p q : Char → Bool}

/-! ## Quotes counted -/

theorem closed_iff_even {text : List Char} : Closed text ↔ Even (text.count '\'') := by
  induction text using List.reverseRecOn with
  | nil => exact iff_of_true rfl Even.zero
  | append_singleton front c ih =>
    rw [Closed, openAtEnd_append, List.count_append]
    by_cases quote : c = '\''
    · subst quote
      rw [List.count_singleton_self, Nat.even_add_one, ← ih, Closed]
      show (!openAtEnd false front) = false ↔ _
      simp
    · rw [openAtEnd_cons, quoteAfter_of_ne quote, List.count_singleton,
        if_neg (by simpa using quote)]
      exact ih

/-- A text has no unquoted separator if an odd number of quotes stands in front of each one. -/
theorem free_iff_odd {text : List Char} : Free p false text ↔
    ∀ left c right, text = left ++ c :: right → p c = true → Odd (left.count '\'') := by
  constructor
  · rintro free left c right rfl separator
    rw [free_append] at free
    rw [← Nat.not_even_iff_odd, ← closed_iff_even]
    intro closed
    rw [closed] at free
    exact absurd separator (Bool.eq_false_iff.mp (free.2.1 rfl))
  · intro quoted
    rcases free_or_exists_separator p false text with free | ⟨left, c, right, same, -, closed, sep⟩
    · exact free
    · have odd := quoted left c right same sep
      exact absurd (closed_iff_even.mp closed) (Nat.not_even_iff_odd.mpr odd)

/-! ## Splitting and removing -/

theorem isBlank_of_beq {separator : Char} (other : isBlank separator = false) (c : Char)
    (same : (c == separator) = true) : isBlank c = false := by
  rwa [beq_iff_eq.mp same]

theorem intercalate_splitUnquoted (separator : Char) (isOpen : Bool) (text : List Char) :
    [separator].intercalate (splitUnquoted (· == separator) isOpen text) = text := by
  induction text generalizing isOpen with
  | nil => rfl
  | cons c rest ih =>
    rw [splitUnquoted]
    split
    · next cut =>
      rw [Bool.and_eq_true, beq_iff_eq] at cut
      rw [List.intercalate_cons_of_ne_nil (splitUnquoted_ne_nil _ _ rest), ih, cut.2]
      rfl
    · have later := ih (quoteAfter isOpen c)
      cases pieces : splitUnquoted (· == separator) (quoteAfter isOpen c) rest with
      | nil => exact absurd pieces (splitUnquoted_ne_nil _ _ rest)
      | cons first more =>
        rw [pieces] at later
        cases more with
        | nil => simpa using later
        | cons next more => simpa using later

theorem removeUnquoted_append_cons (quote : q '\'' = false) {left right : List Char} {c : Char}
    (closed : Closed left) (noQuote : c ≠ '\'') (kept : q c = false) :
    removeUnquoted q false (left ++ c :: right) =
      removeUnquoted q false left ++ c :: removeUnquoted q false right := by
  rw [removeUnquoted_append quote, closed, removeUnquoted, kept, quoteAfter_of_ne noQuote]
  rfl

theorem closed_removeUnquoted (quote : q '\'' = false) {text : List Char} :
    Closed (removeUnquoted q false text) ↔ Closed text := by
  rw [Closed, Closed, openAtEnd_removeUnquoted quote]

theorem removeUnquoted_intercalate (quote : q '\'' = false) {separator : Char}
    (noQuote : separator ≠ '\'') (kept : q separator = false) {pieces : List (List Char)}
    (closed : ∀ piece ∈ pieces, Closed piece) :
    removeUnquoted q false ([separator].intercalate pieces) =
      [separator].intercalate (pieces.map (removeUnquoted q false)) := by
  induction pieces with
  | nil => rfl
  | cons piece rest ih =>
    rw [List.forall_mem_cons] at closed
    cases rest with
    | nil => rw [List.map_singleton, List.intercalate_singleton, List.intercalate_singleton]
    | cons next more =>
      rw [List.intercalate_cons_cons, List.append_assoc, List.singleton_append,
        removeUnquoted_append_cons quote closed.1 noQuote kept, ih closed.2]
      simp

section
variable (quote : p '\'' = false) (quote' : q '\'' = false) (apart : ∀ c, p c = true → q c = false)
include quote quote' apart

/-- What is removed separates nothing, so the pieces of what is left are what is left of the
pieces. -/
theorem splitUnquoted_removeUnquoted (text : List Char) :
    splitUnquoted p false (removeUnquoted q false text) =
      (splitUnquoted p false text).map (removeUnquoted q false) := by
  induction text using piece_induction p with
  | whole text free =>
    rw [splitUnquoted_of_free free,
      splitUnquoted_of_free ((free_removeUnquoted quote' false text).2 free)]
    rfl
  | cut piece c rest free closed separator ih =>
    have freeLeft := (@free_removeUnquoted q p quote' false piece).2 free
    have closedLeft := (closed_removeUnquoted quote').mpr closed
    rw [removeUnquoted_append_cons quote' closed (ne_quote quote separator) (apart c separator),
      splitUnquoted_append_cons freeLeft closedLeft separator,
      splitUnquoted_append_cons free closed separator, ih]
    rfl

theorem breakUnquoted_removeUnquoted (text : List Char) :
    breakUnquoted p false (removeUnquoted q false text) =
      (removeUnquoted q false (breakUnquoted p false text).1,
        removeUnquoted q false (breakUnquoted p false text).2) := by
  rcases free_or_exists_separator p false text with
    free | ⟨piece, c, rest, rfl, free, closed, separator⟩
  · rw [breakUnquoted_of_free free,
      breakUnquoted_of_free ((free_removeUnquoted quote' false text).2 free)]
    rfl
  · have freeLeft := (@free_removeUnquoted q p quote' false piece).2 free
    have closedLeft := (closed_removeUnquoted quote').mpr closed
    have noQuote := ne_quote quote separator
    have kept := apart c separator
    rw [removeUnquoted_append_cons quote' closed noQuote kept,
      breakUnquoted_append_cons freeLeft closedLeft separator,
      breakUnquoted_append_cons free closed separator, removeUnquoted, kept,
      quoteAfter_of_ne noQuote]
    rfl

end

/-! ## White space at the ends -/

theorem trim_of_blanks {before middle after : List Char} (white : ∀ c ∈ before, isBlank c = true)
    (white' : ∀ c ∈ after, isBlank c = true)
    (first : ∀ c, middle.head? = some c → isBlank c = false)
    (last : ∀ c, middle.getLast? = some c → isBlank c = false) :
    trim (before ++ middle ++ after) = middle := by
  have nothing : after.dropWhile isBlank = [] := List.dropWhile_eq_nil_iff.mpr white'
  rw [trim, trimStart, List.append_assoc, List.dropWhile_append_of_pos white]
  cases middle with
  | nil =>
    rw [List.nil_append, nothing]
    rfl
  | cons c rest =>
    rw [← trimStart, trimStart_of_head (by simpa using first), trimEnd_append_of_last last,
      trimEnd_of_blank white', List.append_nil]

theorem removeUnquoted_of_blanks {before middle after : List Char}
    (white : ∀ c ∈ before, isBlank c = true) (white' : ∀ c ∈ after, isBlank c = true)
    (closed : Closed middle) :
    removeUnquoted isBlank false (before ++ middle ++ after) =
      removeUnquoted isBlank false middle := by
  rw [← flatten_words, List.append_assoc, words_append_of_blank white,
    words_append_blanks closed white', flatten_words]

/-! ## Single words -/

theorem isInfix_of_mem_splitUnquoted {text piece : List Char}
    (h : piece ∈ splitUnquoted p false text) : piece <:+: text := by
  induction text using piece_induction p with
  | whole text free =>
    rw [splitUnquoted_of_free free, List.mem_singleton] at h
    exact h ▸ List.infix_refl _
  | cut first c rest free closed separator ih =>
    rw [splitUnquoted_append_cons free closed separator, List.mem_cons] at h
    rcases h with rfl | later
    · exact (List.prefix_append _ _).isInfix
    · have behind : rest <:+ first ++ c :: rest :=
        (List.suffix_cons c rest).trans (List.suffix_append _ _)
      exact (ih later).trans behind.isInfix

theorem filter_removeUnquoted (isOpen : Bool) (text : List Char) :
    (removeUnquoted p isOpen text).filter (!p ·) = text.filter (!p ·) := by
  induction text generalizing isOpen with
  | nil => rfl
  | cons c rest ih =>
    rw [removeUnquoted]
    split
    · next removed =>
      rw [Bool.and_eq_true] at removed
      rw [ih, List.filter_cons_of_neg (by simp [removed.2])]
    · rw [List.filter_cons, List.filter_cons, ih]

section
variable {text : List Char} (closed : Closed text)
include closed

/-- Only white space can stand around what is left of a text. -/
theorem eq_trim_of_isInfix (h : removeUnquoted isBlank false text <:+: text) :
    removeUnquoted isBlank false text = trim text := by
  obtain ⟨before, after, same⟩ := h
  -- Everything but white space is left, so that none of it is in front or behind.
  have kept := @filter_removeUnquoted isBlank false text
  nth_rewrite 2 [← same] at kept
  rw [List.filter_append, List.filter_append] at kept
  have lengths := congrArg List.length kept
  rw [List.length_append, List.length_append] at lengths
  have white : ∀ blanks : List Char, (blanks.filter (!isBlank ·)).length = 0 →
      ∀ c ∈ blanks, isBlank c = true := by
    intro blanks none c mem
    simpa using List.filter_eq_nil_iff.mp (List.length_eq_zero_iff.mp none) c mem
  obtain ⟨first, last⟩ := Free.ends (free_removeUnquoted (q := isBlank) isBlank_quote false text).1
    ((closed_removeUnquoted isBlank_quote).mpr closed)
  rw [← trim_of_blanks (white before (by omega)) (white after (by omega)) first last, same]

theorem length_words_of_eq_trim (some : removeUnquoted isBlank false text ≠ [])
    (h : removeUnquoted isBlank false text = trim text) : (words text).length = 1 := by
  have free := (free_removeUnquoted (q := isBlank) isBlank_quote false text).1
  rw [← words_trim closed, ← h, words_of_free free some, List.length_singleton]

omit closed in
theorem isInfix_of_length_words (h : (words text).length = 1) :
    removeUnquoted isBlank false text <:+: text := by
  obtain ⟨word, single⟩ := List.length_eq_one_iff.mp h
  have mem : word ∈ words text := by
    rw [single]
    exact List.mem_singleton_self word
  rw [← flatten_words, single, List.flatten_singleton]
  exact isInfix_of_mem_splitUnquoted (List.mem_filter.mp mem).1

theorem eq_trim_iff (some : removeUnquoted isBlank false text ≠ []) :
    removeUnquoted isBlank false text = trim text ↔ (words text).length = 1 :=
  ⟨length_words_of_eq_trim closed some,
    fun single => eq_trim_of_isInfix closed (isInfix_of_length_words single)⟩

theorem isInfix_iff (some : removeUnquoted isBlank false text ≠ []) :
    removeUnquoted isBlank false text <:+: text ↔ (words text).length = 1 :=
  ⟨fun within => length_words_of_eq_trim closed some (eq_trim_of_isInfix closed within),
    isInfix_of_length_words⟩

end

end TabStore.Text
