import TabStore.Proofs.Text.Blank

/-!
# Words

The words of a text are the pieces between its unquoted white space that are not empty.

Results:
1. `words_append_cons`: behind a text whose literals all end, white space separates the words on both
   sides of it;
2. `words_trimEnd`: trimming takes away no word;
3. `isWord_of_mem_words`, `words_intercalate`: words have no unquoted white space, and with spaces
   between them they are found again.
-/

namespace TabStore.Text

def words (text : List Char) : List (List Char) :=
  (splitUnquoted isBlank false text).filter (!·.isEmpty)

/-- A text that is a single word. -/
structure IsWord (text : List Char) : Prop where
  some : text ≠ []
  noBlank : Free isBlank false text
  closed : Closed text

theorem isBlank_quote : isBlank '\'' = false := by decide

theorem isBlank_space : isBlank ' ' = true := by decide

/-- The literals of a text end if those behind an unquoted white space do. -/
theorem closed_append_blank {left : List Char} (closed : Closed left) {c : Char}
    (blank : isBlank c = true) {right : List Char} : Closed (left ++ c :: right) ↔ Closed right := by
  rw [Closed, Closed, openAtEnd_append, closed, openAtEnd_cons,
    quoteAfter_of_ne (ne_quote isBlank_quote blank)]

theorem words_of_free {text : List Char} (free : Free isBlank false text) (some : text ≠ []) :
    words text = [text] := by
  rw [words, splitUnquoted_of_free free]
  simp [some]

@[simp] theorem words_nil : words [] = [] := rfl

theorem words_append_cons {left : List Char} (closed : Closed left) {c : Char}
    (blank : isBlank c = true) (right : List Char) :
    words (left ++ c :: right) = words left ++ words right := by
  rw [words, splitUnquoted_append isBlank_quote closed blank, List.filter_append]
  rfl

theorem words_cons {c : Char} (blank : isBlank c = true) (rest : List Char) :
    words (c :: rest) = words rest := by
  have split := @words_append_cons [] rfl c blank rest
  rwa [List.nil_append, words_nil, List.nil_append] at split

theorem isWord_of_mem_words {text : List Char} (closed : Closed text) {word : List Char}
    (mem : word ∈ words text) : IsWord word := by
  obtain ⟨piece, some⟩ := List.mem_filter.mp mem
  obtain ⟨free, -, closes⟩ :=
    free_of_mem_splitUnquoted (q := isBlank) isBlank_quote piece
  exact ⟨by simpa using some, free, closes closed⟩

theorem words_intercalate {pieces : List (List Char)} (h : ∀ piece ∈ pieces, IsWord piece) :
    words ([' '].intercalate pieces) = pieces := by
  cases pieces with
  | nil => rfl
  | cons first rest =>
    rw [words, splitUnquoted_intercalate isBlank_space (List.cons_ne_nil first rest) fun piece mem =>
      ⟨(h piece mem).noBlank, (h piece mem).closed⟩]
    exact List.filter_eq_self.mpr fun piece mem => by simpa using (h piece mem).some

theorem words_append_blanks {text : List Char} (closed : Closed text) {blanks : List Char}
    (white : ∀ c ∈ blanks, isBlank c = true) : words (text ++ blanks) = words text := by
  have nothing : words blanks = [] := by
    induction blanks with
    | nil => rfl
    | cons c rest ih =>
      rw [List.forall_mem_cons] at white
      rw [words_cons white.1, ih white.2]
  cases blanks with
  | nil => rw [List.append_nil]
  | cons c rest =>
    have blank := white c List.mem_cons_self
    rw [words_cons blank] at nothing
    rw [words_append_cons closed blank, nothing, List.append_nil]

theorem openAtEnd_trimEnd (isOpen : Bool) (text : List Char) :
    openAtEnd isOpen (trimEnd text) = openAtEnd isOpen text := by
  obtain ⟨rest, white, same⟩ := trimEnd_append text
  have plain : '\'' ∉ rest := fun mem => absurd (white _ mem) (by decide)
  rw [congrArg (openAtEnd isOpen) same, openAtEnd_append, openAtEnd_of_plain plain]

theorem words_trimEnd {text : List Char} (closed : Closed text) :
    words (trimEnd text) = words text := by
  obtain ⟨rest, white, same⟩ := trimEnd_append text
  have stillClosed : Closed (trimEnd text) := (openAtEnd_trimEnd false text).trans closed
  rw [congrArg words same, words_append_blanks stillClosed white]

end TabStore.Text
