import TabStore.Text.Unquoted

/-!
# Texts without unquoted separators

What the scanners that keep track of string literals do with a text in which no unquoted character
is a separator, and what they leave of any text.

Results:
1. `breakUnquoted_append_cons`, `splitUnquoted_append_cons`: a text without unquoted separators is
   cut off whole at the first separator behind it; by `free_or_exists_separator` this decides every
   text, and `piece_induction` goes from one such piece to the next;
2. `free_of_mem_splitUnquoted`, `splitUnquoted_intercalate`: pieces have no unquoted separators, and
   such pieces are split apart again after they are joined;
3. `removeUnquoted_of_free`, `free_removeUnquoted`: removing characters changes no text without them
   and leaves none.
-/

namespace TabStore.Text

/-- No unquoted character of a text satisfies `p`. -/
def Free (p : Char → Bool) : Bool → List Char → Prop
  | _, [] => True
  | isOpen, c :: rest => (isOpen = false → p c = false) ∧ Free p (quoteAfter isOpen c) rest

/-- Every literal of a text ends in it. -/
def Closed (text : List Char) : Prop := openAtEnd false text = false

variable {p q : Char → Bool}

@[simp] theorem free_nil (isOpen : Bool) : Free p isOpen [] := trivial

/-- The scanners go on to the next character where this one is no unquoted separator. -/
theorem Free.stays {isOpen : Bool} {c : Char} {rest : List Char}
    (free : Free p isOpen (c :: rest)) :
    ¬ (!isOpen && p c) = true := by
  cases isOpen with
  | true => simp
  | false => simp [free.1 rfl]

theorem free_append {isOpen : Bool} {left right : List Char} :
    Free p isOpen (left ++ right) ↔
      Free p isOpen left ∧ Free p (openAtEnd isOpen left) right := by
  induction left generalizing isOpen with
  | nil => simp
  | cons c rest ih =>
    rw [List.cons_append, Free, Free, ih, openAtEnd_cons, and_assoc]

theorem quoteAfter_of_ne {isOpen : Bool} {c : Char} (h : c ≠ '\'') : quoteAfter isOpen c = isOpen :=
  if_neg h

theorem openAtEnd_of_plain {isOpen : Bool} {text : List Char} (plain : '\'' ∉ text) :
    openAtEnd isOpen text = isOpen := by
  induction text with
  | nil => rfl
  | cons c rest ih =>
    rw [List.mem_cons, not_or] at plain
    rw [openAtEnd_cons, quoteAfter_of_ne (Ne.symm plain.1), ih plain.2]

/-- In a text without quotes every character is unquoted. -/
theorem free_iff_of_plain {text : List Char} (plain : '\'' ∉ text) :
    Free p false text ↔ ∀ c ∈ text, p c = false := by
  induction text with
  | nil => simp
  | cons c rest ih =>
    rw [List.mem_cons, not_or] at plain
    rw [Free, quoteAfter_of_ne (Ne.symm plain.1), ih plain.2, List.forall_mem_cons]
    simp

/-- Inside a literal nothing is unquoted. -/
theorem free_true_of_plain {text : List Char} (plain : '\'' ∉ text) : Free p true text := by
  induction text with
  | nil => trivial
  | cons c rest ih =>
    rw [List.mem_cons, not_or] at plain
    refine ⟨fun closed => absurd closed (by decide), ?_⟩
    rw [quoteAfter_of_ne (Ne.symm plain.1)]
    exact ih plain.2

theorem free_literal {text : List Char} (plain : '\'' ∉ text) (quote : p '\'' = false) :
    Free p false ('\'' :: text ++ ['\'']) := by
  rw [List.cons_append, Free, free_append]
  exact ⟨fun _ => quote, free_true_of_plain plain, fun _ => quote, trivial⟩

theorem closed_literal {text : List Char} (plain : '\'' ∉ text) :
    Closed ('\'' :: text ++ ['\'']) := by
  show openAtEnd false (['\''] ++ text ++ ['\'']) = false
  rw [openAtEnd_append, openAtEnd_append, openAtEnd_of_plain plain]
  rfl

theorem closed_of_plain {text : List Char} (plain : '\'' ∉ text) : Closed text :=
  openAtEnd_of_plain plain

theorem Closed.append {left right : List Char} (hl : Closed left) (hr : Closed right) :
    Closed (left ++ right) := by
  rw [Closed, openAtEnd_append, hl, hr]

theorem Free.append {left right : List Char} (closed : Closed left) (hl : Free p false left)
    (hr : Free p false right) : Free p false (left ++ right) := by
  rw [free_append, closed]
  exact ⟨hl, hr⟩

/-! ## Cutting -/

theorem breakUnquoted_of_free {isOpen : Bool} {text : List Char} (free : Free p isOpen text) :
    breakUnquoted p isOpen text = (text, []) := by
  induction text generalizing isOpen with
  | nil => rfl
  | cons c rest ih =>
    rw [breakUnquoted, if_neg free.stays, ih free.2]

theorem breakUnquoted_append_cons {isOpen : Bool} {text rest : List Char} {c : Char}
    (free : Free p isOpen text) (closed : openAtEnd isOpen text = false) (separator : p c = true) :
    breakUnquoted p isOpen (text ++ c :: rest) = (text, c :: rest) := by
  induction text generalizing isOpen with
  | nil =>
    have isOpen_eq : isOpen = false := closed
    subst isOpen_eq
    rw [List.nil_append, breakUnquoted, if_pos (by simp [separator])]
  | cons d tail ih =>
    rw [List.cons_append, breakUnquoted, if_neg free.stays, ih free.2 closed]

theorem free_breakUnquoted (p : Char → Bool) (isOpen : Bool) (text : List Char) :
    Free p isOpen (breakUnquoted p isOpen text).1 := by
  induction text generalizing isOpen with
  | nil => trivial
  | cons c rest ih =>
    rw [breakUnquoted]
    split
    · trivial
    · next stays =>
      refine ⟨fun closed => ?_, ih (quoteAfter isOpen c)⟩
      simpa [closed] using stays

/-- A text has no unquoted separator, or it is cut at the first one. -/
theorem free_or_exists_separator (p : Char → Bool) (isOpen : Bool) (text : List Char) :
    Free p isOpen text ∨ ∃ piece c rest, text = piece ++ c :: rest ∧ Free p isOpen piece ∧
      openAtEnd isOpen piece = false ∧ p c = true := by
  induction text generalizing isOpen with
  | nil => exact .inl trivial
  | cons c rest ih =>
    by_cases cut : isOpen = false ∧ p c = true
    · exact .inr ⟨[], c, rest, rfl, trivial, cut.1, cut.2⟩
    · have stays : isOpen = false → p c = false := by
        intro closed
        rw [not_and, Bool.not_eq_true] at cut
        exact cut closed
      rcases ih (quoteAfter isOpen c) with free | ⟨piece, d, tail, rfl, free, closed, separator⟩
      · exact .inl ⟨stays, free⟩
      · exact .inr ⟨c :: piece, d, tail, rfl, ⟨stays, free⟩, closed, separator⟩

/-- A text is a piece without unquoted separators, or such a piece, the separator that ends it and the
rest. -/
theorem piece_induction (p : Char → Bool) {motive : List Char → Prop}
    (whole : ∀ text, Free p false text → motive text)
    (cut : ∀ piece c rest, Free p false piece → Closed piece → p c = true → motive rest →
      motive (piece ++ c :: rest)) (text : List Char) : motive text := by
  generalize size : text.length = n
  induction n using Nat.strongRecOn generalizing text with
  | _ n ih =>
    rcases free_or_exists_separator p false text with
      free | ⟨piece, c, rest, rfl, free, closed, separator⟩
    · exact whole text free
    · have shorter : rest.length < n := by
        rw [← size, List.length_append, List.length_cons]
        omega
      exact cut piece c rest free closed separator (ih rest.length shorter rest rfl)

/-! ## Splitting -/

theorem splitUnquoted_of_free {isOpen : Bool} {text : List Char} (free : Free p isOpen text) :
    splitUnquoted p isOpen text = [text] := by
  induction text generalizing isOpen with
  | nil => rfl
  | cons c rest ih =>
    rw [splitUnquoted, if_neg free.stays, ih free.2]
    rfl

theorem splitUnquoted_append_cons {isOpen : Bool} {text rest : List Char} {c : Char}
    (free : Free p isOpen text) (closed : openAtEnd isOpen text = false) (separator : p c = true) :
    splitUnquoted p isOpen (text ++ c :: rest) = text :: splitUnquoted p false rest := by
  induction text generalizing isOpen with
  | nil =>
    have isOpen_eq : isOpen = false := closed
    subst isOpen_eq
    rw [List.nil_append, splitUnquoted, if_pos (by simp [separator])]
  | cons d tail ih =>
    rw [List.cons_append, splitUnquoted, if_neg free.stays, ih free.2 closed]
    rfl

theorem ne_quote {c : Char} (quote : p '\'' = false) (h : p c = true) : c ≠ '\'' := by
  rintro rfl
  rw [quote] at h
  cases h

/-- Behind a text whose literals all end, a separator splits what stands on both sides of it. -/
theorem splitUnquoted_append (quote : p '\'' = false) {left right : List Char} {c : Char}
    (closed : Closed left) (separator : p c = true) : splitUnquoted p false (left ++ c :: right) =
      splitUnquoted p false left ++ splitUnquoted p false right := by
  induction left using piece_induction p with
  | whole left free =>
    rw [splitUnquoted_append_cons free closed separator, splitUnquoted_of_free free]
    rfl
  | cut first d rest free whole sep ih =>
    rw [Closed, openAtEnd_append, whole, openAtEnd_cons, quoteAfter_of_ne (ne_quote quote sep)]
      at closed
    rw [List.append_assoc, List.cons_append, splitUnquoted_append_cons free whole sep, ih closed,
      splitUnquoted_append_cons free whole sep]
    rfl

theorem mem_of_mem_splitUnquoted {isOpen : Bool} {text piece : List Char}
    (h : piece ∈ splitUnquoted p isOpen text) {c : Char} (mem : c ∈ piece) : c ∈ text := by
  induction text generalizing isOpen piece with
  | nil =>
    rw [List.mem_singleton.mp h] at mem
    cases mem
  | cons d rest ih =>
    rw [splitUnquoted] at h
    split at h
    · rcases List.mem_cons.mp h with rfl | later
      · cases mem
      · exact List.mem_cons_of_mem d (ih later mem)
    · cases pieces : splitUnquoted p (quoteAfter isOpen d) rest with
      | nil => exact absurd pieces (splitUnquoted_ne_nil p _ rest)
      | cons first more =>
        rw [pieces] at h
        rcases List.mem_cons.mp h with rfl | later
        · rcases List.mem_cons.mp mem with rfl | inFirst
          · exact List.mem_cons_self
          · exact List.mem_cons_of_mem d (ih (pieces ▸ List.mem_cons_self) inFirst)
        · exact List.mem_cons_of_mem d (ih (pieces ▸ List.mem_cons_of_mem first later) mem)

/-- The pieces of a text have no unquoted separator, nor an unquoted character that the text does
not have, and literals end in the piece in which they start. -/
theorem free_of_mem_splitUnquoted (quote : p '\'' = false) {text piece : List Char}
    (h : piece ∈ splitUnquoted p false text) : Free p false piece ∧
      (Free q false text → Free q false piece) ∧ (Closed text → Closed piece) := by
  induction text using piece_induction p with
  | whole text free =>
    rw [splitUnquoted_of_free free, List.mem_singleton] at h
    subst h
    exact ⟨free, id, id⟩
  | cut first c rest free closed sep ih =>
    rw [splitUnquoted_append_cons free closed sep, List.mem_cons] at h
    rw [free_append, closed, Closed, openAtEnd_append, closed]
    rw [Free, openAtEnd_cons, quoteAfter_of_ne (ne_quote quote sep)]
    rcases h with rfl | later
    · exact ⟨free, fun all => all.1, fun _ => closed⟩
    · obtain ⟨freeLater, keeps, closes⟩ := ih later
      exact ⟨freeLater, fun all => keeps all.2.2, closes⟩

/-- Pieces that are joined by a separator are split apart again. -/
theorem splitUnquoted_intercalate {separator : Char} (isSeparator : p separator = true)
    {pieces : List (List Char)} (some : pieces ≠ [])
    (h : ∀ piece ∈ pieces, Free p false piece ∧ Closed piece) :
    splitUnquoted p false ([separator].intercalate pieces) = pieces := by
  induction pieces with
  | nil => exact absurd rfl some
  | cons piece rest ih =>
    obtain ⟨free, closed⟩ := h piece List.mem_cons_self
    cases rest with
    | nil =>
      rw [List.intercalate_singleton]
      exact splitUnquoted_of_free free
    | cons next more =>
      have later := ih (List.cons_ne_nil next more) fun other mem =>
        h other (List.mem_cons_of_mem piece mem)
      rw [List.intercalate_cons_cons, List.append_assoc, List.singleton_append,
        splitUnquoted_append_cons free closed isSeparator, later]

theorem closed_intercalate {separator : Char} (noQuote : separator ≠ '\'')
    {pieces : List (List Char)} (h : ∀ piece ∈ pieces, Closed piece) :
    Closed ([separator].intercalate pieces) := by
  induction pieces with
  | nil => rfl
  | cons piece rest ih =>
    have closed := h piece List.mem_cons_self
    cases rest with
    | nil =>
      rw [List.intercalate_singleton]
      exact closed
    | cons next more =>
      have later := ih fun other mem => h other (List.mem_cons_of_mem piece mem)
      have middle : Closed [separator] := quoteAfter_of_ne noQuote
      rw [List.intercalate_cons_cons]
      exact (closed.append middle).append later

theorem free_intercalate {separator : Char} (other : p separator = false)
    (noQuote : separator ≠ '\'') {pieces : List (List Char)}
    (h : ∀ piece ∈ pieces, Free p false piece ∧ Closed piece) :
    Free p false ([separator].intercalate pieces) ∧ Closed ([separator].intercalate pieces) := by
  refine ⟨?_, closed_intercalate noQuote fun piece mem => (h piece mem).2⟩
  induction pieces with
  | nil => trivial
  | cons piece rest ih =>
    obtain ⟨free, closed⟩ := h piece List.mem_cons_self
    cases rest with
    | nil =>
      rw [List.intercalate_singleton]
      exact free
    | cons next more =>
      have later := ih fun other mem => h other (List.mem_cons_of_mem piece mem)
      have middle : Free p false [separator] ∧ Closed [separator] :=
        ⟨⟨fun _ => other, trivial⟩, quoteAfter_of_ne noQuote⟩
      rw [List.intercalate_cons_cons]
      exact Free.append (closed.append middle.2) (Free.append closed free middle.1) later

/-! ## Removing -/

theorem removeUnquoted_of_free {isOpen : Bool} {text : List Char} (free : Free p isOpen text) :
    removeUnquoted p isOpen text = text := by
  induction text generalizing isOpen with
  | nil => rfl
  | cons c rest ih =>
    rw [removeUnquoted, if_neg free.stays, ih free.2]

theorem removeUnquoted_append (quote : p '\'' = false) (isOpen : Bool) (left right : List Char) :
    removeUnquoted p isOpen (left ++ right) =
      removeUnquoted p isOpen left ++ removeUnquoted p (openAtEnd isOpen left) right := by
  induction left generalizing isOpen with
  | nil => rfl
  | cons c rest ih =>
    rw [List.cons_append, removeUnquoted, removeUnquoted, openAtEnd_cons]
    split
    · next removed =>
      rw [Bool.and_eq_true] at removed
      rw [ih, quoteAfter_of_ne (ne_quote quote removed.2)]
    · rw [ih, List.cons_append]

theorem removeUnquoted_sublist (isOpen : Bool) (text : List Char) :
    (removeUnquoted p isOpen text).Sublist text := by
  induction text generalizing isOpen with
  | nil => exact List.Sublist.refl []
  | cons c rest ih =>
    rw [removeUnquoted]
    split
    · exact (ih isOpen).cons c
    · exact (ih (quoteAfter isOpen c)).cons_cons c

/-- What is removed is gone, and nothing new appears. -/
theorem free_removeUnquoted (quote : p '\'' = false) (isOpen : Bool) (text : List Char) :
    Free p isOpen (removeUnquoted p isOpen text) ∧
      (Free q isOpen text → Free q isOpen (removeUnquoted p isOpen text)) := by
  induction text generalizing isOpen with
  | nil => exact ⟨trivial, id⟩
  | cons c rest ih =>
    rw [removeUnquoted]
    split
    · next removed =>
      rw [Bool.and_eq_true] at removed
      obtain ⟨gone, kept⟩ := ih isOpen
      refine ⟨gone, fun all => kept ?_⟩
      rw [Free, quoteAfter_of_ne (ne_quote quote removed.2)] at all
      exact all.2
    · next stays =>
      obtain ⟨gone, kept⟩ := ih (quoteAfter isOpen c)
      refine ⟨⟨fun closed => ?_, gone⟩, fun all => ⟨all.1, kept all.2⟩⟩
      simpa [closed] using stays

end TabStore.Text
