import Mathlib.Data.List.TakeWhile
import TabStore.Condition.Basic
import TabStore.Proofs.Result
import TabStore.Proofs.Text.Classes
import TabStore.Proofs.Text.Unquoted

/-!
# Canonical texts

How canonical texts are put together from pieces, and what their operands look like.

Results:
1. `canonicalChars_append_of_closed`: a text whose literals all end and the text behind it can be
   made canonical one after the other, unless they meet within a word or within an operator;
   `closed_of_canonicalChars`: only such texts have a canonical form;
2. `settled_canonicalChars`: a canonical text consists of literals, marks, and words that name no
   operator;
3. `operand_of_mem_lexemes`: an operand of a canonical text is a literal or is its own canonical
   form.
-/

namespace TabStore.Condition

/-! ## Literals -/

theorem cutAfterQuote_append_cons {body : List Char} (plain : '\'' ∉ body) (rest : List Char) :
    cutAfterQuote (body ++ '\'' :: rest) = some (body ++ ['\''], rest) := by
  induction body with
  | nil => rfl
  | cons c tail ih =>
    rw [List.mem_cons, not_or] at plain
    rw [List.cons_append, cutAfterQuote, if_neg (Ne.symm plain.1), ih plain.2]
    rfl

/-- A text is cut behind its first quote. -/
theorem exists_of_cutAfterQuote {text literal rest : List Char}
    (h : cutAfterQuote text = some (literal, rest)) :
    ∃ body, '\'' ∉ body ∧ literal = body ++ ['\''] ∧ text = body ++ '\'' :: rest := by
  induction text generalizing literal with
  | nil => cases h
  | cons c tail ih =>
    rw [cutAfterQuote] at h
    split at h
    · next quote =>
      cases h
      exact ⟨[], List.not_mem_nil, rfl, by rw [quote]; rfl⟩
    · next plain =>
      obtain ⟨⟨first, after⟩, found, same⟩ := Option.map_eq_some_iff.mp h
      cases same
      obtain ⟨body, free, rfl, rfl⟩ := ih found
      refine ⟨c :: body, ?_, rfl, rfl⟩
      rw [List.mem_cons, not_or]
      exact ⟨Ne.symm plain, free⟩

theorem cutAfterQuote_eq_none {text : List Char} : cutAfterQuote text = none ↔ '\'' ∉ text := by
  induction text with
  | nil => simp [cutAfterQuote]
  | cons c rest ih =>
    rw [cutAfterQuote, List.mem_cons, not_or, ← ih]
    split
    · next quote => simp [quote]
    · next plain => simp [Ne.symm plain]

/-! ## Seams -/

/-- A text that neither continues a word nor completes an operator. -/
def IsSeam (text : List Char) : Prop := ∀ c, text.head? = some c → isWordChar c = false ∧ c ≠ '='

/-- Two texts that meet neither within a word nor within an operator. -/
def IsJoint (left right : List Char) : Prop :=
  ∀ c d, left.getLast? = some c → right.head? = some d →
    pairCode? c d = none ∧ (isWordChar c = true → isWordChar d = false)

theorem IsSeam.isJoint {left right : List Char} (seam : IsSeam right) : IsJoint left right := by
  intro c d _ head
  obtain ⟨nonWord, other⟩ := seam d head
  exact ⟨if_pos other, fun _ => nonWord⟩

theorem IsJoint.of_suffix {left last right : List Char} (joint : IsJoint left right)
    (suffix : last <:+ left) : IsJoint last right := by
  obtain ⟨first, rfl⟩ := suffix
  intro c d ends head
  refine joint c d ?_ head
  rw [List.getLast?_append, ends]
  rfl

theorem takeWhile_append_of_head {p : Char → Bool} {left right : List Char}
    (stop : (∀ c ∈ left, p c = true) → ∀ c, right.head? = some c → p c = false) :
    (left ++ right).takeWhile p = left.takeWhile p ∧
      (left ++ right).dropWhile p = left.dropWhile p ++ right := by
  induction left with
  | nil =>
    cases right with
    | nil => exact ⟨rfl, rfl⟩
    | cons c rest => simp [stop (by simp) c rfl]
  | cons c rest ih =>
    by_cases h : p c = true
    · have ih := ih fun all => stop (List.forall_mem_cons.mpr ⟨h, all⟩)
      simp [h, ih.1, ih.2]
    · simp [h]

/-- What a word runs into does not continue it. -/
theorem IsJoint.not_isWordChar {c d : Char} {left right : List Char}
    (joint : IsJoint (c :: left) right) (word : ∀ e ∈ c :: left, isWordChar e = true)
    (head : right.head? = some d) : isWordChar d = false :=
  (joint _ d (List.getLast?_eq_some_getLast (List.cons_ne_nil c left)) head).2
    (word _ (List.getLast_mem _))

/-- What follows a joint does not start with the second half of a comparison. -/
theorem IsJoint.pairCode? {c : Char} {left right : List Char} (joint : IsJoint (c :: left) right) :
    (left ++ right).head?.bind (pairCode? c) = left.head?.bind (Condition.pairCode? c) := by
  cases left with
  | cons d rest => rfl
  | nil =>
    cases right with
    | nil => rfl
    | cons d rest => exact (joint c d rfl rfl).1

theorem canonicalPiece_append {c : Char} {left right piece after : List Char}
    (joint : IsJoint (c :: left) right) (h : canonicalPiece c left = .ok (piece, after)) :
    canonicalPiece c (left ++ right) = .ok (piece, after ++ right) := by
  unfold canonicalPiece at h ⊢
  split
  · next quote =>
    rw [if_pos quote] at h
    split at h
    · cases h
    · next found =>
      cases h
      obtain ⟨body, plain, rfl, rfl⟩ := exists_of_cutAfterQuote found
      rw [List.append_assoc, List.cons_append, cutAfterQuote_append_cons plain]
  · next noQuote =>
    rw [if_neg noQuote] at h
    rw [joint.pairCode?]
    split at h
    · next code found =>
      cases h
      cases left with
      | nil => cases found
      | cons d rest => rfl
    · split at h
      · cases h
      · next allowed =>
        simp only [if_neg allowed]
        split at h
        · next word =>
          cases h
          obtain ⟨taken, dropped⟩ := @takeWhile_append_of_head isWordChar left right
            fun all d head => joint.not_isWordChar (List.forall_mem_cons.mpr ⟨word, all⟩) head
          rw [if_pos word, taken, dropped]
        · next mark =>
          cases h
          rw [if_neg mark]

/-- A text without a first piece starts with a literal that never ends, or with the code of an
operator that is written otherwise. -/
theorem canonicalPiece_eq_error {c : Char} {rest : List Char} {fault : Error} :
    canonicalPiece c rest = .error fault ↔
      (c = '\'' ∧ '\'' ∉ rest ∧ fault = .unterminatedString) ∨
      (c ≠ '\'' ∧ rest.head?.bind (pairCode? c) = none ∧ isReservedCode c = true ∧
        fault = .reservedCharacter c) := by
  rw [← cutAfterQuote_eq_none]
  unfold canonicalPiece
  split
  · next quote =>
    simp only [quote, ne_eq, not_true_eq_false, false_and, or_false, true_and]
    cases cutAfterQuote rest with
    | none => simp [eq_comm]
    | some cut => simp
  · next noQuote =>
    simp only [noQuote, ne_eq, not_false_eq_true, false_and, false_or, true_and]
    cases rest.head?.bind (pairCode? c) with
    | some code => simp
    | none =>
      cases reserved : isReservedCode c with
      | true => simp [eq_comm]
      | false => cases isWordChar c <;> simp

/-- Each piece leaves the quotes in step. -/
theorem openAtEnd_of_canonicalPiece {c : Char} {rest piece after : List Char}
    (h : canonicalPiece c rest = .ok (piece, after)) :
    Text.openAtEnd false (c :: rest) = Text.openAtEnd false after := by
  unfold canonicalPiece at h
  split at h
  · next quote =>
    split at h
    · cases h
    · next found =>
      cases h
      obtain ⟨body, plain, rfl, rfl⟩ := exists_of_cutAfterQuote found
      have literal := Text.closed_literal plain
      rw [quote, List.append_cons, ← List.cons_append, Text.openAtEnd_append, ← List.cons_append,
        literal]
  · next noQuote =>
    rw [Text.openAtEnd_cons, Text.quoteAfter_of_ne noQuote]
    split at h
    · next code found =>
      cases h
      cases rest with
      | nil => rfl
      | cons d tail =>
        have second : d ≠ '\'' := by
          rintro rfl
          simp [pairCode?] at found
        rw [Text.openAtEnd_cons, Text.quoteAfter_of_ne second]
        rfl
    · split at h
      · cases h
      · split at h
        · cases h
          have plain : '\'' ∉ rest.takeWhile isWordChar := fun mem =>
            absurd (List.all_eq_true.mp List.all_takeWhile _ mem) (by decide)
          have whole := @List.takeWhile_append_dropWhile _ isWordChar rest
          rw [← congrArg (Text.openAtEnd false) whole, Text.openAtEnd_append,
            Text.openAtEnd_of_plain plain]
        · cases h
          rfl

/-- Behind a text whose literals all end, a joint changes nothing for its first piece. -/
theorem canonicalPiece_append_of_closed {c : Char} {left right : List Char}
    (joint : IsJoint (c :: left) right) (closed : Text.Closed (c :: left)) :
    canonicalPiece c (left ++ right) =
      (canonicalPiece c left).map fun cut => (cut.1, cut.2 ++ right) := by
  cases first : canonicalPiece c left with
  | ok cut => exact canonicalPiece_append joint first
  | error fault =>
    refine canonicalPiece_eq_error.mpr ?_
    rcases canonicalPiece_eq_error.mp first with ⟨rfl, plain, -⟩ | ⟨noQuote, noPair, reserved, same⟩
    · rw [Text.Closed, Text.openAtEnd_cons, Text.openAtEnd_of_plain plain] at closed
      cases closed
    · exact .inr ⟨noQuote, joint.pairCode?.trans noPair, reserved, same⟩

theorem suffix_of_canonicalPiece {c : Char} {rest piece after : List Char}
    (h : canonicalPiece c rest = .ok (piece, after)) : after <:+ rest := by
  unfold canonicalPiece at h
  split at h
  · split at h
    · cases h
    · next found =>
      cases h
      obtain ⟨body, -, -, rfl⟩ := exists_of_cutAfterQuote found
      exact ⟨body ++ ['\''], List.append_cons body '\'' after ▸ rfl⟩
  · split at h
    · cases h
      exact List.tail_suffix rest
    · split at h
      · cases h
      · split at h
        · cases h
          exact List.dropWhile_suffix isWordChar
        · cases h
          exact List.suffix_rfl

theorem canonicalChars_nil : canonicalChars [] = .ok [] := by
  rw [canonicalChars]

theorem canonicalChars_cons (c : Char) (rest : List Char) :
    canonicalChars (c :: rest) =
      canonicalPiece c rest >>= fun cut => (canonicalChars cut.2).map (cut.1 ++ ·) := by
  rw [canonicalChars]
  split
  · next failed =>
    rw [failed]
    rfl
  · next piece after found =>
    show (canonicalChars after).map (piece ++ ·) = _
    rw [found]
    rfl

theorem closed_of_canonicalChars {text canonical : List Char}
    (h : canonicalChars text = .ok canonical) : Text.Closed text := by
  -- The cases are those of the first piece: there is none, it is refused, it is read.
  induction text using canonicalChars.induct generalizing canonical with
  | case1 => rfl
  | case2 c rest fault failed =>
    rw [canonicalChars_cons, failed] at h
    cases h
  | case3 c rest piece after found _ ih =>
    rw [canonicalChars_cons, found] at h
    obtain ⟨tail, made, rfl⟩ := except_map_eq_ok.mp h
    rw [Text.Closed, openAtEnd_of_canonicalPiece found]
    exact ih made

/-- A text and what follows it are made canonical one after the other. -/
theorem canonicalChars_append_of_closed {left right : List Char} (joint : IsJoint left right)
    (closed : Text.Closed left) : canonicalChars (left ++ right) =
      canonicalChars left >>= fun first => (canonicalChars right).map (first ++ ·) := by
  induction left using canonicalChars.induct with
  | case1 =>
    rw [canonicalChars, List.nil_append, ok_bind]
    cases canonicalChars right with
    | error e => rfl
    | ok last => rfl
  | case2 c rest fault failed =>
    rw [List.cons_append, canonicalChars_cons, canonicalChars_cons,
      canonicalPiece_append_of_closed joint closed, failed]
    rfl
  | case3 c rest piece after found _ ih =>
    rw [List.cons_append, canonicalChars_cons, canonicalChars_cons,
      canonicalPiece_append_of_closed joint closed, found]
    rw [Text.Closed, openAtEnd_of_canonicalPiece found] at closed
    show Except.map _ (canonicalChars (after ++ right)) = _
    have still : IsJoint after right :=
      joint.of_suffix ((suffix_of_canonicalPiece found).trans (List.suffix_cons c rest))
    rw [ih still closed, ok_bind]
    cases canonicalChars after with
    | error e => rfl
    | ok middle =>
      cases canonicalChars right with
      | error e => rfl
      | ok last => simp [Except.map]

theorem canonicalChars_append {left right canonical : List Char} (joint : IsJoint left right)
    (h : canonicalChars left = .ok canonical) :
    canonicalChars (left ++ right) = (canonicalChars right).map (canonical ++ ·) := by
  rw [canonicalChars_append_of_closed joint (closed_of_canonicalChars h), h, ok_bind]

/-! ## What canonical texts consist of -/

/-- A text that does not start inside a word. -/
def StartsApart (text : List Char) : Prop := ∀ c, text.head? = some c → isWordChar c = false

/-- Texts that consist of literals, of marks and blanks, and of words that name no operator. -/
inductive Settled : List Char → Prop
  | nil : Settled []
  | literal {body rest : List Char} : '\'' ∉ body → Settled rest →
      Settled ('\'' :: (body ++ '\'' :: rest))
  | mark {c : Char} {rest : List Char} : c ≠ '\'' → isWordChar c = false → Settled rest →
      Settled (c :: rest)
  | word {c : Char} {tail rest : List Char} : (∀ d ∈ c :: tail, isWordChar d = true) →
      canonicalWord (c :: tail) = c :: tail → StartsApart rest → Settled rest →
      Settled (c :: (tail ++ rest))

theorem canonicalWord_cases (word : List Char) :
    canonicalWord word = word ∨
      ∃ code, code ≠ '\'' ∧ isWordChar code = false ∧ canonicalWord word = [code] := by
  unfold canonicalWord
  dsimp only
  split
  · exact .inr ⟨'&', by decide, by decide, rfl⟩
  · split
    · exact .inr ⟨'+', by decide, by decide, rfl⟩
    · split
      · exact .inr ⟨'~', by decide, by decide, rfl⟩
      · exact .inl rfl

theorem mem_of_pairCode? {first second code : Char} (h : pairCode? first second = some code) :
    code ∈ ['=', '!', '@', '£'] := by
  unfold pairCode? at h
  split at h
  · cases h
  · split at h
    · cases h; decide
    · split at h
      · cases h; decide
      · split at h
        · cases h; decide
        · split at h
          · cases h; decide
          · cases h

theorem pairCode?_apart {first second code : Char} (h : pairCode? first second = some code) :
    code ≠ '\'' ∧ isWordChar code = false := by
  have listed := mem_of_pairCode? h
  have marked : code ∈ marks := by
    simp only [marks, Operator.all, Operator.code, List.map_cons, List.map_nil, List.mem_cons] at *
    grind
  refine ⟨?_, not_isWordChar_of_mem_marks marked⟩
  rintro rfl
  exact absurd listed (by decide)

/-- The first piece of a canonical text is a literal, a mark, or a word that names no operator. -/
theorem canonicalPiece_cases {c : Char} {rest piece after : List Char}
    (h : canonicalPiece c rest = .ok (piece, after)) :
    (∃ body, '\'' ∉ body ∧ c = '\'' ∧ piece = '\'' :: (body ++ ['\''])) ∨
    (∃ mark, mark ≠ '\'' ∧ isWordChar mark = false ∧ piece = [mark]) ∨
    (isWordChar c = true ∧ piece = c :: rest.takeWhile isWordChar ∧
      after = rest.dropWhile isWordChar ∧ canonicalWord piece = piece) := by
  unfold canonicalPiece at h
  split at h
  · next quote =>
    split at h
    · cases h
    · next found =>
      cases h
      obtain ⟨body, plain, rfl, -⟩ := exists_of_cutAfterQuote found
      exact .inl ⟨body, plain, quote, rfl⟩
  · next noQuote =>
    split at h
    · next code found =>
      cases h
      obtain ⟨second, -, paired⟩ := Option.bind_eq_some_iff.mp found
      exact .inr (.inl ⟨code, (pairCode?_apart paired).1, (pairCode?_apart paired).2, rfl⟩)
    · split at h
      · cases h
      · split at h
        · next word =>
          cases h
          rcases canonicalWord_cases (c :: rest.takeWhile isWordChar) with same | ⟨code, apart⟩
          · exact .inr (.inr ⟨word, same, rfl, by rw [same, same]⟩)
          · exact .inr (.inl ⟨code, apart⟩)
        · next mark =>
          cases h
          exact .inr (.inl ⟨c, noQuote, by simpa using mark, rfl⟩)

theorem startsApart_dropWhile (text : List Char) : StartsApart (text.dropWhile isWordChar) := by
  intro c head
  have stopped := List.head?_dropWhile_not isWordChar text
  rw [head] at stopped
  exact stopped

theorem settled_canonicalChars {text canonical : List Char}
    (h : canonicalChars text = .ok canonical) :
    Settled canonical ∧ (StartsApart text → StartsApart canonical) := by
  induction text using canonicalChars.induct generalizing canonical with
  | case1 =>
    rw [canonicalChars] at h
    cases h
    exact ⟨.nil, id⟩
  | case2 c rest fault failed =>
    rw [canonicalChars_cons, failed] at h
    cases h
  | case3 c rest piece after found _ ih =>
    rw [canonicalChars_cons, found] at h
    obtain ⟨tail, made, rfl⟩ := except_map_eq_ok.mp h
    obtain ⟨settled, apart⟩ := ih made
    rcases canonicalPiece_cases found with ⟨body, plain, rfl, rfl⟩ | ⟨mark, noQuote, nonWord, rfl⟩ |
      ⟨word, rfl, rfl, unchanged⟩
    · refine ⟨by simpa using Settled.literal plain settled, fun start d head => ?_⟩
      cases head
      exact start '\'' rfl
    · refine ⟨.mark noQuote nonWord settled, fun _ d head => ?_⟩
      cases head
      exact nonWord
    · -- What is left of the word starts apart, so the next piece does not continue it.
      refine ⟨.word ?_ unchanged (apart (startsApart_dropWhile rest)) settled, fun start => ?_⟩
      · intro d mem
        rcases List.mem_cons.mp mem with rfl | later
        · exact word
        · exact List.all_eq_true.mp List.all_takeWhile d later
      · rw [start c rfl] at word
        cases word

/-! ## Operands of canonical texts -/

/-- A run of characters that is one operand of a canonical text and its own canonical form. -/
structure IsPlainOperand (text : List Char) : Prop where
  some : text ≠ []
  chars : ∀ c ∈ text, isOperandChar c = true
  canonical : canonicalChars text = .ok text

theorem isOperandChar_ne {c mark : Char} (h : isOperandChar c = true) (marked : mark ∈ marks) :
    c ≠ mark := by
  rintro rfl
  exact (isOperandChar_eq_true_iff.mp h).2 marked

theorem isReservedCode_of_isOperandChar {c : Char} (h : isOperandChar c = true) :
    isReservedCode c = false := by
  cases reserved : isReservedCode c with
  | false => rfl
  | true =>
    have marked : ∀ code ∈ ['!', '@', '£', '~', '&', '+'], code ∈ marks :=
      Text.forall_of_all (by decide)
    exact absurd (marked c (List.contains_iff_mem.mp reserved)) (isOperandChar_eq_true_iff.mp h).2

/-- Between operand characters no two characters write an operator. -/
theorem canonicalPiece_of_operand {c : Char} {rest : List Char} (h : isOperandChar c = true)
    (next : ∀ d, rest.head? = some d → isOperandChar d = true) :
    canonicalPiece c rest =
      if isWordChar c = true then
        .ok (canonicalWord (c :: rest.takeWhile isWordChar), rest.dropWhile isWordChar)
      else .ok ([c], rest) := by
  have noPair : rest.head?.bind (pairCode? c) = none := by
    cases rest with
    | nil => rfl
    | cons d tail =>
      have apart : d ≠ '=' := isOperandChar_ne (next d rfl) (by decide)
      simp [pairCode?, apart]
  rw [canonicalPiece, if_neg (isOperandChar_ne h (by decide)), noPair]
  simp only [isReservedCode_of_isOperandChar h]
  rfl

theorem canonicalChars_of_word {word : List Char} (some : word ≠ [])
    (letters : ∀ c ∈ word, isWordChar c = true) :
    canonicalChars word = .ok (canonicalWord word) := by
  obtain ⟨c, rest, rfl⟩ := List.exists_cons_of_ne_nil some
  rw [List.forall_mem_cons] at letters
  rw [canonicalChars_cons, canonicalPiece_of_operand (isOperandChar_of_isWordChar letters.1)
    fun d head => isOperandChar_of_isWordChar (letters.2 d (List.mem_of_mem_head? head)),
    if_pos letters.1, List.takeWhile_eq_self_iff.mpr letters.2,
    List.dropWhile_eq_nil_iff.mpr letters.2, ok_bind, canonicalChars_nil]
  simp [Except.map]

theorem takeWhile_operand_head (text : List Char) (c : Char)
    (head : (text.takeWhile isOperandChar).head? = some c) : isOperandChar c = true :=
  List.all_eq_true.mp List.all_takeWhile c (List.mem_of_mem_head? head)

/-- The operand characters at the start of a settled text are their own canonical form, and what
follows them is settled. -/
theorem Settled.takeWhile_operand {text : List Char} (settled : Settled text) :
    canonicalChars (text.takeWhile isOperandChar) = .ok (text.takeWhile isOperandChar) ∧
      Settled (text.dropWhile isOperandChar) := by
  induction settled with
  | nil => exact ⟨by simp [canonicalChars], .nil⟩
  | @literal body rest plain settled _ =>
    have stop : isOperandChar '\'' = false := by decide
    simp only [List.takeWhile_cons, List.dropWhile_cons, stop]
    exact ⟨by simp [canonicalChars], .literal plain settled⟩
  | @mark c rest noQuote nonWord settled ih =>
    cases operand : isOperandChar c with
    | false =>
      simp only [List.takeWhile_cons, List.dropWhile_cons, operand]
      exact ⟨by simp [canonicalChars], .mark noQuote nonWord settled⟩
    | true =>
      simp only [List.takeWhile_cons, List.dropWhile_cons, operand, if_true]
      refine ⟨?_, ih.2⟩
      rw [canonicalChars_cons, canonicalPiece_of_operand operand (takeWhile_operand_head rest),
        nonWord]
      show Except.map _ (canonicalChars (rest.takeWhile isOperandChar)) = _
      rw [ih.1]
      rfl
  | @word c tail rest word unchanged apart settled ih =>
    have operands : ∀ d ∈ c :: tail, isOperandChar d = true := fun d mem =>
      isOperandChar_of_isWordChar (word d mem)
    have taken : (c :: (tail ++ rest)).takeWhile isOperandChar =
        c :: (tail ++ rest.takeWhile isOperandChar) := by
      rw [← List.cons_append, List.takeWhile_append_of_pos operands]
      rfl
    have dropped : (c :: (tail ++ rest)).dropWhile isOperandChar = rest.dropWhile isOperandChar := by
      rw [← List.cons_append, List.dropWhile_append_of_pos operands]
    rw [taken, dropped]
    refine ⟨?_, ih.2⟩
    -- The word ends where it ended before, and is read as the same word again.
    have stop : StartsApart (rest.takeWhile isOperandChar) := by
      intro d head
      cases rest with
      | nil => cases head
      | cons d' more =>
        rw [List.takeWhile_cons] at head
        split at head
        · exact apart d head
        · cases head
    have letters : ∀ d ∈ tail, isWordChar d = true := fun d mem =>
      word d (List.mem_cons_of_mem c mem)
    have next : ∀ d, (tail ++ rest.takeWhile isOperandChar).head? = some d →
        isOperandChar d = true := by
      intro d head
      rcases List.mem_append.mp (List.mem_of_mem_head? head) with mem | mem
      · exact isOperandChar_of_isWordChar (letters d mem)
      · exact List.all_eq_true.mp List.all_takeWhile d mem
    obtain ⟨cutWord, cutRest⟩ := @takeWhile_append_of_head isWordChar tail _ fun _ => stop
    rw [canonicalChars_cons, canonicalPiece_of_operand (operands c List.mem_cons_self) next,
      if_pos (word c List.mem_cons_self), cutWord, cutRest, List.takeWhile_eq_self_iff.mpr letters,
      List.dropWhile_eq_nil_iff.mpr letters, unchanged, ok_bind]
    show Except.map _ (canonicalChars (rest.takeWhile isOperandChar)) = _
    rw [ih.1]
    rfl

theorem lexemes_cons (c : Char) (rest : List Char) :
    lexemes (c :: rest) = (firstLexeme c rest).1.toList ++ lexemes (firstLexeme c rest).2 := by
  rw [lexemes]

/-- A literal, or a run of characters that is its own canonical form. -/
def IsSettledOperand (text : List Char) : Prop :=
  (∃ body, '\'' ∉ body ∧ text = '\'' :: body ++ ['\'']) ∨ IsPlainOperand text

theorem firstLexeme_literal {body : List Char} (plain : '\'' ∉ body) (rest : List Char) :
    firstLexeme '\'' (body ++ '\'' :: rest) =
      (some (.operand (String.ofList ('\'' :: body ++ ['\'']))), rest) := by
  have notBlank : Text.isBlank '\'' = false := by decide
  simp [firstLexeme, notBlank, cutAfterQuote_append_cons plain]

/-- A character that is in no operand is a lexeme by itself, or none. -/
theorem firstLexeme_mark {c : Char} (noQuote : c ≠ '\'') (h : isOperandChar c = false) :
    ∃ first, (∀ text, first ≠ some (.operand text)) ∧
      ∀ rest, firstLexeme c rest = (first, rest) := by
  unfold firstLexeme
  split
  · exact ⟨none, nofun, fun _ => rfl⟩
  split
  · exact ⟨some .opening, nofun, fun _ => rfl⟩
  split
  · exact ⟨some .closing, nofun, fun _ => rfl⟩
  split
  · next op found => exact ⟨some (.operator op), nofun, fun _ => rfl⟩
  · next noCode => simp_all [isOperandChar]

theorem firstLexeme_operand {c : Char} (h : isOperandChar c = true) (rest : List Char) :
    firstLexeme c rest =
      (some (.operand (String.ofList (c :: rest.takeWhile isOperandChar))),
        rest.dropWhile isOperandChar) := by
  simp only [isOperandChar, Bool.not_eq_true', Bool.or_eq_false_iff, beq_eq_false_iff_ne,
    Option.isSome_eq_false_iff, Option.isNone_iff_eq_none] at h
  obtain ⟨⟨⟨⟨blank, opening⟩, closing⟩, quote⟩, noCode⟩ := h
  simp [firstLexeme, blank, opening, closing, quote, noCode]

/-- What follows the first lexeme of a settled text is settled, and so is that lexeme. -/
theorem Settled.firstLexeme {c : Char} {rest : List Char} (settled : Settled (c :: rest)) :
    Settled (firstLexeme c rest).2 ∧ ∀ text,
      (Condition.firstLexeme c rest).1 = some (.operand text) → IsSettledOperand text.toList := by
  cases operand : isOperandChar c with
  | true =>
    have settledRun := settled.takeWhile_operand
    rw [List.takeWhile_cons_of_pos operand, List.dropWhile_cons_of_pos operand] at settledRun
    rw [firstLexeme_operand operand]
    refine ⟨settledRun.2, fun text same => .inr ?_⟩
    cases same
    rw [String.toList_ofList]
    refine ⟨List.cons_ne_nil _ _, fun d mem => ?_, settledRun.1⟩
    rcases List.mem_cons.mp mem with rfl | later
    · exact operand
    · exact List.all_eq_true.mp List.all_takeWhile d later
  | false =>
    cases settled with
    | literal plain settled =>
      rw [firstLexeme_literal plain]
      refine ⟨settled, fun text same => .inl ⟨_, plain, ?_⟩⟩
      cases same
      exact String.toList_ofList
    | mark noQuote _ settled =>
      obtain ⟨first, noOperand, single⟩ := firstLexeme_mark noQuote operand
      rw [single]
      exact ⟨settled, fun text same => absurd same (noOperand text)⟩
    | word letters =>
      -- A word starts with a character of operands.
      rw [isOperandChar_of_isWordChar (letters c List.mem_cons_self)] at operand
      cases operand

theorem operand_of_mem_lexemes {text : List Char} (settled : Settled text) {operand : String}
    (h : .operand operand ∈ lexemes text) : IsSettledOperand operand.toList := by
  induction text using lexemes.induct with
  | case1 =>
    rw [lexemes] at h
    cases h
  | case2 c rest _ ih =>
    rw [lexemes_cons, List.mem_append, Option.mem_toList] at h
    rcases h with first | later
    · exact settled.firstLexeme.2 operand first
    · exact ih settled.firstLexeme.1 later

/-! ## Operands of compiled conditions -/

/-- Arranging lexemes makes up no operands. -/
theorem operand_of_mem_arrange {stack : List Frame} {lexemes : List Lexeme} {terms : List Term}
    (h : arrange stack lexemes = .ok terms) {text : String} (mem : .operand text ∈ terms) :
    .operand text ∈ lexemes := by
  fun_induction arrange stack lexemes generalizing terms with
  | case1 stack =>
    unfold flush at h
    dsimp only at h
    split at h
    · cases h
    · split at h
      · cases h
      · cases h
        obtain ⟨op, -, same⟩ := List.mem_map.mp mem
        cases same
  | case2 stack rest ih => exact List.mem_cons_of_mem _ (ih h mem)
  | case3 stack op rest ih => exact List.mem_cons_of_mem _ (ih h mem)
  | case4 stack first rest ih =>
    obtain ⟨later, arranged, rfl⟩ := except_map_eq_ok.mp h
    rcases List.mem_cons.mp mem with same | mem
    · cases same
      exact List.mem_cons_self
    · exact List.mem_cons_of_mem _ (ih arranged mem)
  | case5 stack op rest ih =>
    obtain ⟨later, arranged, rfl⟩ := except_map_eq_ok.mp h
    rcases List.mem_cons.mp mem with same | mem
    · cases same
    · exact List.mem_cons_of_mem _ (ih arranged mem)
  | case6 stack rest ih => exact List.mem_cons_of_mem _ (ih h mem)
  | case7 => cases h
  | case8 => cases h

end TabStore.Condition
