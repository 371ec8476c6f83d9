import Mathlib.Data.List.Infix
import TabStore.Conversation
import TabStore.Proofs.Text.Lines

/-!
# Marks between replies

A reply ends with a mark: a line feed, the end-of-transmission character and a line feed. A mark in
the middle of a text would need a line that holds this character and nothing else.

Results:
1. `mark_infix_append`: a mark is not split by a longer piece without line feeds;
2. `not_mark_infix_unlines`: lines other than the character alone hold no mark;
3. `Woven.isFrame`: neither does a text into which another text without marks is woven;
4. `frames_flatten`: a text is cut behind its marks into the frames that it is made of.
-/

namespace TabStore

/-- What a reply ends with. -/
def mark : List Char := ['\n', '\x04', '\n']

namespace Text

variable {front text rest part : List Char}

/-! ## Where marks are -/

theorem mark_infix_of_append (free : '\n' ∉ text) (h : mark <:+: text ++ rest) :
    mark <:+: rest := by
  induction text with
  | nil => exact h
  | cons c tail ih =>
    rw [List.mem_cons, not_or] at free
    rw [List.cons_append, List.infix_cons_iff] at h
    refine h.elim (fun starts => ?_) (ih free.2)
    exact absurd (List.cons_prefix_cons.mp starts).1 free.1

/-- A mark does not reach across two characters that are no line feeds. -/
theorem mark_infix_append (free : '\n' ∉ text) (long : 2 ≤ text.length)
    (h : mark <:+: front ++ (text ++ rest)) : mark <:+: front ∨ mark <:+: rest := by
  induction front with
  | nil => exact .inr (mark_infix_of_append free h)
  | cons c tail ih =>
    rw [List.cons_append, List.infix_cons_iff] at h
    rcases h with starts | later
    · -- A mark that starts here ends before the piece does.
      match tail, text, long with
      | [], first :: second :: more, _ =>
        simp [mark] at starts
        simp [← starts.2.2] at free
      | [next], first :: more, _ =>
        simp [mark] at starts
        simp [← starts.2.2] at free
      | next :: last :: more, _, _ =>
        simp [mark] at starts
        obtain ⟨rfl, rfl, rfl⟩ := starts
        exact .inl ⟨[], more, rfl⟩
    · exact (ih later).imp_left fun inside => List.infix_cons inside

/-- A line is no part of a mark unless it is the character alone. -/
theorem mark_infix_line (free : '\n' ∉ text) (other : text ≠ ['\x04'])
    (h : mark <:+: '\n' :: (text ++ '\n' :: rest)) : mark <:+: '\n' :: rest := by
  rw [List.infix_cons_iff] at h
  rcases h with starts | later
  · match text with
    | [] => simp [mark] at starts
    | [c] =>
      simp [mark] at starts
      exact absurd (by rw [starts]) other
    | first :: second :: more =>
      simp [mark] at starts
      simp [← starts.2] at free
  · exact mark_infix_of_append free later

/-- Lines other than the character alone hold no mark, also with the start of one behind them. -/
theorem not_mark_infix_unlines {lines : List String} (free : ∀ line ∈ lines, '\n' ∉ line.toList)
    (other : ∀ line ∈ lines, line.toList ≠ ['\x04']) :
    ¬ mark <:+: '\n' :: ((unlines lines).toList ++ ['\n', '\x04']) := by
  induction lines with
  | nil => decide
  | cons line lines ih =>
    rw [List.forall_mem_cons] at free other
    rw [toList_unlines_cons, List.append_assoc, List.cons_append]
    exact fun inside => ih free.2 other.2 (mark_infix_line free.1 other.1 inside)

/-! ## Texts woven into lines -/

/-- A line, or pieces of one with copies of `part` between them. -/
inductive Woven (part : List Char) : List Char → Prop
  | line {text : List Char} (free : '\n' ∉ text) (long : 2 ≤ text.length) : Woven part text
  | cons {text rest : List Char} (free : '\n' ∉ text) (long : 2 ≤ text.length)
    (h : Woven part rest) : Woven part (text ++ (part ++ rest))

theorem Woven.append (h : Woven part text) (free : '\n' ∉ front) : Woven part (front ++ text) := by
  have both : ∀ {text : List Char}, '\n' ∉ text → '\n' ∉ front ++ text := fun here mem =>
    (List.mem_append.mp mem).elim free here
  have longer : ∀ {text : List Char}, 2 ≤ text.length → 2 ≤ (front ++ text).length := by
    intro text long
    rw [List.length_append]
    exact Nat.le_add_left_of_le long
  cases h with
  | line here long => exact .line (both here) (longer long)
  | cons here long later =>
    rw [← List.append_assoc]
    exact .cons (both here) (longer long) later

theorem Woven.mark_in_front (h : Woven part text) (unmarked : ¬ mark <:+: part)
    (inside : mark <:+: front ++ (text ++ ['\n', '\x04'])) : mark <:+: front := by
  induction h generalizing front with
  | line free long => exact (mark_infix_append free long inside).resolve_right (by decide)
  | cons free long _ ih =>
    rw [List.append_assoc, List.append_assoc] at inside
    exact (mark_infix_append free long inside).resolve_right fun later => unmarked (ih later)

/-! ## Frames -/

/-- A text that ends with a mark and holds no other one. -/
def IsFrame (text : List Char) : Prop :=
  ∃ body, text = body ++ mark ∧ ¬ mark <:+: body ++ ['\n', '\x04']

/-- The pieces of a text up to and with each mark, and what is left behind the last one. -/
def frames : List Char → List (List Char)
  | '\n' :: '\x04' :: '\n' :: rest => mark :: frames rest
  | c :: rest =>
    match frames rest with
    | [] => [[c]]
    | first :: more => (c :: first) :: more
  | [] => []

theorem IsFrame.append_line (h : IsFrame text) (free : '\n' ∉ front) : IsFrame (front ++ text) := by
  obtain ⟨body, rfl, unmarked⟩ := h
  refine ⟨front ++ body, (List.append_assoc front body mark).symm, fun inside => unmarked ?_⟩
  rw [List.append_assoc] at inside
  exact mark_infix_of_append free inside

theorem Woven.isFrame (h : Woven part text) (unmarked : ¬ mark <:+: part) :
    IsFrame (text ++ mark) :=
  ⟨text, rfl, fun inside => absurd (@Woven.mark_in_front [] _ _ h unmarked inside) (by decide)⟩

theorem isFrame_unlines {first : List Char} {lines : List String} (start : '\n' ∉ first)
    (free : ∀ line ∈ lines, '\n' ∉ line.toList) (other : ∀ line ∈ lines, line.toList ≠ ['\x04']) :
    IsFrame (first ++ '\n' :: ((unlines lines).toList ++ mark)) := by
  refine ⟨first ++ '\n' :: (unlines lines).toList, by simp, fun inside => ?_⟩
  rw [List.append_assoc, List.cons_append] at inside
  exact not_mark_infix_unlines free other (mark_infix_of_append start inside)

/-- The mark of a frame is at its end. -/
theorem IsFrame.eq_nil (h : IsFrame text) (same : text = front ++ mark ++ rest) : rest = [] := by
  obtain ⟨body, rfl, unmarked⟩ := h
  by_contra some
  have shorter := congrArg List.dropLast same
  rw [List.dropLast_append_of_ne_nil some] at shorter
  refine unmarked ⟨front, rest.dropLast, ?_⟩
  rw [← shorter]
  simp [mark]

theorem frames_cons {c : Char} (other : ¬ mark <+: c :: rest) :
    frames (c :: rest) = match frames rest with
      | [] => [[c]]
      | first :: more => (c :: first) :: more := by
  rw [frames.eq_def]
  split
  · next more same =>
    rw [same] at other
    exact absurd ⟨more, rfl⟩ other
  · next c' rest' _ same =>
    cases same
    rfl
  · next same => cases same

/-- A frame is cut off behind its mark. -/
theorem IsFrame.frames_append (h : IsFrame text) (rest : List Char) :
    frames (text ++ rest) = text :: frames rest := by
  obtain ⟨body, rfl, unmarked⟩ := h
  induction body with
  | nil => rfl
  | cons c tail ih =>
    rw [List.cons_append, List.infix_cons_iff, not_or] at unmarked
    have other : ¬ mark <+: c :: (tail ++ mark ++ rest) := by
      intro starts
      have whole : c :: (tail ++ ['\n', '\x04']) <+: c :: (tail ++ mark ++ rest) :=
        ⟨'\n' :: rest, by simp [mark]⟩
      exact unmarked.1 (List.prefix_of_prefix_length_le starts whole (by simp [mark]))
    rw [List.cons_append, List.cons_append, frames_cons other, ih unmarked.2]

theorem IsFrame.frames_ne (h : IsFrame text) (some : rest ≠ []) :
    frames (text ++ rest) ≠ [text ++ rest] := by
  rw [h.frames_append]
  exact fun same => some (List.self_eq_append_right.mp (List.cons.inj same).1)

/-- Frames are recovered from the text that they make up together. -/
theorem frames_flatten {texts : List (List Char)} (h : ∀ text ∈ texts, IsFrame text) :
    frames texts.flatten = texts := by
  induction texts with
  | nil => rfl
  | cons text texts ih =>
    rw [List.forall_mem_cons] at h
    rw [List.flatten_cons, h.1.frames_append, ih h.2]

end Text

end TabStore
