import Mathlib.Data.List.TakeWhile
import TabStore.Proofs.Text.Unquoted

/-!
# Trimmed texts

A text that neither starts nor ends with white space is not changed by trimming, and a trimmed text
is such a text.
-/

namespace TabStore.Text

theorem trimStart_of_head {text : List Char}
    (h : ∀ c, text.head? = some c → isBlank c = false) : trimStart text = text := by
  cases text with
  | nil => rfl
  | cons c rest => exact List.dropWhile_cons_of_neg (by simp [h c rfl])

theorem trimEnd_of_last {text : List Char}
    (h : ∀ c, text.getLast? = some c → isBlank c = false) : trimEnd text = text := by
  have kept : text.reverse.dropWhile isBlank = text.reverse :=
    trimStart_of_head fun c head => h c (by rwa [List.head?_reverse] at head)
  rw [trimEnd, kept, List.reverse_reverse]

theorem trim_of_ends {text : List Char} (first : ∀ c, text.head? = some c → isBlank c = false)
    (last : ∀ c, text.getLast? = some c → isBlank c = false) : trim text = text := by
  rw [trim, trimStart_of_head first, trimEnd_of_last last]

theorem trimEnd_append_blank {text : List Char} {c : Char} (blank : isBlank c = true) :
    trimEnd (text ++ [c]) = trimEnd text := by
  simp [trimEnd, blank]

theorem trimEnd_of_blank {text : List Char} (white : ∀ c ∈ text, isBlank c = true) :
    trimEnd text = [] := by
  rw [trimEnd, List.reverse_eq_nil_iff, List.dropWhile_eq_nil_iff]
  exact fun c mem => white c (List.mem_reverse.mp mem)

/-- What trimming takes from the end of a text is white space. -/
theorem trimEnd_append (text : List Char) :
    ∃ rest, (∀ c ∈ rest, isBlank c = true) ∧ text = trimEnd text ++ rest := by
  refine ⟨(text.reverse.takeWhile isBlank).reverse, fun c mem => ?_, ?_⟩
  · exact List.all_eq_true.mp List.all_takeWhile c (List.mem_reverse.mp mem)
  · rw [trimEnd, ← List.reverse_append, List.takeWhile_append_dropWhile, List.reverse_reverse]

theorem trimEnd_append_of_last {left : List Char}
    (last : ∀ c, left.getLast? = some c → isBlank c = false) (right : List Char) :
    trimEnd (left ++ right) = left ++ trimEnd right := by
  have kept : left.reverse.dropWhile isBlank = left.reverse :=
    trimStart_of_head fun c head => last c (by rwa [List.head?_reverse] at head)
  rw [trimEnd, trimEnd, List.reverse_append, List.dropWhile_append]
  split
  · next gone => simp [kept, List.isEmpty_iff.mp gone]
  · simp

theorem head?_dropWhile {p : Char → Bool} {text : List Char} {c : Char}
    (h : (text.dropWhile p).head? = some c) : p c = false := by
  have stopped := List.head?_dropWhile_not p text
  rw [h] at stopped
  simpa using stopped

/-- A trimmed text neither starts nor ends with white space. -/
theorem ends_trim (text : List Char) :
    (∀ c, (trim text).head? = some c → isBlank c = false) ∧
      ∀ c, (trim text).getLast? = some c → isBlank c = false := by
  have last : ∀ c, (trim text).getLast? = some c → isBlank c = false := by
    intro c last
    rw [trim, trimEnd, List.getLast?_reverse] at last
    exact head?_dropWhile last
  refine ⟨fun c head => ?_, last⟩
  obtain ⟨rest, -, whole⟩ := trimEnd_append (trimStart text)
  have start : (trimStart text).head? = some c := by
    rw [whole, List.head?_append, ← trim, head]
    rfl
  exact head?_dropWhile start

theorem mem_of_mem_trimEnd {text : List Char} {c : Char} (h : c ∈ trimEnd text) : c ∈ text :=
  List.mem_reverse.mp ((List.dropWhile_sublist _).mem (List.mem_reverse.mp h))

theorem mem_of_mem_trim {text : List Char} {c : Char} (h : c ∈ trim text) : c ∈ text :=
  (List.dropWhile_sublist _).mem (mem_of_mem_trimEnd h)

theorem trim_ne_nil {text : List Char} (h : text.all isBlank = false) : trim text ≠ [] := by
  intro nothing
  rw [trim, trimEnd, List.reverse_eq_nil_iff, List.dropWhile_eq_nil_iff] at nothing
  have blank : ∀ c ∈ trimStart text, isBlank c = true := fun c mem =>
    nothing c (List.mem_reverse.mpr mem)
  rw [← Bool.not_eq_true, List.all_eq_true] at h
  refine h fun c mem => ?_
  rw [← @List.takeWhile_append_dropWhile _ isBlank text] at mem
  rcases List.mem_append.mp mem with before | after
  · exact List.all_eq_true.mp List.all_takeWhile c before
  · exact blank c after

/-- A text without unquoted white space neither starts nor ends with white space. -/
theorem Free.ends {text : List Char} (free : Free isBlank false text) (closed : Closed text) :
    (∀ c, text.head? = some c → isBlank c = false) ∧
      ∀ c, text.getLast? = some c → isBlank c = false := by
  constructor
  · intro c head
    cases text with
    | nil => cases head
    | cons d rest =>
      cases head
      exact free.1 rfl
  · intro c last
    obtain ⟨front, rfl⟩ := List.getLast?_eq_some_iff.mp last
    rw [free_append] at free
    rw [Closed, openAtEnd_append] at closed
    cases isOpen : openAtEnd false front with
    | false =>
      rw [isOpen] at free
      exact free.2.1 rfl
    | true =>
      -- The literal that is open here ends with the last character.
      rw [isOpen] at closed
      by_cases quote : c = '\''
      · rw [quote]
        decide
      · rw [openAtEnd_cons, quoteAfter_of_ne quote] at closed
        cases closed

end TabStore.Text
