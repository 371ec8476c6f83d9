import Mathlib.Data.List.Basic
import TabStore.Number.Digits
import TabStore.Text.Split

/-!
# Lines and numbers that are read back

Texts written as lines are the lines that are read, and numbers written in decimal digits are the
numbers that are read.
-/

namespace TabStore

namespace Text

/-- Pieces joined by a separator that none of them has are split apart again. -/
theorem splitOn_intercalate {separator : Char} {pieces : List (List Char)} (some : pieces ≠ [])
    (free : ∀ piece ∈ pieces, separator ∉ piece) :
    splitOn separator ([separator].intercalate pieces) = pieces := by
  induction pieces with
  | nil => exact absurd rfl some
  | cons piece rest ih =>
    have here := free piece List.mem_cons_self
    cases rest with
    | nil =>
      rw [List.intercalate_singleton]
      exact splitOn_of_not_mem here
    | cons next more =>
      have later := ih (List.cons_ne_nil next more) fun other mem =>
        free other (List.mem_cons_of_mem piece mem)
      rw [List.intercalate_cons_cons, List.append_assoc, List.singleton_append,
        splitOn_append_cons _ here, later]

theorem not_mem_of_mem_splitOn {separator : Char} {text piece : List Char}
    (h : piece ∈ splitOn separator text) : separator ∉ piece := by
  induction text generalizing piece with
  | nil =>
    rw [List.mem_singleton.mp h]
    exact List.not_mem_nil
  | cons c rest ih =>
    rw [splitOn] at h
    split at h
    · rcases List.mem_cons.mp h with rfl | later
      · exact List.not_mem_nil
      · exact ih later
    · next apart =>
      cases pieces : splitOn separator rest with
      | nil => exact absurd pieces (splitOn_ne_nil separator rest)
      | cons first more =>
        rw [pieces] at h ih
        rcases List.mem_cons.mp h with rfl | later
        · exact List.not_mem_cons_of_ne_of_not_mem (Ne.symm apart) (ih List.mem_cons_self)
        · exact ih (List.mem_cons_of_mem first later)

theorem mem_of_mem_splitOn {separator : Char} {text piece : List Char}
    (h : piece ∈ splitOn separator text) {c : Char} (mem : c ∈ piece) : c ∈ text := by
  induction text generalizing piece with
  | nil =>
    rw [List.mem_singleton.mp h] at mem
    cases mem
  | cons d rest ih =>
    rw [splitOn] at h
    split at h
    · rcases List.mem_cons.mp h with rfl | later
      · cases mem
      · exact List.mem_cons_of_mem d (ih later mem)
    · cases pieces : splitOn separator rest with
      | nil => exact absurd pieces (splitOn_ne_nil separator rest)
      | cons first more =>
        rw [pieces] at h ih
        rcases List.mem_cons.mp h with rfl | later
        · rcases List.mem_cons.mp mem with rfl | inFirst
          · exact List.mem_cons_self
          · exact List.mem_cons_of_mem d (ih List.mem_cons_self inFirst)
        · exact List.mem_cons_of_mem d (ih (List.mem_cons_of_mem first later) mem)

theorem dropReturn_of_not_mem {line : List Char} (free : '\r' ∉ line) : dropReturn line = line := by
  rw [dropReturn, if_neg]
  intro last
  exact free (List.mem_of_getLast? last)

theorem mem_intercalate {α : Type} {separator : List α} {pieces : List (List α)} {a : α}
    (h : a ∈ separator.intercalate pieces) : a ∈ separator ∨ ∃ piece ∈ pieces, a ∈ piece := by
  induction pieces with
  | nil => cases h
  | cons piece rest ih =>
    cases rest with
    | nil =>
      rw [List.intercalate_singleton] at h
      exact .inr ⟨piece, List.mem_cons_self, h⟩
    | cons next more =>
      rw [List.intercalate_cons_cons, List.append_assoc, List.mem_append, List.mem_append] at h
      rcases h with here | between | later
      · exact .inr ⟨piece, List.mem_cons_self, here⟩
      · exact .inl between
      · rcases ih later with between | ⟨other, mem, inside⟩
        · exact .inl between
        · exact .inr ⟨other, List.mem_cons_of_mem piece mem, inside⟩

theorem toList_unlines_cons (text : String) (rest : List String) :
    (unlines (text :: rest)).toList = text.toList ++ '\n' :: (unlines rest).toList := by
  simp [unlines]

theorem splitOn_unlines {texts : List String} (free : ∀ text ∈ texts, '\n' ∉ text.toList) :
    splitOn '\n' (unlines texts).toList = texts.map String.toList ++ [[]] := by
  induction texts with
  | nil => rfl
  | cons text rest ih =>
    rw [toList_unlines_cons, splitOn_append_cons _ (free text List.mem_cons_self),
      ih fun other mem => free other (List.mem_cons_of_mem text mem)]
    rfl

theorem lines_unlines {texts : List String} (free : ∀ text ∈ texts, '\n' ∉ text.toList) :
    lines (unlines texts).toList = texts.map fun text => dropReturn text.toList := by
  rw [lines, splitOn_unlines free]
  simp

theorem mem_of_mem_dropReturn {line : List Char} {c : Char} (h : c ∈ dropReturn line) :
    c ∈ line := by
  unfold dropReturn at h
  split at h
  · exact (List.dropLast_sublist _).mem h
  · exact h

/-- A line feed is in no line. -/
theorem not_mem_of_mem_lines {text line : List Char} (h : line ∈ lines text) : '\n' ∉ line := by
  rcases List.mem_append.mp h with ended | last
  · obtain ⟨piece, mem, rfl⟩ := List.mem_map.mp ended
    have noFeed := not_mem_of_mem_splitOn ((List.dropLast_sublist _).mem mem)
    exact fun found => noFeed (mem_of_mem_dropReturn found)
  · split at last
    · cases last
    · rw [List.mem_singleton.mp last,
        List.getLastD_eq_getLast?, List.getLast?_eq_getLast_of_ne_nil (splitOn_ne_nil _ _)]
      exact not_mem_of_mem_splitOn (List.getLast_mem _)

/-- Whether a text ends with a carriage return is told by its last part, unless that is empty. -/
theorem dropReturn_append {left : List Char} (h : left.getLast? ≠ some '\r') (right : List Char) :
    dropReturn (left ++ right) = left ++ dropReturn right := by
  cases right with
  | nil =>
    rw [List.append_nil, dropReturn, if_neg h]
    exact (List.append_nil left).symm
  | cons c rest =>
    have some : c :: rest ≠ [] := List.cons_ne_nil c rest
    unfold dropReturn
    rw [List.getLast?_append_of_ne_nil _ some, List.dropLast_append_of_ne_nil some]
    split
    · rfl
    · rfl

theorem dropReturn_intercalate {separator : Char} (plain : separator ≠ '\r')
    (before : List (List Char)) (last : List Char) :
    dropReturn ([separator].intercalate (before ++ [last])) =
      [separator].intercalate (before ++ [dropReturn last]) := by
  induction before with
  | nil => rw [List.nil_append, List.nil_append, List.intercalate_singleton,
      List.intercalate_singleton]
  | cons piece rest ih =>
    have ends : (piece ++ [separator]).getLast? ≠ some '\r' := by
      rw [List.getLast?_concat]
      simpa using plain
    rw [List.cons_append, List.cons_append, List.intercalate_cons_of_ne_nil (by simp),
      List.intercalate_cons_of_ne_nil (by simp), dropReturn_append ends, ih]

end Text

namespace Number

theorem isDigits_toString (n : Nat) : isDigits (toString n).toList = true := by
  have digits : ∀ c ∈ Nat.toDigits 10 n, c.isDigit = true := fun c mem =>
    Nat.isDigit_of_mem_toDigits (by decide) (by decide) mem
  simpa [isDigits] using digits

theorem readBelow_toString {limit n : Nat} (h : n < limit) :
    readBelow limit (toString n).toList = some n := by
  have value_eq : value (toString n).toList = n := by
    rw [Nat.toString_eq_repr, Nat.toList_repr]
    exact Nat.ofDigitChars_toDigits (by decide) (by decide)
  have noPlus : ∀ rest, (toString n).toList ≠ '+' :: rest := by
    intro rest same
    have digits := isDigits_toString n
    rw [same] at digits
    cases digits
  rw [readBelow]
  · rw [isDigits_toString, value_eq]
    simp [h]
  · exact noPlus

end Number

end TabStore
