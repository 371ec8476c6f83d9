import TabStore.Proofs.Items
import TabStore.Proofs.Text.Pieces

/-!
# Lists and their layout

A list is read from its text without the unquoted white space, so lists with the same words are read
alike.

Results:
1. `stripParentheses_eq_ok`: what stands between the parentheses of a list;
2. `split_eq_ok_iff`, `split_eq_error_iff`: a text is split into what is left of its pieces, unless
   a literal never ends or nothing is left of a piece;
3. `split_of_removed`: texts that differ in unquoted white space have the same items;
4. `enclosedItems_of_words`: lists with the same words have the same items between their
   parentheses.
-/

namespace TabStore

open Text

namespace Items

theorem all_isBlank (text : List Char) :
    text.all isBlank = (removeUnquoted isBlank false text).isEmpty := by
  induction text with
  | nil => rfl
  | cons c rest ih =>
    rw [List.all_cons, removeUnquoted]
    cases blank : isBlank c with
    | true => exact ih
    | false => rfl

theorem stripParentheses_eq_ok {list inner : String} :
    stripParentheses list = .ok inner ↔ trim list.toList = '(' :: (inner.toList ++ [')']) := by
  unfold stripParentheses
  split
  · next rest found =>
    rw [found, List.cons_inj_right]
    split
    · next last =>
      obtain ⟨front, rfl⟩ := List.getLast?_eq_some_iff.mp last
      rw [List.dropLast_concat, List.append_left_inj, Except.ok.injEq, ← String.toList_inj,
        String.toList_ofList]
    · next last =>
      refine iff_of_false nofun ?_
      rintro rfl
      exact last List.getLast?_concat
  · next other => exact iff_of_false nofun fun same => other _ same

theorem removeUnquoted_concat {c : Char} (other : isBlank c = false) (text : List Char) :
    removeUnquoted isBlank false (text ++ [c]) = removeUnquoted isBlank false text ++ [c] := by
  rw [removeUnquoted_append isBlank_quote]
  simp [removeUnquoted, other]

/-- The first and the last character of a trimmed text are those of what is left of it. -/
theorem exists_enclosed_of_removed {text inner : List Char}
    (first : ∀ c, text.head? = some c → isBlank c = false)
    (last : ∀ c, text.getLast? = some c → isBlank c = false)
    (removed : removeUnquoted isBlank false text = '(' :: (inner ++ [')'])) :
    ∃ middle, text = '(' :: (middle ++ [')']) ∧ removeUnquoted isBlank false middle = inner := by
  cases text with
  | nil => cases removed
  | cons c rest =>
    have stays : ¬ (!false && isBlank c) = true := by simp [first c rfl]
    rw [removeUnquoted, if_neg stays, List.cons.injEq] at removed
    obtain ⟨rfl, removed⟩ := removed
    rw [quoteAfter_of_ne (by decide)] at removed
    rcases List.eq_nil_or_concat' rest with rfl | ⟨middle, d, rfl⟩
    · simp [removeUnquoted] at removed
    · have noBlank : isBlank d = false := last d (by rw [← List.cons_append, List.getLast?_concat])
      rw [removeUnquoted_concat noBlank] at removed
      obtain ⟨within, final⟩ := List.append_inj' removed rfl
      cases final
      exact ⟨middle, rfl, within⟩

/-- What stands between the unquoted commas of a text. -/
def pieces (text : String) : List (List Char) := splitUnquoted (· == ',') false text.toList

/-- What is left of a piece without its unquoted white space. -/
def compacted (piece : List Char) : String := String.ofList (removeUnquoted isBlank false piece)

theorem map_compacted_pieces (text : String) : (pieces text).map compacted =
    (splitUnquoted (· == ',') false (removeUnquoted isBlank false text.toList)).map
      String.ofList := by
  rw [splitUnquoted_removeUnquoted (by decide) isBlank_quote (isBlank_of_beq (by decide)),
    List.map_map]
  rfl

theorem split_of_not_closed {text : String} (isOpen : ¬ Closed text.toList) :
    split text = .error .unterminatedString := by
  rw [← closed_removeUnquoted isBlank_quote, Closed, Bool.not_eq_false] at isOpen
  exact if_pos isOpen

theorem split_of_closed {text : String} (closed : Closed text.toList) : split text =
    if "" ∈ (pieces text).map compacted then
      .error (.malformedList ("empty item in " ++ quoted text))
    else .ok ((pieces text).map compacted) := by
  have closedRest := (closed_removeUnquoted isBlank_quote).mpr closed
  have empty : (splitUnquoted (· == ',') false (removeUnquoted isBlank false text.toList)).any
      List.isEmpty = true ↔ "" ∈ (pieces text).map compacted := by
    rw [map_compacted_pieces, List.any_eq_true, List.mem_map]
    exact exists_congr fun piece => and_congr_right fun _ => by simp
  unfold split
  dsimp only
  rw [if_neg (Bool.eq_false_iff.mp closedRest), if_congr empty rfl rfl, map_compacted_pieces]

theorem split_eq_ok_iff {text : String} {items : List String} : split text = .ok items ↔
    Closed text.toList ∧ "" ∉ (pieces text).map compacted ∧
      (pieces text).map compacted = items := by
  by_cases closed : Closed text.toList
  · rw [split_of_closed closed]
    split_ifs with empty
    · simp [empty]
    · simp [closed, empty]
  · simp [split_of_not_closed closed, closed]

theorem split_eq_error_iff {text : String} {e : Error} : split text = .error e ↔
    ¬ Closed text.toList ∧ e = .unterminatedString ∨
    Closed text.toList ∧ "" ∈ (pieces text).map compacted ∧
      e = .malformedList ("empty item in " ++ quoted text) := by
  by_cases closed : Closed text.toList
  · rw [split_of_closed closed]
    split_ifs with empty
    · simp [closed, empty, @eq_comm _ e]
    · simp [closed, empty]
  · simp [split_of_not_closed closed, closed, @eq_comm _ e]

theorem closed_of_split {text : String} {items : List String} (h : split text = .ok items) :
    Closed text.toList :=
  (split_eq_ok_iff.mp h).1

theorem split_of_removed {text other : String} {items : List String} (same :
    removeUnquoted isBlank false text.toList = removeUnquoted isBlank false other.toList)
    (h : split text = .ok items) : split other = .ok items := by
  rw [split_eq_ok_iff, ← closed_removeUnquoted isBlank_quote, map_compacted_pieces] at h ⊢
  rwa [← same]

theorem closed_of_stripParentheses {list inner : String} (h : stripParentheses list = .ok inner)
    (closed : Closed inner.toList) : Closed list.toList := by
  have opening : Closed ['('] := closed_of_plain (by decide)
  have closing : Closed [')'] := closed_of_plain (by decide)
  rw [← closed_trim, stripParentheses_eq_ok.mp h]
  exact opening.append (closed.append closing)

section Words

variable {list other : String}

/-- Lists with the same words have the same text between their parentheses, but for the white
space. -/
theorem exists_stripParentheses (same : words list.toList = words other.toList) {inner : String}
    (stripped : stripParentheses list = .ok inner) (closed : Closed inner.toList) :
    ∃ otherInner, stripParentheses other = .ok otherInner ∧
      removeUnquoted isBlank false inner.toList =
        removeUnquoted isBlank false otherInner.toList := by
  have closedList := closed_of_stripParentheses stripped closed
  have closedOther := (closed_iff_of_words same).mp closedList
  have opening : ∀ rest, removeUnquoted isBlank false ('(' :: rest) =
      '(' :: removeUnquoted isBlank false rest := fun _ => rfl
  have closing : isBlank ')' = false := by decide
  have removed : removeUnquoted isBlank false (trim other.toList) =
      '(' :: (removeUnquoted isBlank false inner.toList ++ [')']) := by
    rw [← flatten_words, words_trim closedOther, ← same, ← words_trim closedList, flatten_words,
      stripParentheses_eq_ok.mp stripped, opening, removeUnquoted_concat closing]
  obtain ⟨first, last⟩ := ends_trim other.toList
  obtain ⟨middle, enclosed, within⟩ := exists_enclosed_of_removed first last removed
  refine ⟨String.ofList middle, stripParentheses_eq_ok.mpr ?_, ?_⟩
  · rw [enclosed, String.toList_ofList]
  · rw [String.toList_ofList, within]

/-- The items between parentheses as a reader of lists takes them. -/
def enclosedItems (empty : Error) (check : List String → Result (List String)) (list : String) :
    Result (List String) := do
  let inner ← stripParentheses list
  if isBlankText inner then .error empty else split inner >>= check

theorem attributes_eq_enclosedItems : attributes = enclosedItems (.malformedList "no attributes")
    fun names => do checkAttributes [idAttribute] names; return names := rfl

theorem values_eq_enclosedItems : values = enclosedItems (.malformedList "no values")
    fun raws => do checkLiterals raws; return raws := rfl

variable {empty : Error} {check : List String → Result (List String)} {items : List String}

theorem enclosedItems_eq_ok : enclosedItems empty check list = .ok items ↔
    ∃ inner found, stripParentheses list = .ok inner ∧ isBlankText inner = false ∧
      split inner = .ok found ∧ check found = .ok items := by
  rw [enclosedItems, bind_eq_ok]
  refine exists_congr fun inner => ?_
  cases blank : isBlankText inner with
  | true => simp
  | false => simp [bind_eq_ok]

/-- Lists with the same text between their parentheses, but for the white space, are read as the
same items. -/
theorem enclosedItems_of_removed {inner otherInner : String}
    (stripped : stripParentheses list = .ok inner)
    (otherStripped : stripParentheses other = .ok otherInner)
    (same : removeUnquoted isBlank false inner.toList =
      removeUnquoted isBlank false otherInner.toList)
    (h : enclosedItems empty check list = .ok items) :
    enclosedItems empty check other = .ok items := by
  obtain ⟨_, found, stripped', some, splits, checked⟩ := enclosedItems_eq_ok.mp h
  cases stripped.symm.trans stripped'
  have blank : isBlankText otherInner = isBlankText inner := by
    rw [isBlankText, isBlankText, all_isBlank, all_isBlank, same]
  exact enclosedItems_eq_ok.mpr
    ⟨otherInner, found, otherStripped, blank.trans some, split_of_removed same splits, checked⟩

/-- Lists with the same words are read as the same items. -/
theorem enclosedItems_of_words (same : words list.toList = words other.toList)
    (h : enclosedItems empty check list = .ok items) :
    enclosedItems empty check other = .ok items := by
  obtain ⟨inner, found, stripped, -, splits, -⟩ := enclosedItems_eq_ok.mp h
  obtain ⟨otherInner, otherStripped, removed⟩ :=
    exists_stripParentheses same stripped (closed_of_split splits)
  exact enclosedItems_of_removed stripped otherStripped removed h

theorem closed_of_enclosedItems (h : enclosedItems empty check list = .ok items) :
    Closed list.toList := by
  obtain ⟨inner, found, stripped, -, splits, -⟩ := enclosedItems_eq_ok.mp h
  exact closed_of_stripParentheses stripped (closed_of_split splits)

end Words

end Items

end TabStore
