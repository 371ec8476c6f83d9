import TabStore.Proofs.Items.Layout

/-!
# Lists and joined items

Two passes go over a list, one that removes white space and one that splits what is left, and each
keeps track of literals by itself. They agree: a text is split into items exactly if these items,
joined by commas, are the text without its unquoted white space.

Results:
1. `AreItems.split`, `areItems_of_split`: the items of a text are those that it is split into;
2. `values_of_isSpacedList`: literals are read from a list however it is spaced;
3. `split_exact`: what every text is split into, and why there are no items.
-/

namespace TabStore.Items

open Text

/-- Items that are the text without its unquoted white space once they are joined by commas. None of
them is empty, each of their commas stands inside a literal, and their literals end. -/
structure AreItems (text : String) (items : List String) : Prop where
  some : items ≠ []
  filled : ∀ item ∈ items, item ≠ ""
  even : ∀ item ∈ items, Even (item.toList.count '\'')
  quoted : ∀ item ∈ items, ∀ left right, item.toList = left ++ ',' :: right →
    Odd (left.count '\'')
  joined : ",".intercalate items = removeBlanks text

variable {text : String} {items raws : List String}

theorem free_comma_iff {item : List Char} : Free (· == ',') false item ↔
    ∀ left right, item = left ++ ',' :: right → Odd (left.count '\'') := by
  rw [free_iff_odd]
  constructor
  · exact fun quoted left right same => quoted left ',' right same rfl
  · rintro quoted left c right same comma
    rw [beq_iff_eq] at comma
    exact quoted left right (comma ▸ same)

theorem areItems_of_split (h : split text = .ok items) : AreItems text items := by
  obtain ⟨-, -, same⟩ := split_eq_ok_iff.mp h
  obtain ⟨some, pieces⟩ := split_eq_ok h
  refine ⟨some, fun item mem empty => ?_, fun item mem => ?_, fun item mem => ?_, ?_⟩
  · exact (pieces item mem).1.some (by rw [empty]; rfl)
  · exact closed_iff_even.mp (pieces item mem).1.closed
  · exact free_comma_iff.mp (pieces item mem).1.noComma
  · have texts : items.map String.toList = splitUnquoted (· == ',') false
        (removeUnquoted isBlank false text.toList) := by
      rw [← same, map_compacted_pieces, List.map_map]
      exact List.map_id'' (fun _ => String.toList_ofList) _
    rw [← String.toList_inj, String.toList_intercalate, texts, toList_removeBlanks]
    exact intercalate_splitUnquoted ',' false _

namespace AreItems

theorem toList_joined (h : AreItems text items) : [','].intercalate (items.map String.toList) =
    removeUnquoted isBlank false text.toList := by
  have joined := congrArg String.toList h.joined
  rwa [String.toList_intercalate, toList_removeBlanks] at joined

theorem free_closed (h : AreItems text items) :
    ∀ piece ∈ items.map String.toList, Free (· == ',') false piece ∧ Closed piece := by
  intro piece mem
  obtain ⟨item, found, rfl⟩ := List.mem_map.mp mem
  exact ⟨free_comma_iff.mpr (h.quoted item found), closed_iff_even.mpr (h.even item found)⟩

theorem split (h : AreItems text items) : split text = .ok items := by
  have closed : Closed text.toList := by
    rw [← closed_removeUnquoted isBlank_quote, ← h.toList_joined]
    exact closed_intercalate (by decide) fun piece mem => (h.free_closed piece mem).2
  have same : (pieces text).map compacted = items := by
    rw [map_compacted_pieces, ← h.toList_joined,
      splitUnquoted_intercalate (by decide) (by simpa using h.some) h.free_closed, List.map_map]
    exact List.map_id'' (fun _ => String.ofList_toList) _
  refine split_eq_ok_iff.mpr ⟨closed, fun empty => ?_, same⟩
  rw [same] at empty
  exact h.filled "" empty rfl

end AreItems

/-! ## Spaced lists -/

/-- A text with white space in front of it and behind it. -/
def IsSpaced (raw piece : String) : Prop :=
  ∃ before after, isBlankText before = true ∧ isBlankText after = true ∧
    piece = before ++ raw ++ after

/-- A list in parentheses, with white space around it, inside the parentheses and around the
commas. -/
def IsSpacedList (raws : List String) (list : String) : Prop :=
  ∃ pieces, List.Forall₂ IsSpaced raws pieces ∧ IsSpaced (enclosedList pieces) list

theorem isBlankText_iff : isBlankText text = true ↔ ∀ c ∈ text.toList, isBlank c = true :=
  List.all_eq_true

theorem stripParentheses_of_isSpaced {pieces : List String} {list : String}
    (spaced : IsSpaced (enclosedList pieces) list) :
    stripParentheses list = .ok (",".intercalate pieces) := by
  obtain ⟨before, after, white, white', rfl⟩ := spaced
  have texts :
      (enclosedList pieces).toList = '(' :: ((",".intercalate pieces).toList ++ [')']) := by
    simp [enclosedList]
  rw [stripParentheses_eq_ok, String.toList_append, String.toList_append, texts]
  refine trim_of_blanks (isBlankText_iff.mp white) (isBlankText_iff.mp white') ?_ ?_
  · rintro _ ⟨⟩
    decide
  · intro c last
    rw [← List.cons_append, List.getLast?_concat] at last
    cases last
    decide

theorem removeUnquoted_of_isSpaced {raw piece : String} (item : IsItem raw.toList)
    (spaced : IsSpaced raw piece) : Closed piece.toList ∧
      removeUnquoted isBlank false piece.toList = raw.toList := by
  obtain ⟨before, after, white, white', rfl⟩ := spaced
  have removed := removeUnquoted_of_blanks (isBlankText_iff.mp white) (isBlankText_iff.mp white')
    item.closed
  rw [removeUnquoted_of_free item.noBlank, ← String.toList_append,
    ← String.toList_append] at removed
  refine ⟨?_, removed⟩
  rw [← closed_removeUnquoted isBlank_quote, removed]
  exact item.closed

theorem removeUnquoted_of_spaced {pieces : List String} (items : ∀ raw ∈ raws, IsItem raw.toList)
    (spaced : List.Forall₂ IsSpaced raws pieces) :
    removeUnquoted isBlank false (",".intercalate pieces).toList =
      removeUnquoted isBlank false (",".intercalate raws).toList := by
  have kept : (∀ piece ∈ pieces.map String.toList, Closed piece) ∧
      (pieces.map String.toList).map (removeUnquoted isBlank false) = raws.map String.toList := by
    induction spaced with
    | nil => simp
    | cons first _ ih =>
      rw [List.forall_mem_cons] at items
      obtain ⟨closed, left⟩ := removeUnquoted_of_isSpaced items.1 first
      obtain ⟨closedRest, leftRest⟩ := ih items.2
      rw [List.map_cons, List.map_cons, List.map_cons, left, leftRest]
      exact ⟨List.forall_mem_cons.mpr ⟨closed, closedRest⟩, rfl⟩
  obtain ⟨noBlank, -⟩ := @free_intercalate_items raws isBlank (by decide) fun item mem =>
    ⟨(items item mem).noBlank, (items item mem).closed⟩
  rw [removeUnquoted_of_free noBlank, String.toList_intercalate, String.toList_intercalate,
    ← kept.2]
  exact removeUnquoted_intercalate isBlank_quote (by decide) (by decide) kept.1

/-- Literals are read from a list as they are written, whatever white space stands around them. -/
theorem values_of_isSpacedList (some : raws ≠ [])
    (literals : ∀ raw ∈ raws, Value.isLiteral raw = true) {list : String}
    (spaced : IsSpacedList raws list) : values list = .ok raws := by
  obtain ⟨pieces, within, around⟩ := spaced
  have items : ∀ raw ∈ raws, IsItem raw.toList := fun raw mem =>
    isItem_of_isLiteral (literals raw mem)
  have read := values_enclosed some literals
  rw [values_eq_enclosedItems] at read ⊢
  exact enclosedItems_of_removed (stripParentheses_enclosed raws)
    (stripParentheses_of_isSpaced around) (removeUnquoted_of_spaced items within).symm read

/-- A text is split into items exactly if they are its items, and then there are no others. A
literal that never ends and an empty item are the only reasons why there are none. A list of
literals is read as they are written, whatever white space stands around them. -/
theorem split_exact (text : String) :
    (∀ items, split text = .ok items ↔ AreItems text items) ∧
    (∀ items others, AreItems text items → AreItems text others → items = others) ∧
    (∀ e, split text = .error e ↔
      Odd (text.toList.count '\'') ∧ e = .unterminatedString ∨
      Even (text.toList.count '\'') ∧ (∀ items, ¬ AreItems text items) ∧
        e = .malformedList ("empty item in " ++ Text.quoted text)) ∧
    ∀ raws, raws ≠ [] → (∀ raw ∈ raws, Value.isLiteral raw = true) → IsSpacedList raws text →
      values text = .ok raws := by
  refine ⟨fun items => ⟨areItems_of_split, AreItems.split⟩, fun items others first second => ?_,
    fun e => ?_, fun raws some literals => values_of_isSpacedList some literals⟩
  · exact Except.ok.inj (first.split.symm.trans second.split)
  · -- If the literals end, a text without items has an empty one.
    rw [split_eq_error_iff, ← closed_iff_even, ← Nat.not_even_iff_odd, ← closed_iff_even]
    refine or_congr_right (and_congr_right fun closed => and_congr_left fun _ => ?_)
    constructor
    · exact fun empty items found => (split_eq_ok_iff.mp found.split).2.1 empty
    · intro none
      by_contra some
      exact none _ (areItems_of_split (split_eq_ok_iff.mpr ⟨closed, some, rfl⟩))

/-- A comma inside a literal separates nothing. -/
theorem split_exact_quoted_comma :
    AreItems " 'Ann, (Lee' ,20" ["'Ann, (Lee'", "20"] ∧
    (∀ items, AreItems " 'Ann, (Lee' ,20" items → items = ["'Ann, (Lee'", "20"]) ∧
    Odd ("20,'Ann".toList.count '\'') ∧ split "20,'Ann" = .error .unterminatedString ∧
    (∀ items, ¬ AreItems "20, ,30" items) ∧
    IsSpacedList ["'Ann, (Lee'", "20"] "( 'Ann, (Lee' ,\t20 )" ∧
    values "( 'Ann, (Lee' ,\t20 )" = .ok ["'Ann, (Lee'", "20"] := by
  obtain ⟨found, unique, -, -⟩ := split_exact " 'Ann, (Lee' ,20"
  obtain ⟨-, -, isOpen, -⟩ := split_exact "20,'Ann"
  obtain ⟨-, -, empty, -⟩ := split_exact "20, ,30"
  obtain ⟨-, -, -, spaced⟩ := split_exact "( 'Ann, (Lee' ,\t20 )"
  have items : AreItems " 'Ann, (Lee' ,20" ["'Ann, (Lee'", "20"] :=
    (found _).mp (by decide +kernel)
  have odd : Odd ("20,'Ann".toList.count '\'') := by decide +kernel
  have none := (empty _).mp (by decide +kernel : split "20, ,30" = .error
    (.malformedList "empty item in \"20, ,30\""))
  have list : IsSpacedList ["'Ann, (Lee'", "20"] "( 'Ann, (Lee' ,\t20 )" := by
    refine ⟨[" 'Ann, (Lee' ", "\t20 "], .cons ⟨" ", " ", ?_⟩ (.cons ⟨"\t", " ", ?_⟩ .nil),
      "", "", ?_⟩
    all_goals decide +kernel
  refine ⟨items, fun others listed => unique _ _ listed items, odd,
    (isOpen _).mpr (.inl ⟨odd, rfl⟩), ?_, list, spaced _ (by decide) (by decide +kernel) list⟩
  rcases none with ⟨odd', -⟩ | ⟨-, none, -⟩
  · exact absurd odd' (by decide +kernel)
  · exact none

end TabStore.Items
