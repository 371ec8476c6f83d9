import TabStore.Proofs.Items.Layout
import TabStore.Text.Split

/-!
# Items and what is written for them

An item is what is written between two commas without its unquoted white space. White space within a
number, a boolean or a name is no exception: the words on both sides of it become one item.

Results:
1. `isCompacted_of_closed`, `length_words_of_quoted`: an item is as it is written exactly if a
   single word is written for it, and a string literal always is;
2. `assignment_compacted`: the two sides of an assignment are what is written on both sides of the
   first unquoted equals sign;
3. `items_compacted`: the items of every list, and what is written for them;
4. `values_put_together`: two words become one number.
-/

namespace TabStore.Items

open Text

/-- What is read from a piece of a list: its words, put together. It is the trimmed piece, and
stands in the piece at all, exactly if that is a single word. String literals are. -/
structure IsCompacted (piece : List Char) (item : String) : Prop where
  eq_words : item.toList = (words piece).flatten
  eq_trim_iff : item.toList = trim piece ↔ (words piece).length = 1
  isInfix_iff : item.toList <:+: piece ↔ (words piece).length = 1
  quoted : '\'' ∈ item.toList → (words piece).length = 1

theorem toList_compacted (piece : List Char) :
    (compacted piece).toList = removeUnquoted isBlank false piece := String.toList_ofList

/-- A part of a string literal in which all literals end is the whole of it. -/
theorem eq_nil_of_closed {front back body : List Char} (plain : '\'' ∉ body) (some : front ≠ [])
    (closed : Closed front) (same : front ++ back = '\'' :: body ++ ['\'']) : back = [] := by
  rcases List.eq_nil_or_concat' back with rfl | ⟨middle, c, rfl⟩
  · rfl
  · -- Without the closing quote, the literal is open.
    obtain ⟨d, inside, rfl⟩ := List.exists_cons_of_ne_nil some
    rw [← List.append_assoc] at same
    have within := List.append_inj_left' same rfl
    rw [List.cons_append, List.cons.injEq] at within
    obtain ⟨rfl, rfl⟩ := within
    rw [List.mem_append, not_or] at plain
    have isOpen : openAtEnd false ('\'' :: inside) = true := openAtEnd_of_plain plain.1
    cases isOpen.symm.trans closed

theorem length_words_of_quoted {piece : List Char} (closed : Closed piece)
    (literal : Value.isLiteral (compacted piece) = true) (quote : '\'' ∈ (compacted piece).toList) :
    (words piece).length = 1 := by
  rcases Value.isLiteral_cases literal with ⟨body, same, plain, -⟩ | chars
  · rw [toList_compacted, ← flatten_words] at same
    have isWord := fun word mem => @isWord_of_mem_words piece closed word mem
    cases found : words piece with
    | nil =>
      rw [found] at same
      cases same
    | cons first rest =>
      rw [found, List.flatten_cons] at same
      rw [found, List.forall_mem_cons] at isWord
      -- The first word is the whole literal already.
      have nothing := eq_nil_of_closed plain isWord.1.some isWord.1.closed same
      cases rest with
      | nil => rfl
      | cons next more =>
        rw [List.flatten_cons, List.append_eq_nil_iff] at nothing
        exact absurd nothing.1 (isWord.2 next List.mem_cons_self).some
  · exact absurd (chars _ quote) (by decide)

theorem closed_of_mem_pieces {text : String} (closed : Closed text.toList) {piece : List Char}
    (mem : piece ∈ pieces text) : Closed piece :=
  (free_of_mem_splitUnquoted (q := isBlank) (by decide) mem).2.2 closed

theorem isCompacted_of_closed {piece : List Char} (closed : Closed piece)
    (some : (compacted piece).toList ≠ [])
    (quoted : '\'' ∈ (compacted piece).toList → (words piece).length = 1) :
    IsCompacted piece (compacted piece) := by
  rw [toList_compacted] at some
  refine ⟨?_, ?_, ?_, quoted⟩
  · rw [toList_compacted, flatten_words]
  · rw [toList_compacted, Text.eq_trim_iff closed some]
  · rw [toList_compacted, Text.isInfix_iff closed some]

theorem isCompacted_of_isName {piece : List Char} (closed : Closed piece)
    (isName : IsName (compacted piece)) : IsCompacted piece (compacted piece) :=
  isCompacted_of_closed closed isName.ne_nil fun quote => absurd quote isName.no_quote

theorem isCompacted_of_isLiteral {piece : List Char} (closed : Closed piece)
    (literal : Value.isLiteral (compacted piece) = true) : IsCompacted piece (compacted piece) :=
  isCompacted_of_closed closed (Value.ne_nil_of_isLiteral literal)
    (length_words_of_quoted closed literal)

/-- The pieces of a text that is split into items are compacted to them. -/
theorem forall₂_of_split {text : String} {items : List String} (h : split text = .ok items)
    {R : List Char → String → Prop}
    (each : ∀ piece, Closed piece → compacted piece ∈ items → R piece (compacted piece)) :
    List.Forall₂ R (pieces text) items := by
  obtain ⟨closed, -, rfl⟩ := split_eq_ok_iff.mp h
  rw [List.forall₂_map_right_iff, List.forall₂_same]
  intro piece mem
  exact each piece (closed_of_mem_pieces closed mem) (List.mem_map_of_mem mem)

/-! ## Assignments -/

/-- The two sides of what is written for an assignment: all in front of the first unquoted equals
sign, and all behind it. -/
structure AreSides (piece target value : List Char) : Prop where
  eq_append : piece = target ++ '=' :: value
  noEquals : Free (· == '=') false target
  closed : Closed target

theorem assignment_compacted {piece : List Char} {a : Assignment}
    (h : assignment (compacted piece) = .ok a) : ∃ target value, AreSides piece target value ∧
      a = ⟨compacted target, compacted value⟩ := by
  unfold assignment at h
  rw [toList_compacted,
    breakUnquoted_removeUnquoted (by decide) isBlank_quote (isBlank_of_beq (by decide))] at h
  rcases free_or_exists_separator (· == '=') false piece with
    free | ⟨target, c, value, rfl, free, closed, equals⟩
  · rw [breakUnquoted_of_free free] at h
    cases h
  · rw [breakUnquoted_append_cons free closed equals] at h
    obtain rfl := beq_iff_eq.mp equals
    cases h
    exact ⟨target, value, ⟨rfl, free, closed⟩, rfl⟩

theorem AreSides.closed_value {piece target value : List Char} (h : AreSides piece target value)
    (closed : Closed piece) : Closed value := by
  have whole := closed
  rwa [h.eq_append, Closed, openAtEnd_append, h.closed, openAtEnd_cons,
    quoteAfter_of_ne (by decide)] at whole

theorem forall₂_of_checkedAssignments {seen pairs : List String} {items : List Assignment}
    (h : checkedAssignments seen pairs = .ok items) :
    List.Forall₂ (fun pair a => assignment pair = .ok a ∧ IsName a.target ∧
      Value.isLiteral a.value = true) pairs items := by
  induction pairs generalizing seen items with
  | nil =>
    cases h
    exact .nil
  | cons pair rest ih =>
    obtain ⟨a, later, rfl, found, isName, literal, -, checked⟩ :=
      checkedAssignments_cons_eq_ok.mp h
    exact .cons ⟨found, isName, literal⟩ (ih checked)

/-! ## Lists -/

/-- The items between parentheses, for a reader that takes them all or fails. -/
theorem compacted_of_enclosedItems {empty : Error} {check : List String → Result Unit}
    {list : String} {items : List String}
    (h : enclosedItems empty (fun items => do check items; return items) list = .ok items)
    (each : check items = .ok () → ∀ piece, Closed piece → compacted piece ∈ items →
      IsCompacted piece (compacted piece)) :
    ∃ inner, stripParentheses list = .ok inner ∧
      List.Forall₂ IsCompacted (pieces inner) items := by
  obtain ⟨inner, found, stripped, -, splits, checked⟩ := enclosedItems_eq_ok.mp h
  obtain ⟨valid, same⟩ := check_bind_eq_ok.mp checked
  cases same
  exact ⟨inner, stripped, forall₂_of_split splits (each valid)⟩

theorem values_compacted {list : String} {raws : List String} (h : values list = .ok raws) :
    ∃ inner, stripParentheses list = .ok inner ∧
      List.Forall₂ IsCompacted (pieces inner) raws := by
  rw [values_eq_enclosedItems] at h
  refine compacted_of_enclosedItems h fun literals piece closed mem => ?_
  exact isCompacted_of_isLiteral closed (checkLiterals_eq_ok.mp literals _ mem)

theorem attributes_compacted {list : String} {names : List String}
    (h : attributes list = .ok names) : ∃ inner, stripParentheses list = .ok inner ∧
      List.Forall₂ IsCompacted (pieces inner) names := by
  rw [attributes_eq_enclosedItems] at h
  refine compacted_of_enclosedItems h fun valid piece closed mem => ?_
  exact isCompacted_of_isName closed ((checkAttributes_eq_ok.mp valid).1 _ mem).1

theorem projection_compacted {text : String} {names : List String}
    (h : projection text = .ok (.columns names)) :
    List.Forall₂ IsCompacted (pieces text) names := by
  unfold projection at h
  split at h
  · cases h
  · split at h
    · cases h
    · obtain ⟨found, splits, h⟩ := bind_eq_ok.mp h
      obtain ⟨valid, same⟩ := check_bind_eq_ok.mp h
      cases same
      refine forall₂_of_split splits fun piece closed mem => ?_
      exact isCompacted_of_isName closed (checkNames_eq_ok.mp valid _ mem)

theorem assignments_compacted {text : String} {items : List Assignment}
    (h : assignments text = .ok items) : List.Forall₂ (fun piece a => ∃ target value,
      AreSides piece target value ∧ IsCompacted target a.target ∧ IsCompacted value a.value)
      (pieces text) items := by
  unfold assignments at h
  split at h
  · cases h
  · obtain ⟨pairs, splits, checked⟩ := bind_eq_ok.mp h
    have read := forall₂_of_checkedAssignments checked
    obtain ⟨closed, -, rfl⟩ := split_eq_ok_iff.mp splits
    rw [List.forall₂_map_left_iff] at read
    refine ((List.forall₂_and_left _ _).mpr ⟨fun _ => closed_of_mem_pieces closed, read⟩).imp ?_
    rintro piece a ⟨closed, found, isName, literal⟩
    obtain ⟨target, value, sides, rfl⟩ := assignment_compacted found
    exact ⟨target, value, sides, isCompacted_of_isName sides.closed isName,
      isCompacted_of_isLiteral (sides.closed_value closed) literal⟩

/-- What is read from a list are the words between its commas, put together: the attributes of a
new table, the values of a new row, the columns of a selection and both sides of every assignment.
Each is as it is written exactly if it is written as a single word, as every string literal is. -/
theorem items_compacted (text : String) :
    (∀ raws, values text = .ok raws → ∃ inner, stripParentheses text = .ok inner ∧
      List.Forall₂ IsCompacted (pieces inner) raws) ∧
    (∀ names, attributes text = .ok names → ∃ inner, stripParentheses text = .ok inner ∧
      List.Forall₂ IsCompacted (pieces inner) names) ∧
    (∀ names, projection text = .ok (.columns names) →
      List.Forall₂ IsCompacted (pieces text) names) ∧
    ∀ items, assignments text = .ok items → List.Forall₂ (fun piece a => ∃ target value,
      AreSides piece target value ∧ IsCompacted target a.target ∧ IsCompacted value a.value)
      (pieces text) items :=
  ⟨fun _ => values_compacted, fun _ => attributes_compacted, fun _ => projection_compacted,
    fun _ => assignments_compacted⟩

theorem items_compacted_of_separate_words :
    List.Forall₂ IsCompacted ["1 2".toList, " ' a'".toList] ["12", "' a'"] ∧
    List.Forall₂ IsCompacted ["na me".toList, " n".toList] ["name", "n"] ∧
    List.Forall₂ IsCompacted ["na".toList, " n ".toList] ["na", "n"] ∧
    ∃ target value, AreSides " n a = - 1".toList target value ∧
      IsCompacted target "na" ∧ IsCompacted value "-1" := by
  refine ⟨?_, ?_, ?_, ?_⟩
  · obtain ⟨inner, stripped, read⟩ :=
      (items_compacted "(1 2, ' a')").1 ["12", "' a'"] (by decide +kernel)
    cases (show stripParentheses "(1 2, ' a')" = .ok "1 2, ' a'" by decide +kernel).symm.trans
      stripped
    exact read
  · obtain ⟨inner, stripped, read⟩ :=
      (items_compacted "(na me, n)").2.1 ["name", "n"] (by decide +kernel)
    cases (show stripParentheses "(na me, n)" = .ok "na me, n" by decide +kernel).symm.trans
      stripped
    exact read
  · exact (items_compacted "na, n ").2.2.1 ["na", "n"] (by decide +kernel)
  · exact (List.forall₂_cons.mp
      ((items_compacted " n a = - 1").2.2.2 [⟨"na", "-1"⟩] (by decide +kernel))).1

/-- Two words become one number or one name, which is nowhere in the list. -/
theorem values_put_together :
    values "(1 2, 3)" = .ok ["12", "3"] ∧ ¬ "12".toList <:+: "(1 2, 3)".toList ∧
    stripParentheses "(1 2, 3)" = .ok "1 2, 3" ∧
    pieces "1 2, 3" = ["1 2".toList, " 3".toList] ∧ trim "1 2".toList ≠ "12".toList ∧
    attributes "(na me)" = .ok ["name"] ∧ ¬ "name".toList <:+: "(na me)".toList := by
  rw [← occursIn_eq_true_iff, ← occursIn_eq_true_iff]
  decide +kernel

end TabStore.Items
