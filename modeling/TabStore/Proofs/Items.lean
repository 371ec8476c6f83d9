import TabStore.Items
import TabStore.Proofs.Literal
import TabStore.Proofs.Name
import TabStore.Proofs.Text.Blank
import TabStore.Proofs.Text.Classes

/-!
# Lists and their items

Which items the readers of lists let through, and that items joined by commas are read again.

Results:
1. `split_eq_ok`, `split_intercalate`: the items of a list are pieces without unquoted commas and
   white space, and such pieces are split apart again after they are joined;
2. `checkAttributes_eq_ok`, `checkNames_eq_ok`, `checkLiterals_eq_ok`, `checkedAssignments_eq_ok`:
   what each check accepts;
3. `attributes_enclosed`, `values_enclosed`, `projection_columns`, `assignments_written`: lists that
   pass the checks are read again from what is written for them.
-/

namespace TabStore

/-- What is written for an assignment. -/
def Assignment.source (a : Assignment) : String := a.target ++ "=" ++ a.value

namespace Items

open Text

/-- A piece that a list is split into. -/
structure IsItem (item : List Char) : Prop where
  some : item ≠ []
  noComma : Free (· == ',') false item
  noBlank : Free isBlank false item
  closed : Closed item

theorem split_eq_ok {text : String} {items : List String} (h : split text = .ok items) :
    items ≠ [] ∧ ∀ item ∈ items, IsItem item.toList ∧
      ∀ q, Free q false text.toList → Free q false item.toList := by
  unfold split at h
  dsimp only at h
  split at h
  · cases h
  · next closed =>
    split at h
    · cases h
    · next noneEmpty =>
      cases h
      have quote : isBlank '\'' = false := by decide
      refine ⟨by simpa using splitUnquoted_ne_nil _ _ _, fun item mem => ?_⟩
      obtain ⟨piece, found, rfl⟩ := List.mem_map.mp mem
      have cut := fun q => @free_of_mem_splitUnquoted (· == ',') q (by decide) _ _ found
      rw [String.toList_ofList]
      refine ⟨⟨fun empty => noneEmpty ?_, (cut (· == ',')).1, ?_, ?_⟩, fun q free => ?_⟩
      · exact List.any_eq_true.mpr ⟨piece, found, by simpa using empty⟩
      · exact (cut isBlank).2.1 (@free_removeUnquoted isBlank isBlank quote false _).1
      · exact (cut isBlank).2.2 (Bool.eq_false_iff.mpr closed)
      · exact (cut q).2.1 ((free_removeUnquoted quote false _).2 free)

theorem free_intercalate_items {items : List String} {p : Char → Bool} (comma : p ',' = false)
    (h : ∀ item ∈ items, Free p false item.toList ∧ Closed item.toList) :
    Free p false (",".intercalate items).toList ∧ Closed (",".intercalate items).toList := by
  rw [String.toList_intercalate]
  refine free_intercalate comma (by decide) fun piece mem => ?_
  obtain ⟨item, found, rfl⟩ := List.mem_map.mp mem
  exact h item found

theorem split_intercalate {items : List String} (some : items ≠ [])
    (h : ∀ item ∈ items, IsItem item.toList) : split (",".intercalate items) = .ok items := by
  have quote : isBlank '\'' = false := by decide
  obtain ⟨noBlank, closed⟩ := @free_intercalate_items items isBlank (by decide)
    fun item mem => ⟨(h item mem).noBlank, (h item mem).closed⟩
  have pieces : splitUnquoted (· == ',') false (",".intercalate items).toList =
      items.map String.toList := by
    rw [String.toList_intercalate]
    refine splitUnquoted_intercalate (by decide) (by simpa using some) fun piece mem => ?_
    obtain ⟨item, found, rfl⟩ := List.mem_map.mp mem
    exact ⟨(h item found).noComma, (h item found).closed⟩
  have noneEmpty : (items.map String.toList).any List.isEmpty = false := by
    rw [List.any_eq_false]
    intro piece mem
    obtain ⟨item, found, rfl⟩ := List.mem_map.mp mem
    simpa using (h item found).some
  have stillClosed : ¬ openAtEnd false (",".intercalate items).toList = true := by
    rw [closed]
    decide
  unfold split
  dsimp only
  rw [removeUnquoted_of_free noBlank, if_neg stillClosed, pieces, noneEmpty]
  simp

/-! ## Checks -/

theorem checkNames_eq_ok {names : List String} :
    checkNames names = .ok () ↔ ∀ name ∈ names, IsName name := by
  induction names with
  | nil => simp [checkNames]
  | cons name rest ih => simp [checkNames, check_bind_eq_ok, ih, IsName]

theorem checkLiteral_eq_ok {raw : String} :
    checkLiteral raw = .ok () ↔ Value.isLiteral raw = true := by
  unfold checkLiteral
  split <;> simp_all

theorem checkLiterals_eq_ok {raws : List String} :
    checkLiterals raws = .ok () ↔ ∀ raw ∈ raws, Value.isLiteral raw = true := by
  induction raws with
  | nil => simp [checkLiterals]
  | cons raw rest ih => simp [checkLiterals, check_bind_eq_ok, ih, checkLiteral_eq_ok]

theorem checkAttributes_eq_ok {seen names : List String} : checkAttributes seen names = .ok () ↔
    (∀ name ∈ names, IsName name ∧ name ∉ seen) ∧ names.Nodup := by
  induction names generalizing seen with
  | nil => simp [checkAttributes]
  | cons name rest ih =>
    rw [checkAttributes, check_bind_eq_ok, List.forall_mem_cons, List.nodup_cons]
    by_cases known : name ∈ seen
    · simp [known]
    · rw [if_neg (by simpa using known), ih]
      constructor
      · rintro ⟨isName, all, different⟩
        refine ⟨⟨⟨isName, known⟩, fun other mem => ?_⟩, fun mem => ?_, different⟩
        · exact ⟨(all other mem).1, fun seen => (all other mem).2 (List.mem_cons_of_mem _ seen)⟩
        · exact (all name mem).2 List.mem_cons_self
      · rintro ⟨⟨⟨isName, -⟩, all⟩, new, different⟩
        refine ⟨isName, fun other mem => ⟨(all other mem).1, fun seen => ?_⟩, different⟩
        rcases List.mem_cons.mp seen with rfl | seen
        · exact new mem
        · exact (all other mem).2 seen

theorem assignment_eq_ok {pair : String} {a : Assignment} : assignment pair = .ok a ↔
    pair = a.source ∧ Free (· == '=') false a.target.toList ∧ Closed a.target.toList := by
  unfold assignment
  rcases free_or_exists_separator (· == '=') false pair.toList with
    free | ⟨target, c, value, same, free, closed, equals⟩
  · rw [breakUnquoted_of_free free]
    refine ⟨nofun, ?_⟩
    rintro ⟨rfl, -, closed⟩
    -- The equals sign behind the target is unquoted.
    rw [Assignment.source, String.toList_append, String.toList_append, List.append_assoc,
      free_append, closed] at free
    exact absurd (free.2.1 rfl) (by decide)
  · rw [beq_iff_eq] at equals
    subst equals
    have isClosed : Closed target := closed
    have cut := @breakUnquoted_append_cons (· == '=') _ _ value '=' free closed rfl
    have whole : pair = String.ofList target ++ "=" ++ String.ofList value := by
      rw [← String.toList_inj, same]
      simp
    rw [same, cut]
    constructor
    · intro h
      cases h
      simpa [Assignment.source, whole] using And.intro free isClosed
    · rintro ⟨written, freeTarget, closedTarget⟩
      have other := @breakUnquoted_append_cons (· == '=') _ _ a.value.toList '=' freeTarget
        closedTarget rfl
      have texts : pair.toList = a.target.toList ++ '=' :: a.value.toList := by
        rw [written, Assignment.source]
        simp
      rw [← texts, same, cut, Prod.mk.injEq, List.cons_inj_right] at other
      rw [other.1, other.2]
      show Except.ok (Assignment.mk _ _) = _
      rw [String.ofList_toList, String.ofList_toList]

/-- An assignment that the check accepts. -/
structure IsAssignment (a : Assignment) : Prop where
  isName : IsName a.target
  noEquals : '=' ∉ a.target.toList
  isLiteral : Value.isLiteral a.value = true

theorem checkedAssignments_cons_eq_ok {seen rest : List String} {pair : String}
    {items : List Assignment} : checkedAssignments seen (pair :: rest) = .ok items ↔
      ∃ a later, items = a :: later ∧ assignment pair = .ok a ∧ IsName a.target ∧
        Value.isLiteral a.value = true ∧ a.target ∉ seen ∧
        checkedAssignments (a.target :: seen) rest = .ok later := by
  rw [checkedAssignments, bind_eq_ok]
  refine exists_congr fun a => ?_
  rw [check_bind_eq_ok, check_bind_eq_ok, checkLiteral_eq_ok]
  by_cases known : a.target ∈ seen
  · simp [known]
  · rw [if_neg (by simpa using known), bind_eq_ok]
    constructor
    · rintro ⟨found, isName, isLiteral, later, checked, same⟩
      exact ⟨later, (Except.ok.inj same).symm, found, isName, isLiteral, known, checked⟩
    · rintro ⟨later, rfl, found, isName, isLiteral, -, checked⟩
      exact ⟨found, isName, isLiteral, later, checked, rfl⟩

theorem checkedAssignments_eq_ok {seen pairs : List String} {items : List Assignment} :
    checkedAssignments seen pairs = .ok items ↔
      pairs = items.map Assignment.source ∧
      (∀ a ∈ items, IsAssignment a ∧ a.target ∉ seen) ∧
      (items.map Assignment.target).Nodup := by
  induction pairs generalizing seen items with
  | nil =>
    rw [checkedAssignments, Except.ok.injEq]
    constructor
    · rintro rfl
      simp
    · rintro ⟨none, -⟩
      exact (List.map_eq_nil_iff.mp none.symm).symm
  | cons pair rest ih =>
    rw [checkedAssignments_cons_eq_ok]
    constructor
    · rintro ⟨a, later, rfl, found, isName, isLiteral, new, checked⟩
      obtain ⟨rfl, free, -⟩ := assignment_eq_ok.mp found
      obtain ⟨rfl, all, different⟩ := ih.mp checked
      have noEquals : '=' ∉ a.target.toList := fun mem => absurd (isName.free_iff.mp free _ mem) (by
        decide)
      -- `seen` grows by each target, which keeps later targets apart from earlier ones.
      refine ⟨rfl, ?_, ?_⟩
      · rw [List.forall_mem_cons]
        refine ⟨⟨⟨isName, noEquals, isLiteral⟩, new⟩, fun b mem => ?_⟩
        exact ⟨(all b mem).1, fun seen => (all b mem).2 (List.mem_cons_of_mem _ seen)⟩
      · rw [List.map_cons, List.nodup_cons]
        refine ⟨fun mem => ?_, different⟩
        obtain ⟨b, later, same⟩ := List.mem_map.mp mem
        exact (all b later).2 (same ▸ List.mem_cons_self)
    · rintro ⟨written, all, different⟩
      cases items with
      | nil => cases written
      | cons a later =>
        rw [List.map_cons, List.cons.injEq] at written
        rw [List.forall_mem_cons] at all
        rw [List.map_cons, List.nodup_cons] at different
        obtain ⟨⟨⟨sound, new⟩, all⟩, notLater, different⟩ := And.intro all different
        have found : assignment pair = .ok a := assignment_eq_ok.mpr
          ⟨written.1, sound.isName.free_iff.mpr fun c mem => beq_eq_false_iff_ne.mpr fun same =>
            sound.noEquals (same ▸ mem), sound.isName.closed⟩
        refine ⟨a, later, rfl, found, sound.isName, sound.isLiteral, new, ?_⟩
        refine ih.mpr ⟨written.2, fun b mem => ⟨(all b mem).1, fun seen => ?_⟩, different⟩
        rcases List.mem_cons.mp seen with same | seen
        · exact notLater (same ▸ List.mem_map_of_mem mem)
        · exact (all b mem).2 seen

/-! ## Written lists -/

/-- Items between parentheses, with commas between them. -/
def enclosedList (items : List String) : String := "(" ++ ",".intercalate items ++ ")"

theorem stripParentheses_enclosed (items : List String) :
    stripParentheses (enclosedList items) = .ok (",".intercalate items) := by
  have texts : (enclosedList items).toList = '(' :: ((",".intercalate items).toList ++ [')']) := by
    simp [enclosedList]
  have kept : trim (enclosedList items).toList = (enclosedList items).toList := by
    rw [texts]
    refine trim_of_ends ?_ ?_
    · rintro _ ⟨⟩
      decide
    · intro c last
      rw [← List.cons_append, List.getLast?_concat] at last
      cases last
      decide
  rw [stripParentheses, kept, texts]
  simp [-String.toList_intercalate]

theorem isBlankText_intercalate {items : List String} (some : items ≠ [])
    (h : ∀ item ∈ items, IsItem item.toList) : isBlankText (",".intercalate items) = false := by
  obtain ⟨first, rest, rfl⟩ := List.exists_cons_of_ne_nil some
  have item := h first List.mem_cons_self
  obtain ⟨c, tail, same⟩ := List.exists_cons_of_ne_nil item.some
  have notBlank : isBlank c = false := by
    have free := item.noBlank
    rw [same] at free
    exact free.1 rfl
  cases rest with
  | nil => simp [isBlankText, same, notBlank]
  | cons next more => simp [isBlankText, same, notBlank]

theorem isItem_of_isName {name : String} (isName : IsName name) (noComma : ',' ∉ name.toList) :
    IsItem name.toList where
  some := isName.ne_nil
  noComma := isName.free_iff.mpr fun _ mem => beq_eq_false_iff_ne.mpr fun same =>
    noComma (same ▸ mem)
  noBlank := isName.free_iff.mpr fun _ mem => isName.not_isBlank mem
  closed := isName.closed

theorem isBlank_of_isPlainLiteralChar {c : Char} (h : isPlainLiteralChar c = true) :
    isBlank c = false := by
  simp only [isPlainLiteralChar, Bool.or_eq_true, beq_iff_eq] at h
  rcases h with (alphanumeric | rfl) | rfl
  · exact isBlank_eq_false_of_isAlphanum alphanumeric
  · decide
  · decide

theorem ne_of_isPlainLiteralChar {c mark : Char} (apart : isPlainLiteralChar mark = false)
    (h : isPlainLiteralChar c = true) : (c == mark) = false := by
  rw [beq_eq_false_iff_ne]
  rintro rfl
  rw [apart] at h
  cases h

theorem isItem_of_isLiteral {raw : String} (h : Value.isLiteral raw = true) :
    IsItem raw.toList := by
  have noComma := Value.free_of_isLiteral h (p := (· == ',')) (by decide) fun _ =>
    ne_of_isPlainLiteralChar (by decide)
  have noBlank := Value.free_of_isLiteral h (p := isBlank) (by decide) fun _ =>
    isBlank_of_isPlainLiteralChar
  exact ⟨Value.ne_nil_of_isLiteral h, noComma.1, noBlank.1, noBlank.2⟩

/-- A valid list of new attributes. -/
structure IsAttributes (names : List String) : Prop where
  some : names ≠ []
  isName : ∀ name ∈ names, IsName name
  noComma : ∀ name ∈ names, ',' ∉ name.toList
  notId : idAttribute ∉ names
  nodup : names.Nodup

theorem isAttributes_of_attributes {list : String} {names : List String}
    (h : attributes list = .ok names) : IsAttributes names := by
  obtain ⟨inner, -, h⟩ := bind_eq_ok.mp h
  split at h
  · cases h
  · obtain ⟨items, found, h⟩ := bind_eq_ok.mp h
    obtain ⟨checked, same⟩ := check_bind_eq_ok.mp h
    cases same
    obtain ⟨some, pieces⟩ := split_eq_ok found
    obtain ⟨all, nodup⟩ := checkAttributes_eq_ok.mp checked
    refine ⟨some, fun name mem => (all name mem).1, fun name mem comma => ?_, fun mem => ?_, nodup⟩
    · exact absurd ((all name mem).1.free_iff.mp (pieces name mem).1.noComma ',' comma) (by decide)
    · exact (all idAttribute mem).2 List.mem_cons_self

theorem attributes_enclosed {names : List String} (h : IsAttributes names) :
    attributes (enclosedList names) = .ok names := by
  have items : ∀ name ∈ names, IsItem name.toList := fun name mem =>
    isItem_of_isName (h.isName name mem) (h.noComma name mem)
  have checked : checkAttributes [idAttribute] names = .ok () := by
    refine checkAttributes_eq_ok.mpr ⟨fun name mem => ⟨h.isName name mem, fun same => ?_⟩, h.nodup⟩
    rw [List.mem_singleton] at same
    exact h.notId (same ▸ mem)
  rw [attributes, stripParentheses_enclosed, ok_bind, isBlankText_intercalate h.some items,
    split_intercalate h.some items]
  show (checkAttributes [idAttribute] names >>= fun _ => pure names) = _
  rw [checked]
  rfl

theorem values_eq_ok {list : String} {raws : List String} (h : values list = .ok raws) :
    raws ≠ [] ∧ ∀ raw ∈ raws, Value.isLiteral raw = true := by
  obtain ⟨inner, -, h⟩ := bind_eq_ok.mp h
  split at h
  · cases h
  · obtain ⟨items, found, h⟩ := bind_eq_ok.mp h
    obtain ⟨checked, same⟩ := check_bind_eq_ok.mp h
    cases same
    exact ⟨(split_eq_ok found).1, checkLiterals_eq_ok.mp checked⟩

theorem values_enclosed {raws : List String} (some : raws ≠ [])
    (h : ∀ raw ∈ raws, Value.isLiteral raw = true) : values (enclosedList raws) = .ok raws := by
  have items : ∀ raw ∈ raws, IsItem raw.toList := fun raw mem => isItem_of_isLiteral (h raw mem)
  rw [values, stripParentheses_enclosed, ok_bind, isBlankText_intercalate some items,
    split_intercalate some items]
  show (checkLiterals raws >>= fun _ => pure raws) = _
  rw [checkLiterals_eq_ok.mpr h]
  rfl

/-- Valid columns of a selection. -/
structure IsColumns (names : List String) : Prop where
  some : names ≠ []
  isName : ∀ name ∈ names, IsName name
  noComma : ∀ name ∈ names, ',' ∉ name.toList

theorem projection_eq_ok {text : String} {columns : Projection}
    (h : projection text = .ok columns) : columns = .all ∨ ∃ names, columns = .columns names ∧
      IsColumns names ∧ ∀ name ∈ names, ∀ q, Free q false text.toList →
        Free q false name.toList := by
  unfold projection at h
  split at h
  · cases h
    exact .inl rfl
  · split at h
    · cases h
    · obtain ⟨names, found, h⟩ := bind_eq_ok.mp h
      obtain ⟨checked, same⟩ := check_bind_eq_ok.mp h
      cases same
      obtain ⟨some, pieces⟩ := split_eq_ok found
      have all := checkNames_eq_ok.mp checked
      refine .inr ⟨names, rfl, ⟨some, all, fun name mem comma => ?_⟩, fun name mem =>
        (pieces name mem).2⟩
      exact absurd ((all name mem).free_iff.mp (pieces name mem).1.noComma ',' comma) (by decide)

theorem projection_columns {names : List String} (h : IsColumns names) :
    projection (",".intercalate names) = .ok (.columns names) := by
  have items : ∀ name ∈ names, IsItem name.toList := fun name mem =>
    isItem_of_isName (h.isName name mem) (h.noComma name mem)
  obtain ⟨noBlank, closed⟩ := @free_intercalate_items names isBlank (by decide)
    fun item mem => ⟨(items item mem).noBlank, (items item mem).closed⟩
  have notStar : trim (",".intercalate names).toList ≠ ['*'] := by
    intro star
    rw [trim_of_ends (noBlank.ends closed).1 (noBlank.ends closed).2] at star
    have text : ",".intercalate names = "*" := by
      rw [← String.toList_inj, star]
      rfl
    have found := split_intercalate h.some items
    rw [text, show split "*" = .ok ["*"] from rfl] at found
    have isName := h.isName "*" (by rw [← Except.ok.inj found]; exact List.mem_singleton_self _)
    obtain ⟨c, last, alphanumeric⟩ := isName.exists_last
    cases last
    revert alphanumeric
    decide
  rw [projection, if_neg notStar, isBlankText_intercalate h.some items,
    split_intercalate h.some items]
  show (checkNames names >>= fun _ => pure (Projection.columns names)) = _
  rw [checkNames_eq_ok.mpr h.isName]
  rfl

/-- Valid assignments of an update. -/
structure IsAssignments (items : List Assignment) : Prop where
  some : items ≠ []
  sound : ∀ a ∈ items, IsAssignment a
  noComma : ∀ a ∈ items, ',' ∉ a.target.toList
  nodup : (items.map Assignment.target).Nodup

theorem assignments_eq_ok {text : String} {items : List Assignment}
    (h : assignments text = .ok items) : IsAssignments items ∧
      ∀ a ∈ items, ∀ q, Free q false text.toList → Free q false a.target.toList := by
  unfold assignments at h
  split at h
  · cases h
  · obtain ⟨pairs, found, checked⟩ := bind_eq_ok.mp h
    obtain ⟨some, pieces⟩ := split_eq_ok found
    obtain ⟨rfl, all, nodup⟩ := checkedAssignments_eq_ok.mp checked
    have target : ∀ a ∈ items, ∀ q, Free q false a.source.toList →
        Free q false a.target.toList := by
      intro a _ q free
      rw [Assignment.source, String.toList_append, String.toList_append, List.append_assoc,
        free_append] at free
      exact free.1
    refine ⟨⟨by simpa using some, fun a mem => (all a mem).1, fun a mem comma => ?_, nodup⟩,
      fun a mem q free => ?_⟩
    · have piece := (pieces _ (List.mem_map_of_mem mem)).1.noComma
      have noComma := (all a mem).1.isName.free_iff.mp (target a mem _ piece)
      exact absurd (noComma ',' comma) (by decide)
    · exact target a mem q ((pieces _ (List.mem_map_of_mem mem)).2 q free)

/-- What is written for an assignment is one piece for every scanner that splits neither its target
nor its value. -/
theorem free_source {a : Assignment} (h : IsAssignment a) {p : Char → Bool}
    (target : ∀ c ∈ a.target.toList, p c = false) (equals : p '=' = false)
    (value : Free p false a.value.toList ∧ Closed a.value.toList) :
    Free p false a.source.toList ∧ Closed a.source.toList := by
  rw [Assignment.source, String.toList_append, String.toList_append]
  have first : Free p false (a.target.toList ++ "=".toList) := by
    refine Free.append h.isName.closed (h.isName.free_iff.mpr target) ?_
    exact ⟨fun _ => equals, trivial⟩
  have closedFirst : Closed (a.target.toList ++ "=".toList) := h.isName.closed.append rfl
  exact ⟨Free.append closedFirst first value.1, closedFirst.append value.2⟩

theorem isItem_source {a : Assignment} (h : IsAssignment a) (noComma : ',' ∉ a.target.toList) :
    IsItem a.source.toList := by
  have value := isItem_of_isLiteral h.isLiteral
  have comma := @free_source a h (· == ',') (fun c mem => beq_eq_false_iff_ne.mpr fun same =>
    noComma (same ▸ mem)) (by decide) ⟨value.noComma, value.closed⟩
  have blank := @free_source a h isBlank (fun c mem => h.isName.not_isBlank mem) (by decide)
    ⟨value.noBlank, value.closed⟩
  refine ⟨?_, comma.1, blank.1, blank.2⟩
  simp [Assignment.source]

theorem assignments_written {items : List Assignment} (h : IsAssignments items) :
    assignments (",".intercalate (items.map Assignment.source)) = .ok items := by
  have some : items.map Assignment.source ≠ [] := by simpa using h.some
  have pieces : ∀ pair ∈ items.map Assignment.source, IsItem pair.toList := by
    intro pair mem
    obtain ⟨a, found, rfl⟩ := List.mem_map.mp mem
    exact isItem_source (h.sound a found) (h.noComma a found)
  rw [assignments, isBlankText_intercalate some pieces, split_intercalate some pieces]
  exact checkedAssignments_eq_ok.mpr ⟨rfl, fun a mem => ⟨h.sound a mem, List.not_mem_nil⟩, h.nodup⟩

end Items

end TabStore
