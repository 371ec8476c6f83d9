import TabStore.Proofs.Condition.Composition
import TabStore.Proofs.Condition.Reserved
import TabStore.Proofs.Condition.Words
import TabStore.Proofs.Statement.Reader
import TabStore.Proofs.Table.Sound

/-!
# Referring to attributes

An attribute that a statement creates is referred to in selections, in assignments and in
conditions. Each of the three has separators of its own, which names may hold: there is one rule for
all names, and it only keeps whole words from being names. This file tells which attributes each
of the three can refer to.

Results:
1. `canonicalChars_eq_self_iff`, `isPlainOperand_iff`: the runs of characters that a condition takes
   for an operand as they stand;
2. `Items.projection_name_iff`, `Items.assignments_name_iff`, `Condition.compile_name_iff`: the
   names that can be selected, assigned and compared;
3. `Statement.referenced_iff`: the same for the attributes that a statement creates;
4. `Statement.not_referenced`: some attributes that are created cannot be referred to.
-/

namespace TabStore

open Text

/-! ## Operands as they stand -/

namespace Condition

/-- No word that stands on its own in a text is an operator. -/
def NamesNoOperator (text : List Char) : Prop :=
  ∀ before word after, text = before ++ word ++ after → IsPlace before after →
    (∀ c ∈ word, isWordChar c = true) → ∀ reserved ∈ conditionWords, upper word ≠ reserved.toList

theorem canonicalWord_of_spelled {word : List Char} {reserved : String}
    (mem : reserved ∈ conditionWords) (spelled : upper word = reserved.toList) :
    ∃ op : Operator, canonicalWord word = [op.code] := by
  rw [canonicalWord, spelled]
  simp only [conditionWords, List.mem_cons, List.not_mem_nil, or_false] at mem
  rcases mem with rfl | rfl | rfl
  · exact ⟨.and, rfl⟩
  · exact ⟨.or, rfl⟩
  · exact ⟨.like, rfl⟩

/-- What follows the first piece of an operand names no operator either. -/
theorem NamesNoOperator.of_append {first rest : List Char}
    (h : NamesNoOperator (first ++ rest)) (closed : Closed first)
    (apart : ∀ c, first.getLast? = some c → isWordChar c = true → StartsApart rest) :
    NamesNoOperator rest := by
  rintro before word after rfl place letters reserved mem spelled
  refine h (first ++ before) word after (by simp) ⟨closed.append place.closed, ?_, place.right⟩
    letters reserved mem spelled
  intro c last
  rw [List.getLast?_append] at last
  cases before with
  | cons d more => exact place.left c (by simpa using last)
  | nil =>
    -- The word itself follows, so the first piece cannot end within a word.
    cases word with
    | nil =>
      exact absurd spelled.symm (toList_ne_nil_of_mem_conditionWords reserved mem)
    | cons d more =>
      cases nonWord : isWordChar c with
      | false => rfl
      | true =>
        have stops := apart c (by simpa using last) nonWord d rfl
        rw [letters d List.mem_cons_self] at stops
        cases stops

/-- A word in front of a text that stays as it is stays as well, unless it is an operator. -/
theorem canonicalChars_append_of_word {word rest : List Char} (some : word ≠ [])
    (letters : ∀ c ∈ word, isWordChar c = true) (apart : StartsApart rest)
    (noOperator : NamesNoOperator (word ++ rest)) (later : canonicalChars rest = .ok rest) :
    canonicalChars (word ++ rest) = .ok (word ++ rest) := by
  have place : IsPlace [] rest := ⟨rfl, nofun, apart⟩
  have kept := (canonicalWord_eq_self_iff letters).mpr (noOperator [] word rest rfl place letters)
  have read := canonicalChars_word some letters place
  rwa [List.nil_append, canonicalChars_nil, later, kept] at read

theorem canonicalChars_of_namesNoOperator {text : List Char}
    (chars : ∀ c ∈ text, isOperandChar c = true) (noOperator : NamesNoOperator text) :
    canonicalChars text = .ok text := by
  induction text using canonicalChars.induct with
  | case1 => exact canonicalChars_nil
  | case2 c rest fault failed =>
    rw [List.forall_mem_cons] at chars
    rw [canonicalPiece_of_operand chars.1 fun d head => chars.2 d (List.mem_of_mem_head? head)]
      at failed
    split at failed <;> cases failed
  | case3 c rest piece after found _ ih =>
    rw [List.forall_mem_cons] at chars
    have first := canonicalPiece_of_operand chars.1 fun d head =>
      chars.2 d (List.mem_of_mem_head? head)
    rw [found] at first
    split at first
    · next letter =>
      cases first
      have whole : c :: rest = (c :: rest.takeWhile isWordChar) ++ rest.dropWhile isWordChar := by
        rw [List.cons_append, List.takeWhile_append_dropWhile]
      have letters : ∀ d ∈ c :: rest.takeWhile isWordChar, isWordChar d = true :=
        List.forall_mem_cons.mpr ⟨letter, List.all_eq_true.mp List.all_takeWhile⟩
      have plain : '\'' ∉ c :: rest.takeWhile isWordChar := fun mem =>
        absurd (letters _ mem) (by decide +kernel)
      have apart := startsApart_dropWhile rest
      have behind := List.dropWhile_suffix isWordChar (l := rest)
      rw [whole] at noOperator ⊢
      have later := ih (fun d mem => chars.2 d (behind.mem mem))
        (noOperator.of_append (closed_of_plain plain) fun _ _ _ => apart)
      exact canonicalChars_append_of_word (List.cons_ne_nil c _) letters apart noOperator later
    · next mark =>
      cases first
      have noQuote : c ≠ '\'' := isOperandChar_ne chars.1 (by decide)
      have noOperatorRest : NamesNoOperator rest := by
        refine @NamesNoOperator.of_append [c] rest noOperator
          (closed_of_plain (by simpa using noQuote.symm)) fun d last word => ?_
        cases last
        exact absurd word mark
      rw [canonicalChars_cons, found, ok_bind, ih chars.2 noOperatorRest]
      rfl

/-- A run of operand characters is its own canonical form exactly if no word in it is an
operator. -/
theorem canonicalChars_eq_self_iff {text : List Char}
    (chars : ∀ c ∈ text, isOperandChar c = true) :
    canonicalChars text = .ok text ↔ NamesNoOperator text := by
  refine ⟨?_, canonicalChars_of_namesNoOperator chars⟩
  rintro same before word after rfl place letters reserved mem spelled
  have some : word ≠ [] := by
    rintro rfl
    exact toList_ne_nil_of_mem_conditionWords reserved mem spelled.symm
  obtain ⟨op, code⟩ := canonicalWord_of_spelled mem spelled
  rw [canonicalChars_word some letters place, code] at same
  obtain ⟨first, -, same⟩ := bind_eq_ok.mp same
  obtain ⟨last, -, same⟩ := bind_eq_ok.mp same
  -- The canonical form holds a code, which no operand does.
  have within : op.code ∈ before ++ word ++ after := by
    rw [← Except.ok.inj same]
    simp
  have marked : op.code ∈ marks := by cases op <;> decide
  exact isOperandChar_ne (chars _ within) marked rfl

theorem isPlainOperand_iff {text : List Char} : IsPlainOperand text ↔
    text ≠ [] ∧ (∀ c ∈ text, isOperandChar c = true) ∧ NamesNoOperator text := by
  constructor
  · intro h
    exact ⟨h.some, h.chars, (canonicalChars_eq_self_iff h.chars).mp h.canonical⟩
  · rintro ⟨some, chars, noOperator⟩
    exact ⟨some, chars, (canonicalChars_eq_self_iff chars).mpr noOperator⟩

end Condition

/-! ## Names -/

section Names

variable {name : String} (isName : IsName name)

include isName

theorem Items.projection_name_iff :
    Items.projection name = .ok (.columns [name]) ↔ ',' ∉ name.toList := by
  constructor
  · intro read
    rcases projection_eq_ok read with all | ⟨names, same, columns, -⟩
    · cases all
    · cases same
      exact columns.noComma name (List.mem_singleton_self name)
  · intro noComma
    have columns : IsColumns [name] :=
      ⟨List.cons_ne_nil _ _, by simpa using isName, by simpa using noComma⟩
    have read := projection_columns columns
    rwa [String.intercalate_singleton] at read

theorem Items.assignments_name_iff : Items.assignments (name ++ "=1") = .ok [⟨name, "1"⟩] ↔
    ',' ∉ name.toList ∧ '=' ∉ name.toList := by
  constructor
  · intro read
    obtain ⟨assigns, -⟩ := assignments_eq_ok read
    have mem := List.mem_singleton_self (⟨name, "1"⟩ : Assignment)
    exact ⟨assigns.noComma _ mem, (assigns.sound _ mem).noEquals⟩
  · rintro ⟨noComma, noEquals⟩
    have one : Value.isLiteral "1" = true := by decide
    have assigns : IsAssignments [⟨name, "1"⟩] :=
      ⟨List.cons_ne_nil _ _, by simpa using ⟨isName, noEquals, one⟩, by simpa using noComma,
        by simp⟩
    have read := assignments_written assigns
    rwa [List.map_singleton, String.intercalate_singleton, Assignment.source,
      String.append_assoc] at read

theorem Condition.compile_name_iff :
    compile (name ++ " = 1") = .ok ⟨[.operand name, .operand "1", .operator .equal]⟩ ↔
      (∀ mark ∈ marks, mark ∉ name.toList) ∧ NamesNoOperator name.toList := by
  have operand : IsPlainOperand name.toList ↔
      (∀ mark ∈ marks, mark ∉ name.toList) ∧ NamesNoOperator name.toList := by
    rw [isPlainOperand_iff, and_iff_right isName.ne_nil]
    refine and_congr_left' ⟨fun chars mark marked mem => ?_, fun noMark c mem => ?_⟩
    · exact isOperandChar_ne (chars mark mem) marked rfl
    · exact isOperandChar_eq_true_iff.mpr
        ⟨isName.not_isBlank mem, fun marked => noMark c marked mem⟩
  rw [← operand]
  constructor
  · intro compiled
    obtain ⟨e, -, same⟩ := exists_expression_of_check (check_of_compile compiled)
    have settled := isSettled_of_compile compiled same name (by rw [same]; exact List.mem_cons_self)
    rcases settled with ⟨body, -, literal⟩ | plain
    · exact absurd (literal ▸ List.mem_cons_self) isName.no_quote
    · exact plain
  · intro plain
    have letters : (name ++ " = 1").toList = name.toList ++ ' ' :: "= 1".toList := by simp
    have right : read "= 1".toList = .ok [.operator .equal, .operand "1"] := by decide +kernel
    have one : Value.isLiteral "1" = true := by decide
    refine compile_eq_ok.mpr ⟨[.operand name, .operator .equal, .operand "1"], ?_, rfl,
      check_terms (.comparison ⟨name, .equal, "1", rfl, isName, one⟩)⟩
    rw [letters, read_append_blank isName.closed isBlank_space, read_operand (.inr plain), right,
      String.ofList_toList]
    rfl

end Names

/-! ## Attributes of statements -/

/-- The names that a statement puts into the schema of its table. -/
def TableStatement.newAttributes : TableStatement → List String
  | .create _ attributes => idAttribute :: attributes
  | .alter _ (.add name) => [name]
  | _ => []

namespace Statement

theorem isName_of_mem_newAttributes {statement : TableStatement}
    (readable : (Statement.table statement).IsReadable) {name : String}
    (new : name ∈ statement.newAttributes) : IsName name := by
  cases statement with
  | create table attributes =>
    rcases List.mem_cons.mp new with rfl | listed
    · exact isName_id
    · rcases readable.2 with rfl | valid
      · cases listed
      · exact valid.isName name listed
  | alter table change =>
    cases change with
    | add added =>
      rw [List.mem_singleton.mp new]
      exact readable.2.isName
    | drop dropped => cases new
  | drop | insert | select | update | delete | join => cases new

/-- An attribute that a statement creates can be selected exactly if its name holds no comma. It
can be assigned exactly if its name holds no equals sign either, and compared exactly if its name
holds no parenthesis and no code of an operator, and no word that stands on its own in it spells
AND, OR or LIKE. -/
theorem referenced_iff {text : String} {statement : TableStatement}
    (parsed : parse text = .ok (.table statement)) {name : String}
    (new : name ∈ statement.newAttributes) :
    (Items.projection name = .ok (.columns [name]) ↔ ',' ∉ name.toList) ∧
    (Items.assignments (name ++ "=1") = .ok [⟨name, "1"⟩] ↔
      ',' ∉ name.toList ∧ '=' ∉ name.toList) ∧
    (Condition.compile (name ++ " = 1") =
        .ok ⟨[.operand name, .operand "1", .operator .equal]⟩ ↔
      (∀ mark ∈ Condition.marks, mark ∉ name.toList) ∧
        Condition.NamesNoOperator name.toList) := by
  have isName := isName_of_mem_newAttributes (isReadable_of_parse parsed) new
  exact ⟨Items.projection_name_iff isName, Items.assignments_name_iff isName,
    Condition.compile_name_iff isName⟩

/-- OR within a longer word is no operator. -/
theorem referenced_iff_order :
    parse "CREATE TABLE t (order);" = .ok (.table (.create "t" ["order"])) ∧
      "order" ∈ (TableStatement.create "t" ["order"]).newAttributes ∧
      Items.projection "order" = .ok (.columns ["order"]) ∧
      Items.assignments ("order" ++ "=1") = .ok [⟨"order", "1"⟩] ∧
      Condition.NamesNoOperator "order".toList := by
  have parsed : parse "CREATE TABLE t (order);" = .ok (.table (.create "t" ["order"])) := by
    decide +kernel
  have new : "order" ∈ (TableStatement.create "t" ["order"]).newAttributes := by decide
  obtain ⟨selected, assigned, compared⟩ := referenced_iff parsed new
  exact ⟨parsed, new, selected.mpr (by decide), assigned.mpr (by decide),
    (compared.mp (by decide +kernel)).2⟩

/-- An attribute whose name holds an operator is created, and nothing can be assigned to it or
compared with it; a name with a comma is selected as two names. -/
theorem not_referenced :
    parse "CREATE TABLE t (a=b);" = .ok (.table (.create "t" ["a=b"])) ∧
      "a=b" ∈ (TableStatement.create "t" ["a=b"]).newAttributes ∧
      Items.assignments ("a=b" ++ "=1") ≠ .ok [⟨"a=b", "1"⟩] ∧
      Condition.compile ("a=b" ++ " = 1") ≠
        .ok ⟨[.operand "a=b", .operand "1", .operator .equal]⟩ ∧
    parse "ALTER TABLE t ADD a,b;" = .ok (.table (.alter "t" (.add "a,b"))) ∧
      "a,b" ∈ (TableStatement.alter "t" (.add "a,b")).newAttributes ∧
      Items.projection "a,b" = .ok (.columns ["a", "b"]) := by
  decide +kernel

end Statement

end TabStore
