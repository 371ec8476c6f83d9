import TabStore.Proofs.Condition.Composition
import TabStore.Proofs.Files.Path
import TabStore.Proofs.Statement.Grammar

/-!
# Statements that are read are well formed

Whatever tokens and whatever list a statement is read from, even tokens that no text is cut into:
its names are valid and can be used as names of files, its lists and its condition are what its form
asks for, and nothing that was given is left over.

Results:
1. `Condition.isName_of_mem_attributes`: a condition that passes its check compares attributes of
   valid names;
2. `Statement.wellFormed_of_ofTokens`: what holds of every statement that is read from tokens.
-/

namespace TabStore

namespace Condition

theorem isName_of_mem_attributes {condition : Condition} (h : condition.check = .ok ()) :
    ∀ name ∈ condition.attributes, IsName name := by
  obtain ⟨e, -, terms⟩ := exists_expression_of_check h
  intro name mem
  obtain ⟨c, -, rfl⟩ := (mem_attributes terms).mp mem
  exact c.isName

end Condition

/-- The names of columns that a selection asks for. -/
def Projection.names : Projection → List String
  | .all => []
  | .columns names => names

namespace Statement

/-- All names in a statement: of databases, tables and attributes, in lists and in conditions. -/
def names : Statement → List String
  | .database (.use name) | .database (.create name) | .database (.drop name) => [name]
  | .table (.create name attributes) => name :: attributes
  | .table (.drop name) => [name]
  | .table (.alter name change) => [name, change.name]
  | .table (.insert name _) => [name]
  | .table (.select name columns condition) =>
    name :: (columns.names ++ (condition.map Condition.attributes).getD [])
  | .table (.update name assignments condition) =>
    name :: (assignments.map Assignment.target ++ condition.attributes)
  | .table (.delete name condition) => name :: condition.attributes
  | .table (.join primary secondary) =>
    [primary.table, primary.on, secondary.table, secondary.on]

/-- The list and the condition of a statement are what its form asks for. -/
def HasValidParts : Statement → Prop
  | .table (.create _ attributes) => attributes.Nodup ∧ idAttribute ∉ attributes
  | .table (.insert _ values) => values ≠ [] ∧ ∀ raw ∈ values, Value.isLiteral raw = true
  | .table (.select _ columns condition) =>
    columns ≠ .columns [] ∧ ∀ c, condition = some c → c.check = .ok ()
  | .table (.update _ assignments condition) =>
    assignments ≠ [] ∧ (assignments.map Assignment.target).Nodup ∧
      (∀ a ∈ assignments, Value.isLiteral a.value = true) ∧ condition.check = .ok ()
  | .table (.delete _ condition) => condition.check = .ok ()
  | _ => True

variable {s : Statement}

theorem isName_of_isMadeOf (h : s.IsMadeOf IsName) : ∀ name ∈ s.names, IsName name := by
  have attributes : ∀ {c : Condition}, c.IsCompiled → ∀ name ∈ c.attributes, IsName name := by
    rintro c ⟨text, compiled⟩
    exact Condition.isName_of_mem_attributes (Condition.check_of_compile compiled)
  intro name mem
  cases s with
  | database statement =>
    cases statement <;> exact List.mem_singleton.mp mem ▸ h
  | table statement =>
    cases statement with
    | create table names =>
      rcases List.mem_cons.mp mem with rfl | mem
      · exact h.1
      · rcases h.2 with rfl | valid
        · cases mem
        · exact valid.isName name mem
    | drop table => exact List.mem_singleton.mp mem ▸ h
    | alter table change =>
      rcases List.mem_cons.mp mem with rfl | mem
      · exact h.1
      · exact List.mem_singleton.mp mem ▸ h.2
    | insert table values => exact List.mem_singleton.mp mem ▸ h.1
    | select table columns condition =>
      rcases List.mem_cons.mp mem with rfl | mem
      · exact h.1
      · rcases List.mem_append.mp mem with column | compared
        · cases columns with
          | all => cases column
          | columns names => exact h.2.1.2 name column
        · cases condition with
          | none => cases compared
          | some c => exact attributes (h.2.2 c rfl) name compared
    | update table assignments condition =>
      rcases List.mem_cons.mp mem with rfl | mem
      · exact h.1
      · rcases List.mem_append.mp mem with target | compared
        · obtain ⟨a, present, rfl⟩ := List.mem_map.mp target
          exact h.2.2.1 a present
        · exact attributes h.2.2.2 name compared
    | delete table condition =>
      rcases List.mem_cons.mp mem with rfl | mem
      · exact h.1
      · exact attributes h.2 name mem
    | join primary secondary =>
      obtain ⟨primaryTable, primaryOn, secondaryTable, secondaryOn⟩ := h
      simp only [names, List.mem_cons, List.not_mem_nil, or_false] at mem
      rcases mem with rfl | rfl | rfl | rfl <;> assumption

theorem hasValidParts_of_isMadeOf (h : s.IsMadeOf IsName) : s.HasValidParts := by
  have check : ∀ {c : Condition}, c.IsCompiled → c.check = .ok () := by
    rintro c ⟨text, compiled⟩
    exact Condition.check_of_compile compiled
  cases s with
  | database statement => trivial
  | table statement =>
    cases statement with
    | create table names =>
      rcases h.2 with rfl | valid
      · exact ⟨List.nodup_nil, List.not_mem_nil⟩
      · exact ⟨valid.nodup, valid.notId⟩
    | insert table values => exact h.2
    | select table columns condition =>
      refine ⟨?_, fun c same => check (h.2.2 c same)⟩
      rintro rfl
      exact h.2.1.1.some rfl
    | update table assignments condition =>
      have valid := h.2.1
      exact ⟨valid.some, valid.nodup, fun a mem => (valid.sound a mem).isLiteral, check h.2.2.2⟩
    | delete table condition => exact check h.2
    | drop | alter | join => trivial

theorem isMadeOf_of_ofTokens {tokens : List Token} {list : Option String}
    (h : ofTokens tokens list = .ok s) : s.IsMadeOf IsName :=
  (ends_ofTokens Grade.isKept_any (fun _ _ => trivial) (fun _ _ => trivial) (fun _ _ => trivial)
    fun _ _ => trivial).ok h

theorem isMadeOf_of_parse {text : String} (h : parse text = .ok s) : s.IsMadeOf IsName := by
  obtain ⟨source, -, h⟩ := bind_eq_ok.mp h
  obtain ⟨tokens, -, h⟩ := bind_eq_ok.mp h
  exact isMadeOf_of_ofTokens h

/-- A statement that is read from any tokens, with or without a list, is well formed, and it is
spelled by all tokens before the first end mark and by the list: nothing is left over. -/
theorem wellFormed_of_ofTokens {tokens : List Token} {list : Option String}
    (h : ofTokens tokens list = .ok s) :
    (∀ name ∈ s.names, validateName name = .ok () ∧ IsFileName name) ∧ s.HasValidParts ∧
      Spells (tokens.takeWhile (· != .endMark)) list s := by
  have made := isMadeOf_of_ofTokens h
  refine ⟨fun name mem => ?_, hasValidParts_of_isMadeOf made, ofTokens_eq_ok_iff.mp h⟩
  have isName := isName_of_isMadeOf made name mem
  exact ⟨isName, isName.isFileName⟩

/-- No text is cut into these tokens: one holds a parenthesis, and a second end mark comes with
tokens behind it. -/
theorem wellFormed_of_ofTokens_update :
    let tokens : List Token := [.keyword .update, .word "t(1", .keyword .set, .word "x=2,y='/'",
      .keyword .whereClause, .endMark, .word "../t", .endMark]
    let s : Statement := .table (.update "t(1" [⟨"x", "2"⟩, ⟨"y", "'/'"⟩]
      ⟨[.operand "x", .operand "1", .operator .less, .operand "y", .operand "')'",
        .operator .equal, .operator .or]⟩)
    ofTokens tokens (some "((x < 1) OR (y = ')'))") = .ok s ∧
      (∀ name ∈ s.names, validateName name = .ok () ∧ IsFileName name) ∧ s.HasValidParts ∧
      Spells (tokens.takeWhile (· != .endMark)) (some "((x < 1) OR (y = ')'))") s := by
  intro tokens s
  have read : ofTokens tokens (some "((x < 1) OR (y = ')'))") = .ok s := by decide +kernel
  exact ⟨read, wellFormed_of_ofTokens read⟩

end Statement

end TabStore
