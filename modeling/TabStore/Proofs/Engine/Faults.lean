import TabStore.Proofs.Engine.Messages
import TabStore.Proofs.Engine.Refused
import TabStore.Proofs.Statement.Faults

/-!
# Faults of databases

Once the working database of a table statement has been found, nothing that the statement does fails
over a database. So these errors tell exactly what was looked up: that a statement on tables was
read in a session without a working database, or in one whose working database is no longer there.

Results:
1. one lemma for each operation on tables, up to `TableStatement.apart_of_run`;
2. `Engine.perform_eq_noWorkingDatabase_iff`, `Engine.perform_eq_databaseNotFound_iff`: when a text
   fails for want of a database.
-/

namespace TabStore

theorem Error.IsFileFailure.apart {e : Error} (h : e.IsFileFailure) :
    e.concernsDatabase = false := by
  obtain ⟨action, cause, rfl⟩ := h
  rfl

/-! ## Tables -/

namespace Table

variable {table : Table} {tree : Tree}

theorem endsApart_readFile (path : Path) : EndsApart (readFile tree path) := by
  unfold readFile
  split
  · trivial
  · exact rfl

theorem endsApart_readSequence (path : Path) : EndsApart (readSequence tree path) := by
  unfold readSequence
  split
  · trivial
  · exact rfl
  · dsimp only
    split
    · trivial
    · exact rfl

theorem endsApart_load (directory : Path) (name : String) :
    EndsApart (load tree directory name) := by
  unfold load
  dsimp only
  split
  · exact rfl
  · refine (endsApart_readFile _).bind fun schema => ?_
    split
    · exact rfl
    · refine (endsApart_readFile _).bind fun rows => ?_
      split
      · exact rfl
      · exact (endsApart_readSequence _).bind fun _ => trivial

theorem endsApart_attributeIndex (table : Table) (key : String) :
    EndsApart (table.attributeIndex key) := by
  unfold attributeIndex
  split
  · trivial
  · exact rfl

theorem endsApart_projectionIndices (table : Table) (columns : Projection) :
    EndsApart (table.projectionIndices columns) := by
  cases columns with
  | all => trivial
  | columns names => exact Ends.mapM fun name _ => endsApart_attributeIndex table name

theorem endsApart_insert (table : Table) (values : List String) :
    EndsApart (table.insert values) := by
  unfold Table.insert
  dsimp only
  split
  · exact rfl
  · split
    · exact rfl
    · trivial

theorem endsApart_resolveAssignments (table : Table) (assignments : List Assignment) :
    EndsApart (table.resolveAssignments assignments) := by
  induction assignments with
  | nil => trivial
  | cons assignment rest ih =>
    rw [resolveAssignments]
    split
    · exact rfl
    · exact (endsApart_attributeIndex table _).bind fun index => ih.bind fun _ => trivial

theorem endsApart_setCells (changes : List (Nat × String)) (row : Row) :
    EndsApart (setCells changes row).1 := by
  induction changes generalizing row with
  | nil => trivial
  | cons change rest ih =>
    rw [setCells]
    split
    · next next _ => exact ih next
    · next e failed =>
      unfold Row.set at failed
      split at failed
      · cases failed
      · cases failed
        exact rfl

theorem endsApart_setRows (changes : List (Nat × String)) (mask : List Bool) (rows : List Row) :
    EndsApart (setRows changes mask rows).1 := by
  induction rows generalizing mask with
  | nil =>
    rw [setRows]
    trivial
  | cons row rest ih =>
    cases mask with
    | nil => trivial
    | cons isSelected mask =>
      have sets := endsApart_setCells changes row
      rw [setRows]
      split
      · split
        · next failed =>
          rw [failed] at sets
          exact sets
        · exact (ih mask).map
      · exact ih mask

theorem endsApart_update (table : Table) (mask : List Bool) (assignments : List Assignment) :
    EndsApart (table.update mask assignments).1 := by
  unfold update
  split
  · next failed => exact (endsApart_resolveAssignments table assignments).error failed
  · exact endsApart_setRows _ mask table.rows

theorem endsApart_appendAttribute (table : Table) (name : String) :
    EndsApart (table.appendAttribute name) := by
  unfold appendAttribute
  split
  · exact rfl
  · trivial

theorem endsApart_removeCells (index : Nat) (rows : List Row) :
    EndsApart (removeCells index rows).1 := by
  induction rows with
  | nil => trivial
  | cons row rest ih =>
    rw [removeCells]
    split
    · next failed =>
      unfold Row.remove at failed
      split at failed
      · cases failed
      · cases failed
        exact rfl
    · exact ih

theorem endsApart_removeAttribute (table : Table) (name : String) :
    EndsApart (table.removeAttribute name).1 := by
  unfold removeAttribute
  split
  · exact rfl
  · split
    · next failed => exact (endsApart_attributeIndex table name).error failed
    · exact endsApart_removeCells _ table.rows

theorem endsApart_join (primary secondary : Table) (on onOther : String) :
    EndsApart (primary.join on secondary onOther) :=
  (endsApart_attributeIndex primary on).bind fun _ =>
    (endsApart_attributeIndex secondary onOther).bind fun _ => trivial

end Table

/-! ## Conditions -/

namespace Condition

variable {table : Table} {row : Row}

theorem endsApart_number (raw : String) : EndsApart (number raw) := by
  unfold number
  split
  · trivial
  · exact rfl

theorem endsApart_text (raw : String) : EndsApart (text raw) := by
  unfold text
  split
  · trivial
  · exact rfl

theorem endsApart_compare (op : Operator) (cell literal : String) :
    EndsApart (compare op cell literal) := by
  have numbers : ∀ holds, EndsApart (compareNumbers holds cell literal) := fun holds =>
    (endsApart_number cell).bind fun _ => (endsApart_number literal).bind fun _ => trivial
  cases op with
  | equal | notEqual => trivial
  | less | greater | greaterEqual | lessEqual =>
    rw [compare]
    exact numbers _
  | like => exact (endsApart_text cell).bind fun _ => (endsApart_text literal).bind fun _ => trivial
  | and | or => exact rfl

theorem endsApart_evaluateOperator (op : Operator) (left right : Slot) :
    EndsApart (evaluateOperator table row op left right) := by
  unfold evaluateOperator
  split
  · split
    · trivial
    · exact rfl
  · split
    · exact rfl
    · refine (Table.endsApart_attributeIndex table _).bind fun index => ?_
      split
      · exact endsApart_compare op _ _
      · exact rfl
  · split
    · exact rfl
    · exact rfl
  · split
    · exact rfl
    · exact rfl

theorem endsApart_evaluateFrom (stack : List Slot) (terms : List Term) :
    EndsApart (evaluateFrom table row stack terms) := by
  fun_induction evaluateFrom table row stack terms with
  | case1 => trivial
  | case2 => exact rfl
  | case3 stack text rest ih => exact ih
  | case4 right left stack op rest ih => exact (endsApart_evaluateOperator op left right).bind ih
  | case5 => exact rfl

theorem endsApart_filter (condition : Condition) (table : Table) :
    EndsApart (condition.filter table) := by
  have checks : ∀ names, EndsApart (checkAttributesOf table names) := by
    intro names
    induction names with
    | nil => trivial
    | cons name rest ih => exact (Table.endsApart_attributeIndex table name).bind fun _ => ih
  exact (checks _).bind fun _ => Ends.mapM fun row _ => endsApart_evaluateFrom [] _

end Condition

/-! ## Statements on tables -/

namespace TableStatement

theorem endsApart_changed {α : Type} {outcome : Result α × Table} (h : EndsApart outcome.1) :
    EndsApart (changed outcome) := by
  unfold changed
  split
  · trivial
  · exact h

theorem endsApart_withAttributes (table : Table) (names : List String) :
    EndsApart (withAttributes table names) := by
  induction names generalizing table with
  | nil => trivial
  | cons name rest ih => exact (Table.endsApart_appendAttribute table name).bind ih

theorem endsApart_alterTable (table : Table) (change : SchemaChange) :
    EndsApart (alterTable table change) := by
  cases change with
  | add name => exact Table.endsApart_appendAttribute table name
  | drop name => exact endsApart_changed (Table.endsApart_removeAttribute table name)

theorem endsApart_selectText (table : Table) (columns : Projection) (condition : Option Condition) :
    EndsApart (selectText table columns condition) := by
  refine (Table.endsApart_projectionIndices table columns).bind fun indices => ?_
  cases condition with
  | none => trivial
  | some c => exact (Condition.endsApart_filter c table).map.bind fun _ => trivial

theorem endsApart_effect (tree : Tree) (home : Database) (statement : TableStatement) :
    EndsApart (statement.effect tree home) := by
  have load : ∀ name, EndsApart (home.load tree name) := fun name =>
    Table.endsApart_load home.path name
  cases statement with
  | create name names => exact (endsApart_withAttributes _ names).map
  | drop name => trivial
  | alter name change => exact (load name).bind fun table => (endsApart_alterTable table change).map
  | insert name values =>
    refine (load name).bind fun table => (Table.endsApart_insert table values).bind fun added => ?_
    cases added <;> trivial
  | select name columns condition =>
    exact (load name).bind fun table => (endsApart_selectText table columns condition).map
  | update name assignments condition =>
    refine (load name).bind fun table => EndsApart.map ?_
    exact (Condition.endsApart_filter condition table).bind fun mask =>
      endsApart_changed (Table.endsApart_update table mask assignments)
  | delete name condition =>
    refine (load name).bind fun table => EndsApart.map ?_
    exact (Condition.endsApart_filter condition table).bind fun _ => trivial
  | join primary secondary =>
    refine (load primary.table).bind fun left => (load secondary.table).bind fun right => ?_
    exact EndsApart.map ((Table.endsApart_join left right _ _).bind fun _ => trivial)

theorem of_silently_eq_error {step : Result Unit × Tree} {e : Error}
    (h : (perform.silently step).1 = .error (.error e)) : step.1 = .error e := by
  obtain ⟨_, ⟨⟩, failed⟩ := Outcome.ofResult_eq_error.mp h
  exact except_map_eq_error.mp failed

theorem apart_of_perform {tree : Tree} {effect : Effect} {e : Error}
    (h : (perform tree effect).1 = .error (.error e)) : e.concernsDatabase = false := by
  cases effect with
  | answer text | panic => cases h
  | store table =>
    rw [perform] at h
    exact (Change.isFileFailure_of_applyAll (of_silently_eq_error h)).apart
  | create table =>
    rw [perform] at h
    have failed := of_silently_eq_error h
    unfold Table.create at failed
    split at failed
    · cases failed
      rfl
    · exact (Change.isFileFailure_of_applyAll failed).apart
  | remove table =>
    rw [perform] at h
    have failed := of_silently_eq_error h
    unfold Table.removeFiles at failed
    split at failed
    · exact (Table.isFileFailure_of_removeEach failed).apart
    · cases failed
      rfl

/-- A statement on tables does not fail over a database. -/
theorem apart_of_run {tree : Tree} {home : Database} {statement : TableStatement} {e : Error}
    (h : (statement.run tree home).1 = .error (.error e)) : e.concernsDatabase = false := by
  unfold run at h
  split at h
  · exact apart_of_perform h
  · next failed =>
    cases h
    exact (endsApart_effect tree home statement).error failed

end TableStatement

/-! ## Statements of sessions -/

namespace Engine

variable {engine : Engine} {tree : Tree} {session : Session} {text : String}

/-- Statements on databases need no working database. -/
theorem ne_noWorkingDatabase_of_runDatabase {statement : DatabaseStatement} {e : Error}
    (h : (engine.runDatabase tree session statement).1 = .error e) : e ≠ .noWorkingDatabase := by
  rintro rfl
  have notFound : ∀ name, Database.find tree engine.root name ≠ .error .noWorkingDatabase := by
    intro name failed
    unfold Database.find at failed
    dsimp only at failed
    split at failed <;> cases failed
  have notApplied : ∀ changes, (Change.applyAll changes tree).1 ≠ .error .noWorkingDatabase := by
    intro changes failed
    obtain ⟨action, cause, same⟩ := Change.isFileFailure_of_applyAll failed
    cases same
  cases statement with
  | use name => exact notFound name (except_map_eq_error.mp h)
  | create name =>
    replace h : ((Database.under engine.root name).create tree).1 = _ := except_map_eq_error.mp h
    unfold Database.create at h
    split at h
    · cases h
    · exact notApplied _ h
  | drop name =>
    unfold runDatabase at h
    dsimp only at h
    split at h
    · next failed =>
      cases h
      rcases bind_eq_error.mp failed with missing | ⟨database, -, failed⟩
      · exact notFound name missing
      · rcases bind_eq_error.mp failed with listing | ⟨tables, -, ended⟩
        · unfold Database.tables at listing
          split at listing <;> cases listing
        · cases ended
    · next database _ =>
      replace h : (database.remove tree).1 = _ := except_map_eq_error.mp h
      unfold Database.remove at h
      split at h
      · exact notApplied _ h
      · cases h

/-- How a text can fail: without a fault of a database, as a statement on databases, or as a
statement on tables whose working database is missing. -/
theorem perform_error_cases {e : Error}
    (h : (engine.perform tree session text).1 = .error (.error e)) :
    e.concernsDatabase = false ∨
    (∃ statement, Statement.parse text = .ok (.database statement)) ∧ e ≠ .noWorkingDatabase ∨
    (∃ statement, Statement.parse text = .ok (.table statement)) ∧
      (session.workingDatabase = none ∧ e = .noWorkingDatabase ∨
        ∃ db, session.workingDatabase = some db ∧
          (Database.under engine.root db).isPresent tree = false ∧ e = .databaseNotFound db) := by
  cases parsed : Statement.parse text with
  | error fault =>
    have refused : engine.prepare tree session text = .error fault := by
      rw [prepare, parsed, error_bind]
    rw [perform_of_error refused] at h
    cases h
    exact .inl ((Statement.endsApart_parse text).error parsed)
  | ok statement =>
    cases statement with
    | database statement =>
      rw [perform_of_prepare (prepare_database parsed)] at h
      obtain ⟨_, ⟨⟩, failed⟩ := Outcome.ofResult_eq_error.mp h
      exact .inr (.inl ⟨⟨statement, rfl⟩, ne_noWorkingDatabase_of_runDatabase failed⟩)
    | table statement =>
      cases working : session.workingDatabase with
      | none =>
        rw [perform_of_error (prepare_of_no_database parsed working)] at h
        cases h
        exact .inr (.inr ⟨⟨statement, rfl⟩, .inl ⟨rfl, rfl⟩⟩)
      | some db =>
        cases present : tree.isDirectory (Database.under engine.root db).path with
        | false =>
          rw [perform_of_not_isDirectory working parsed present] at h
          cases h
          exact .inr (.inr ⟨⟨statement, rfl⟩, .inr ⟨db, rfl, present, rfl⟩⟩)
        | true =>
          rw [perform_of_isDirectory working parsed present] at h
          exact .inl (TableStatement.apart_of_run (except_map_eq_error.mp h))

/-- A text fails for want of a working database exactly if it is a statement on tables in a session
without one. -/
theorem perform_eq_noWorkingDatabase_iff :
    (engine.perform tree session text).1 = .error (.error .noWorkingDatabase) ↔
      (∃ statement, Statement.parse text = .ok (.table statement)) ∧
        session.workingDatabase = none := by
  constructor
  · intro failed
    rcases perform_error_cases failed with
      apart | ⟨-, other⟩ | ⟨read, ⟨working, -⟩ | ⟨db, -, -, same⟩⟩
    · cases apart
    · exact absurd rfl other
    · exact ⟨read, working⟩
    · cases same
  · rintro ⟨⟨statement, parsed⟩, working⟩
    rw [perform_of_error (prepare_of_no_database parsed working)]

/-- A text that is no statement on databases fails for want of the database of a name exactly if it
is a statement on tables in a session on that database, and the directory of the database is not
there. -/
theorem perform_eq_databaseNotFound_iff {name : String}
    (other : ∀ statement, Statement.parse text ≠ .ok (.database statement)) :
    (engine.perform tree session text).1 = .error (.error (.databaseNotFound name)) ↔
      (∃ statement, Statement.parse text = .ok (.table statement)) ∧
        session.workingDatabase = some name ∧
          (Database.under engine.root name).isPresent tree = false := by
  constructor
  · intro failed
    rcases perform_error_cases failed with apart | ⟨⟨statement, parsed⟩, -⟩ |
      ⟨read, ⟨-, same⟩ | ⟨db, working, absent, same⟩⟩
    · cases apart
    · exact absurd parsed (other statement)
    · cases same
    · cases same
      exact ⟨read, working, absent⟩
  · rintro ⟨⟨statement, parsed⟩, working, absent⟩
    rw [perform_of_not_isDirectory working parsed absent]

end Engine

end TabStore
