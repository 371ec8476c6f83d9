import Mathlib.Control.Monad.Basic
import TabStore.Engine
import TabStore.Proofs.Result

/-!
# Refused statements

A statement can be refused while it is read, for want of a database, for what its table holds, or
half-way through its rows, and it can panic over an id. Whatever the tree looks like, none of this
happens after a first change: only the files themselves can stop a statement that has begun to
change them.

Results:
1. `isFileFailure_of_applyAll`: steps of work on a tree are stopped by files alone;
2. `TableStatement.isRefusal_run`, `Engine.isRefusal_perform`: what fails for another reason leaves
   the tree as it was;
3. `TableStatement.run_of_isQuestion`: what only looks changes nothing, however it ends;
4. `Engine.perform_refused`: both, for every text, session and tree.
-/

namespace TabStore

/-- A failure of a file, and not of what was asked for or of what a file holds. -/
def Error.IsFileFailure (fault : Error) : Prop := ∃ action cause, fault = .fileFailure action cause

/-- A statement that breaks off over a file. A panic does not. -/
def Failure.IsFileFailure (fault : Failure) : Prop :=
  ∃ action cause, fault = .error (.fileFailure action cause)

/-- Where a step breaks off and `OfFiles` does not say that a file is to blame, its tree is the one
before it. -/
def IsRefusal {ε α : Type} (OfFiles : ε → Prop) (before : Tree) (step : Except ε α × Tree) : Prop :=
  ∀ fault, step.1 = .error fault → ¬ OfFiles fault → step.2 = before

namespace IsRefusal

variable {ε α β : Type} {OfFiles : ε → Prop} {before : Tree} {step : Except ε α × Tree}

theorem same (outcome : Except ε α) : IsRefusal OfFiles before (outcome, before) := fun _ _ _ => rfl

theorem of_isFileFailure (h : ∀ fault, step.1 = .error fault → OfFiles fault) :
    IsRefusal OfFiles before step := fun fault failed other => absurd (h fault failed) other

/-- What a step returns does not matter where it fails. -/
theorem map (h : IsRefusal OfFiles before step) (f : α → β) :
    IsRefusal OfFiles before (step.1.map f, step.2) := by
  intro fault failed other
  exact h fault (except_map_eq_error.mp failed) other

theorem ofResult {step : Result α × Tree} (h : IsRefusal Error.IsFileFailure before step) :
    IsRefusal Failure.IsFileFailure before (Outcome.ofResult step.1, step.2) := by
  intro fault failed other
  obtain ⟨e, rfl, ended⟩ := Outcome.ofResult_eq_error.mp failed
  refine h e ended ?_
  rintro ⟨action, cause, rfl⟩
  exact other ⟨action, cause, rfl⟩

end IsRefusal

/-! ## Changes -/

theorem Change.isFileFailure_of_applyAll {changes : List Change} {tree : Tree} {fault : Error}
    (h : (applyAll changes tree).1 = .error fault) : fault.IsFileFailure := by
  induction changes generalizing tree with
  | nil => cases h
  | cons change rest ih =>
    rw [applyAll] at h
    split at h
    · exact ih h
    · cases h
      exact ⟨_, _, rfl⟩

namespace Table

theorem isFileFailure_of_removeEach {paths : List Path} {tree : Tree} {fault : Error}
    (h : (removeEach paths tree).1 = .error fault) : fault.IsFileFailure := by
  induction paths generalizing tree with
  | nil => cases h
  | cons path rest ih =>
    rw [removeEach] at h
    split at h
    · exact ih h
    · exact ih h
    · cases h
      exact ⟨_, _, rfl⟩

variable (table : Table) (tree : Tree)

theorem isRefusal_persist : IsRefusal Error.IsFileFailure tree (table.persist tree) :=
  .of_isFileFailure fun _ => Change.isFileFailure_of_applyAll

theorem isRefusal_create : IsRefusal Error.IsFileFailure tree (table.create tree) := by
  unfold create
  split
  · exact .same _
  · exact table.isRefusal_persist tree

theorem isRefusal_removeFiles : IsRefusal Error.IsFileFailure tree (table.removeFiles tree) := by
  unfold removeFiles
  split
  · exact .of_isFileFailure fun _ => isFileFailure_of_removeEach
  · exact .same _

end Table

namespace Database

variable (database : Database) (tree : Tree)

theorem isRefusal_create : IsRefusal Error.IsFileFailure tree (database.create tree) := by
  unfold create
  split
  · exact .same _
  · exact .of_isFileFailure fun _ => Change.isFileFailure_of_applyAll

theorem isRefusal_remove : IsRefusal Error.IsFileFailure tree (database.remove tree) := by
  unfold remove
  split
  · exact .of_isFileFailure fun _ => Change.isFileFailure_of_applyAll
  · exact .same _

end Database

/-! ## Statements -/

/-- Statements that only look. -/
def Statement.IsQuestion : Statement → Prop
  | .database (.use _) | .table (.select ..) | .table (.join ..) => True
  | _ => False

theorem Statement.isQuestion_of_verb {s : Statement}
    (h : s.verb = .use ∨ s.verb = .select ∨ s.verb = .join) : s.IsQuestion := by
  cases s with
  | database statement => cases statement <;> simp [verb, IsQuestion] at h ⊢
  | table statement => cases statement <;> simp [verb, IsQuestion] at h ⊢

namespace TableStatement

variable (tree : Tree) (home : Database)

theorem silently_eq (step : Result Unit × Tree) :
    perform.silently step = (.ofResult (step.1.map fun _ => none), step.2) := rfl

theorem isRefusal_silently {step : Result Unit × Tree}
    (h : IsRefusal Error.IsFileFailure tree step) :
    IsRefusal Failure.IsFileFailure tree (perform.silently step) :=
  (h.map fun _ => (none : Option String)).ofResult

theorem isRefusal_perform (effect : Effect) :
    IsRefusal Failure.IsFileFailure tree (perform tree effect) := by
  cases effect with
  | answer text => exact .same _
  | store table =>
    rw [perform]
    exact isRefusal_silently tree (table.isRefusal_persist tree)
  | create table =>
    rw [perform]
    exact isRefusal_silently tree (table.isRefusal_create tree)
  | remove table =>
    rw [perform]
    exact isRefusal_silently tree (table.isRefusal_removeFiles tree)
  | panic => exact .same _

theorem isRefusal_run (statement : TableStatement) :
    IsRefusal Failure.IsFileFailure tree (run tree home statement) := by
  unfold run
  split
  · exact isRefusal_perform tree _
  · exact .same _

/-- A statement that only looks at tables changes nothing, however it ends. -/
theorem run_of_isQuestion {statement : TableStatement}
    (question : (Statement.table statement).IsQuestion) : (run tree home statement).2 = tree := by
  have answers : ∀ effect, statement.effect tree home = .ok effect →
      ∃ text, effect = .answer text := by
    intro effect found
    cases statement with
    | select name columns condition =>
      obtain ⟨table, -, found⟩ := bind_eq_ok.mp found
      obtain ⟨text, -, rfl⟩ := map_eq_ok.mp found
      exact ⟨text, rfl⟩
    | join primary secondary =>
      obtain ⟨left, -, found⟩ := bind_eq_ok.mp found
      obtain ⟨right, -, found⟩ := bind_eq_ok.mp found
      obtain ⟨text, -, rfl⟩ := map_eq_ok.mp found
      exact ⟨text, rfl⟩
    | create | drop | alter | insert | update | delete => cases question
  unfold run
  split
  · next effect found =>
    obtain ⟨text, rfl⟩ := answers effect found
    rfl
  · rfl

end TableStatement

namespace Engine

variable (engine : Engine) (tree : Tree) (session : Session)

theorem isRefusal_runDatabase (statement : DatabaseStatement) :
    IsRefusal Error.IsFileFailure tree (engine.runDatabase tree session statement) := by
  cases statement with
  | use name => exact .same _
  | create name =>
    have created := ((Database.under engine.root name).isRefusal_create tree).map
      fun _ => (⟨none, session⟩ : Response)
    exact created
  | drop name =>
    unfold runDatabase
    dsimp only
    cases runDatabase.dropTarget tree engine.root name with
    | error fault => exact .same _
    | ok database =>
      have removed := (database.isRefusal_remove tree).map
        fun _ => (⟨none, afterDrop session name⟩ : Response)
      exact removed

theorem isRefusal_execute (command : Command) :
    IsRefusal Failure.IsFileFailure tree (engine.execute tree session command) := by
  cases command with
  | database statement => exact (engine.isRefusal_runDatabase tree session statement).ofResult
  | table home statement =>
    have ran := (statement.isRefusal_run tree home).map fun text => (⟨text, session⟩ : Response)
    exact ran

theorem isRefusal_perform (text : String) :
    IsRefusal Failure.IsFileFailure tree (engine.perform tree session text) := by
  unfold perform
  split
  · next command _ => exact engine.isRefusal_execute tree session command
  · exact .same _

/-- A statement is prepared as the one that its text is read as. -/
theorem statement_of_prepare {text : String} {command : Command}
    (h : engine.prepare tree session text = .ok command) :
    Statement.parse text = .ok command.statement := by
  obtain ⟨s, read, h⟩ := bind_eq_ok.mp h
  cases s with
  | database statement =>
    cases h
    exact read
  | table statement =>
    dsimp only at h
    split at h
    · cases h
    · obtain ⟨home, -, same⟩ := bind_eq_ok.mp h
      cases same
      exact read

theorem execute_of_isQuestion {command : Command} (question : command.statement.IsQuestion) :
    (engine.execute tree session command).2 = tree := by
  cases command with
  | database statement =>
    cases statement with
    | use name => rfl
    | create | drop => cases question
  | table home statement => exact TableStatement.run_of_isQuestion tree home question

/-- A statement that is refused for any reason but its files, or that panics, leaves no trace, and
USE, SELECT and JOIN never leave one. This holds on every tree. -/
theorem perform_refused (text : String) :
    (∀ fault, (engine.perform tree session text).1 = .error fault → ¬ fault.IsFileFailure →
      (engine.perform tree session text).2 = tree) ∧
    ∀ s, Statement.parse text = .ok s → s.verb = .use ∨ s.verb = .select ∨ s.verb = .join →
      (engine.perform tree session text).2 = tree := by
  refine ⟨engine.isRefusal_perform tree session text, fun s read verb => ?_⟩
  unfold perform
  split
  · next command prepared =>
    have same := (engine.statement_of_prepare tree session prepared).symm.trans read
    rw [Except.ok.injEq] at same
    exact engine.execute_of_isQuestion tree session (same ▸ Statement.isQuestion_of_verb verb)
  · rfl

/-- A database `x` with a table `t` in which one cell is no number. -/
def mixedTable : Tree :=
  let database := ((Location.start (.above 0)).child "d").child "x"
  ⟨[((Location.start (.above 0)).child "d", .directory), (database, .directory),
    (database.child "t.txt", .file (.text "id\nn\n")),
    (database.child "t.tsv", .file (.text "1\t5\n2\t'q'\n")),
    (database.child "t.seq", .file (.text "2\n"))]⟩

theorem perform_refused_half_way :
    (perform ⟨⟨"d"⟩⟩ mixedTable ⟨some "x"⟩ "UPDATE t SET n=1 WHERE n<9;").1 =
      .error (.error (.nonNumericOperand "'q'")) ∧
    (perform ⟨⟨"d"⟩⟩ mixedTable ⟨some "x"⟩ "UPDATE t SET n=1 WHERE n<9;").2 = mixedTable ∧
    (perform ⟨⟨"d"⟩⟩ mixedTable ⟨some "x"⟩ "SELECT * FROM t WHERE n=5;").2 = mixedTable := by
  have failed : (perform ⟨⟨"d"⟩⟩ mixedTable ⟨some "x"⟩ "UPDATE t SET n=1 WHERE n<9;").1 =
      .error (.error (.nonNumericOperand "'q'")) := by
    decide +kernel
  have read : Statement.parse "SELECT * FROM t WHERE n=5;" =
      .ok (.table (.select "t" .all (some ⟨[.operand "n", .operand "5", .operator .equal]⟩))) := by
    decide +kernel
  exact ⟨failed, (perform_refused _ _ _ _).1 _ failed nofun,
    (perform_refused _ _ _ _).2 _ read (.inr (.inl rfl))⟩

end Engine

end TabStore
