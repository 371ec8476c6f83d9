import Mathlib.Data.List.AList
import TabStore.Engine

/-!
# Running statements in memory

An engine without files: its state is a map from the names of databases to maps from the names of
tables to what the tables hold. Statements are read as always and use the same operations on tables
and conditions; a statement that fails or panics has no next state.

Sessions are served in any order: each request names its session, and all sessions share the data.
-/

namespace TabStore

/-- What a table holds. -/
structure Contents where
  attributes : List String
  rows : List Row
  lastId : Nat
deriving DecidableEq, Repr

namespace Contents

def ofTable (table : Table) : Contents := ⟨table.attributes, table.rows, table.lastId⟩

/-- The table with these contents that has a name in a database. -/
def table (contents : Contents) (home : Database) (name : String) : Table :=
  { home.table name with
    attributes := contents.attributes
    rows := contents.rows
    lastId := contents.lastId }

end Contents

/-- The tables of a database by their names. -/
abbrev Tables := AList fun _ : String => Contents

/-- All databases by their names. -/
abbrev Store := AList fun _ : String => Tables

section

variable {β : Type} {map : AList fun _ : String => β} {key other : String} {value found : β}

theorem lookup_insert_eq_some : (map.insert key value).lookup other = some found ↔
    (other = key ∧ found = value) ∨ (other ≠ key ∧ map.lookup other = some found) := by
  by_cases same : other = key
  · subst same
    simp [eq_comm]
  · simp [AList.lookup_insert_ne same, same]

theorem lookup_erase_eq_some : (map.erase key).lookup other = some found ↔
    other ≠ key ∧ map.lookup other = some found := by
  by_cases same : other = key
  · subst same
    simp
  · simp [AList.lookup_erase_ne same, same]

end

namespace Memory

def load (home : Database) (tables : Tables) (name : String) : Result Table :=
  match tables.lookup name with
  | some contents => .ok (contents.table home name)
  | none => .error (.tableNotFound name)

/-- The tables after a change to one of them. -/
def stored (tables : Tables) (name : String) (table : Table) : Option String × Tables :=
  (none, tables.insert name (.ofTable table))

/-- The text that a table statement answers with, and the tables after it. -/
def runTable (home : Database) (tables : Tables) :
    TableStatement → Outcome (Option String × Tables)
  | .create name attributes => .ofResult do
    let table ← TableStatement.withAttributes (home.table name) attributes
    if name ∈ tables then .error (.tableExists name) else return stored tables name table
  | .drop name => .ofResult <|
    if name ∈ tables then .ok (none, tables.erase name) else .error (.tableNotFound name)
  | .alter name change => .ofResult do
    let table ← load home tables name
    stored tables name <$> TableStatement.alterTable table change
  | .insert name values => do
    let table ← .ofResult (load home tables name)
    match ← .ofResult (table.insert values) with
    | some (_, table) => return stored tables name table
    | none => .error .panic
  | .select name columns condition => .ofResult do
    let table ← load home tables name
    let text ← TableStatement.selectText table columns condition
    return (some text, tables)
  | .update name assignments condition => .ofResult do
    let table ← load home tables name
    stored tables name <$> TableStatement.updateTable table assignments condition
  | .delete name condition => .ofResult do
    let table ← load home tables name
    stored tables name <$> TableStatement.deleteRows table condition
  | .join primary secondary => .ofResult do
    let left ← load home tables primary.table
    let right ← load home tables secondary.table
    let text ← TableStatement.joinText left right primary.on secondary.on
    return (some text, tables)

def runDatabase (store : Store) (session : Session) :
    DatabaseStatement → Result (Response × Store)
  | .use name =>
    if name ∈ store then .ok (⟨none, ⟨some name⟩⟩, store) else .error (.databaseNotFound name)
  | .create name =>
    if name ∈ store then .error (.databaseExists name)
    else .ok (⟨none, session⟩, store.insert name ∅)
  | .drop name =>
    if name ∈ store then .ok (⟨none, Engine.afterDrop session name⟩, store.erase name)
    else .error (.databaseNotFound name)

/-- Reads and runs one statement. The root only names the tables that messages are about. -/
def perform (root : Path) (store : Store) (session : Session) (text : String) :
    Outcome (Response × Store) := do
  match ← .ofResult (Statement.parse text) with
  | .database statement => .ofResult (runDatabase store session statement)
  | .table statement =>
    match session.workingDatabase with
    | none => .error (.error .noWorkingDatabase)
    | some name =>
      match store.lookup name with
      | none => .error (.error (.databaseNotFound name))
      | some tables => do
        let (text, tables) ← runTable (Database.under root name) tables statement
        return (⟨text, session⟩, store.insert name tables)

end Memory

/-! ## Serving sessions -/

/-- The data that all sessions share, and what each session remembers. -/
structure Served (σ δ : Type) where
  data : δ
  sessions : σ → Session

namespace Served

variable {σ δ : Type} [DecidableEq σ]

/-- All sessions are new. -/
def start (data : δ) : Served σ δ := ⟨data, fun _ => Session.new⟩

/-- Answers one request. A statement that fails or panics leaves its session as it was. -/
def step (perform : δ → Session → String → Outcome Response × δ) (served : Served σ δ)
    (request : σ × String) : Outcome Response × Served σ δ :=
  let (outcome, data) := perform served.data (served.sessions request.1) request.2
  match outcome with
  | .ok response =>
    (outcome, ⟨data, fun who => if who = request.1 then response.session else served.sessions who⟩)
  | .error _ => (outcome, ⟨data, served.sessions⟩)

/-- Answers requests in turn. -/
def run (perform : δ → Session → String → Outcome Response × δ) (served : Served σ δ) :
    List (σ × String) → List (Outcome Response) × Served σ δ
  | [] => ([], served)
  | request :: rest =>
    let (outcome, next) := step perform served request
    let (outcomes, last) := run perform next rest
    (outcome :: outcomes, last)

end Served

/-- One statement of a session in memory; it keeps the store unless it succeeds. -/
def Memory.step (root : Path) (store : Store) (session : Session) (text : String) :
    Outcome Response × Store :=
  match perform root store session text with
  | .ok (response, next) => (.ok response, next)
  | .error failure => (.error failure, store)

end TabStore
