import TabStore.Statement.Effect
import TabStore.Statement.Parser

/-!
# Running statements

A statement is prepared, which reads it and looks up the working database it needs, and then
executed on the file tree. A session keeps the name of its working database from one statement to
the next; a statement that fails leaves the session as it was.
-/

namespace TabStore

/-- What a session remembers. -/
structure Session where
  workingDatabase : Option String
deriving DecidableEq, Repr

def Session.new : Session := ⟨none⟩

/-- A statement with the database that it runs on. -/
inductive Command
  | database (statement : DatabaseStatement)
  | table (home : Database) (statement : TableStatement)
deriving DecidableEq, Repr

def Command.statement : Command → Statement
  | .database statement => .database statement
  | .table _ statement => .table statement

structure Response where
  text : Option String
  session : Session
deriving DecidableEq, Repr

/-- Runs statements on the databases in one root directory. -/
structure Engine where
  root : Path
deriving DecidableEq, Repr

namespace Engine

/-- Makes the root directory if it is missing. -/
def openAt (root : Path) (tree : Tree) : Result Engine × Tree :=
  match tree.makeDirectories root with
  | (.ok (), tree) => (.ok ⟨root⟩, tree)
  | (.error cause, tree) => (.error (.fileFailure ("creating " ++ root.text) cause), tree)

/-- Reads a statement and checks that the database it needs is there. -/
def prepare (engine : Engine) (tree : Tree) (session : Session) (text : String) :
    Result Command := do
  match ← Statement.parse text with
  | .database statement => return .database statement
  | .table statement =>
    match session.workingDatabase with
    | none => .error .noWorkingDatabase
    | some name => return .table (← Database.find tree engine.root name) statement

/-- The session after a database is dropped: a session on that database is left with none. -/
def afterDrop (session : Session) (name : String) : Session :=
  if session.workingDatabase = some name then ⟨none⟩ else session

def runDatabase (engine : Engine) (tree : Tree) (session : Session) :
    DatabaseStatement → Result Response × Tree
  | .use name =>
    ((Database.find tree engine.root name).map fun _ => ⟨none, ⟨some name⟩⟩, tree)
  | .create name =>
    let (outcome, tree) := (Database.under engine.root name).create tree
    (outcome.map fun _ => ⟨none, session⟩, tree)
  | .drop name =>
    match dropTarget tree engine.root name with
    | .error e => (.error e, tree)
    | .ok database =>
      let (outcome, tree) := database.remove tree
      (outcome.map fun _ => ⟨none, afterDrop session name⟩, tree)
where
  dropTarget (tree : Tree) (root : Path) (name : String) : Result Database := do
    let database ← Database.find tree root name
    let _ ← database.tables tree
    return database

def execute (engine : Engine) (tree : Tree) (session : Session) :
    Command → Outcome Response × Tree
  | .database statement =>
    let (outcome, tree) := engine.runDatabase tree session statement
    (.ofResult outcome, tree)
  | .table home statement =>
    let (outcome, tree) := TableStatement.run tree home statement
    (outcome.map fun text => ⟨text, session⟩, tree)

/-- Reads, checks and runs one statement. -/
def perform (engine : Engine) (tree : Tree) (session : Session) (text : String) :
    Outcome Response × Tree :=
  match engine.prepare tree session text with
  | .ok command => engine.execute tree session command
  | .error e => (.error (.error e), tree)

end Engine

end TabStore
