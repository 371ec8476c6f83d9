import TabStore.Condition.Basic
import TabStore.Items

/-!
# Statements

A statement is about a database as a whole or about the tables of the working database.
-/

namespace TabStore

inductive DatabaseStatement
  | use (name : String)
  | create (name : String)
  | drop (name : String)
deriving DecidableEq, Repr

/-- A change to the attributes of a table. -/
inductive SchemaChange
  | add (name : String)
  | drop (name : String)
deriving DecidableEq, Repr

/-- A table and the attribute that it is joined on. -/
structure JoinSide where
  table : String
  on : String
deriving DecidableEq, Repr

inductive TableStatement
  | create (table : String) (attributes : List String)
  | drop (table : String)
  | alter (table : String) (change : SchemaChange)
  | insert (table : String) (values : List String)
  | select (table : String) (columns : Projection) (condition : Option Condition)
  | update (table : String) (assignments : List Assignment) (condition : Condition)
  | delete (table : String) (condition : Condition)
  | join (primary secondary : JoinSide)
deriving DecidableEq, Repr

inductive Statement
  | database (statement : DatabaseStatement)
  | table (statement : TableStatement)
deriving DecidableEq, Repr

/-- The keyword that a statement starts with. -/
def Statement.verb : Statement → Keyword
  | .database (.use _) => .use
  | .database (.create _) | .table (.create ..) => .create
  | .database (.drop _) | .table (.drop _) => .drop
  | .table (.alter ..) => .alter
  | .table (.insert ..) => .insert
  | .table (.select ..) => .select
  | .table (.update ..) => .update
  | .table (.delete ..) => .delete
  | .table (.join ..) => .join

/-- Whether a statement needs a working database. -/
def Statement.isTableScoped : Statement → Bool
  | .database _ => false
  | .table _ => true

end TabStore
