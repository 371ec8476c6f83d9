import TabStore.Condition.Evaluate
import TabStore.Database
import TabStore.Statement.Basic
import TabStore.Table.Join

/-!
# Effects of table statements

What a statement does to its tables is found out first, by reading files and computing; only then
is it done. So a statement that is refused has changed nothing, and each statement changes the files
of at most one table.
-/

namespace TabStore

namespace TableStatement

/-- The text that a selection shows. -/
def selectText (table : Table) (columns : Projection) (condition : Option Condition) :
    Result String := do
  let indices ← table.projectionIndices columns
  let mask ← match condition with
    | none => .ok none
    | some condition => some <$> condition.filter table
  return table.render indices mask

def joinText (primary secondary : Table) (primaryOn secondaryOn : String) : Result String := do
  let joined ← primary.join primaryOn secondary secondaryOn
  return joined.render (List.range joined.attributes.length) none

/-- The first error, or the changed table. -/
def changed {α : Type} : Result α × Table → Result Table
  | (.ok _, table) => .ok table
  | (.error e, _) => .error e

/-- A table with the attributes of a CREATE TABLE. -/
def withAttributes (table : Table) : List String → Result Table
  | [] => .ok table
  | name :: rest => do
    let table ← table.appendAttribute name
    withAttributes table rest

def alterTable (table : Table) : SchemaChange → Result Table
  | .add name => table.appendAttribute name
  | .drop name => changed (table.removeAttribute name)

def updateTable (table : Table) (assignments : List Assignment) (condition : Condition) :
    Result Table := do
  let mask ← condition.filter table
  changed (table.update mask assignments)

def deleteRows (table : Table) (condition : Condition) : Result Table := do
  let mask ← condition.filter table
  return table.delete mask

/-- What a statement does: it answers with a text, it stores, creates or removes a table, or it
panics. -/
inductive Effect
  | answer (text : String)
  | store (table : Table)
  | create (table : Table)
  | remove (table : Table)
  | panic
deriving DecidableEq, Repr

/-- What a statement is to do, found out without changing anything. -/
def effect (tree : Tree) (home : Database) : TableStatement → Result Effect
  | .create table attributes => .create <$> withAttributes (home.table table) attributes
  | .drop table => .ok (.remove (home.table table))
  | .alter table change => do
    let table ← home.load tree table
    .store <$> alterTable table change
  | .insert table values => do
    let table ← home.load tree table
    match ← table.insert values with
    | some (_, table) => return .store table
    | none => return .panic
  | .select table columns condition => do
    let table ← home.load tree table
    .answer <$> selectText table columns condition
  | .update table assignments condition => do
    let table ← home.load tree table
    .store <$> updateTable table assignments condition
  | .delete table condition => do
    let table ← home.load tree table
    .store <$> deleteRows table condition
  | .join primary secondary => do
    let left ← home.load tree primary.table
    let right ← home.load tree secondary.table
    .answer <$> joinText left right primary.on secondary.on

def perform (tree : Tree) : Effect → Outcome (Option String) × Tree
  | .answer text => (.ok (some text), tree)
  | .store table => silently (table.persist tree)
  | .create table => silently (table.create tree)
  | .remove table => silently (table.removeFiles tree)
  | .panic => (.error .panic, tree)
where
  silently : Result Unit × Tree → Outcome (Option String) × Tree
    | (outcome, tree) => (.ofResult (outcome.map fun _ => none), tree)

def run (tree : Tree) (home : Database) (statement : TableStatement) :
    Outcome (Option String) × Tree :=
  match effect tree home statement with
  | .ok effect => perform tree effect
  | .error e => (.error (.error e), tree)

end TableStatement

end TabStore
