import TabStore.Engine

/-!
# Footprints

The paths that a statement looks at or changes: the directory of a database, or the files of the
tables that it names and the temporary files that replace them.
-/

namespace TabStore

namespace Table

def files (table : Table) : List Path :=
  [table.schemaPath, table.rowsPath, table.sequencePath]

/-- The files of a table, after what stands beside each while it is replaced. -/
def paths (table : Table) : List Path :=
  table.files.map (·.addExtension temporaryExtension) ++ table.files

end Table

def TableStatement.tables : TableStatement → List String
  | .create table _ | .drop table | .alter table _ | .insert table _ | .select table ..
  | .update table .. | .delete table _ => [table]
  | .join primary secondary => [primary.table, secondary.table]

def DatabaseStatement.name : DatabaseStatement → String
  | .use name | .create name | .drop name => name

namespace Engine

def footprint (engine : Engine) (session : Session) : Statement → List Path
  | .database statement => [(Database.under engine.root statement.name).path]
  | .table statement =>
    match session.workingDatabase with
    | none => []
    | some name =>
      let home := Database.under engine.root name
      home.path :: statement.tables.flatMap fun table => (home.table table).paths

end Engine

end TabStore
