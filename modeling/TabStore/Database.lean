import TabStore.Table.Stored

/-!
# Databases

A database is a directory under the root; its tables are stored there.
-/

namespace TabStore

structure Database where
  name : String
  path : Path
deriving DecidableEq, Repr

namespace Database

def under (root : Path) (name : String) : Database := ⟨name, root.join name⟩

/-- A database exists exactly when its directory does. -/
def isPresent (database : Database) (tree : Tree) : Bool := tree.isDirectory database.path

/-- The database of a name, if there is one. -/
def find (tree : Tree) (root : Path) (name : String) : Result Database :=
  let database := under root name
  if database.isPresent tree then .ok database else .error (.databaseNotFound name)

def create (database : Database) (tree : Tree) : Result Unit × Tree :=
  if tree.contains database.path then (.error (.databaseExists database.name), tree)
  else Change.applyAll [.makeDirectory database.path] tree

/-- Removes what is in the directory of a database, and then the directory. -/
def remove (database : Database) (tree : Tree) : Result Unit × Tree :=
  if database.isPresent tree then
    Change.applyAll [.clearDirectory database.path, .removeDirectory database.path] tree
  else (.error (.databaseNotFound database.name), tree)

/-- The names of the tables, in order. -/
def tables (database : Database) (tree : Tree) : Result (List String) :=
  match tree.list database.path with
  | .error cause => .error (.fileFailure ("listing " ++ database.path.text) cause)
  | .ok names =>
    .ok ((names.filterMap (stemBefore? Table.schemaExtension)).mergeSort fun a b => a ≤ b)

def table (database : Database) (name : String) : Table := Table.new database.path name

def load (database : Database) (tree : Tree) (name : String) : Result Table :=
  Table.load tree database.path name

end Database

end TabStore
