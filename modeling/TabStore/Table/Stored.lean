import TabStore.Files.Tree
import TabStore.Table.Basic

/-!
# Stored tables

A table is stored in three files of its directory: one attribute a line, one row a line, and the
last id. Every file is replaced by writing a new one beside it and renaming that over it.
-/

namespace TabStore.Table

def schemaExtension : String := "txt"

def file (table : Table) (extension : String) : Path :=
  table.directory.join (table.name ++ "." ++ extension)

def schemaPath (table : Table) : Path := table.file schemaExtension

def rowsPath (table : Table) : Path := table.file "tsv"

def sequencePath (table : Table) : Path := table.file "seq"

/-- A table is there as soon as one of its first two files is. -/
def isStored (table : Table) (tree : Tree) : Bool :=
  tree.contains table.schemaPath || tree.contains table.rowsPath

def schemaText (table : Table) : String := Text.unlines table.attributes

def rowsText (table : Table) : String := Text.unlines (table.rows.map Row.line)

def sequenceText (table : Table) : String := Text.unlines [toString table.lastId]

def temporaryExtension : String := "tmp"

/-- Replacing a file by a new one. -/
def replacement (path : Path) (text : String) : List Change :=
  let temporary := path.addExtension temporaryExtension
  [.write temporary text, .rename temporary path]

/-- The steps that store a table. -/
def persistChanges (table : Table) : List Change :=
  replacement table.schemaPath table.schemaText ++
    replacement table.rowsPath table.rowsText ++
    replacement table.sequencePath table.sequenceText

def persist (table : Table) (tree : Tree) : Result Unit × Tree :=
  Change.applyAll table.persistChanges tree

/-- Stores a table that is not there yet. -/
def create (table : Table) (tree : Tree) : Result Unit × Tree :=
  if table.isStored tree then (.error (.tableExists table.name), tree)
  else table.persist tree

/-- Removes files one after the other; those that are missing are passed over. -/
def removeEach : List Path → Tree → Result Unit × Tree
  | [], tree => (.ok (), tree)
  | path :: rest, tree =>
    match (Change.remove path).apply tree with
    | .ok next => removeEach rest next
    | .error .notFound => removeEach rest tree
    | .error cause => (.error (.fileFailure (Change.remove path).action cause), tree)

def removeFiles (table : Table) (tree : Tree) : Result Unit × Tree :=
  if table.isStored tree then
    removeEach [table.schemaPath, table.rowsPath, table.sequencePath] tree
  else (.error (.tableNotFound table.name), tree)

/-- The attributes in a schema file, one a line without surrounding white space. -/
def readAttributes (text : String) : List String :=
  ((Text.lines text.toList).filter fun line => !line.all Text.isBlank).map fun line =>
    String.ofList (Text.trim line)

def readId? (text : List Char) : Option Nat := Number.readBelow idLimit text

/-- The row in a line of the row file, and its id. -/
def readRow (width number : Nat) (line : List Char) : Except String (Nat × Row) :=
  let row := Row.ofLine line
  if row.width ≠ width then
    .error ("line " ++ toString number ++ " has " ++ toString row.width ++
      " cells, schema has " ++ toString width ++ " attributes")
  else match readId? row.id.toList with
    | some id => .ok (id, row)
    | none => .error ("line " ++ toString number ++ " has id " ++ Text.quoted row.id)

/-- The rows in lines numbered from `number` on, with their ids; empty lines are passed over. -/
def readRows (width : Nat) (number : Nat) : List (List Char) → Except String (List (Nat × Row))
  | [] => .ok []
  | line :: rest =>
    if line.isEmpty then readRows width (number + 1) rest
    else do
      let row ← readRow width number line
      let rows ← readRows width (number + 1) rest
      return row :: rows

/-- What a file holds, under the message for reading it. -/
def readFile (tree : Tree) (path : Path) : Result String :=
  match tree.readText path with
  | .ok text => .ok text
  | .error cause => .error (.fileFailure ("reading " ++ path.text) cause)

/-- The recorded last id, which is 0 if there is no record. -/
def readSequence (tree : Tree) (path : Path) : Result Nat :=
  match tree.readText path with
  | .error .notFound => .ok 0
  | .error cause => .error (.fileFailure ("reading " ++ path.text) cause)
  | .ok text =>
    let trimmed := Text.trim text.toList
    match readId? trimmed with
    | some id => .ok id
    | none =>
      .error (.corruptTable path.text (Text.quoted (String.ofList trimmed) ++ " is not an id"))

/-- Reads a table back. The last id is the highest of the recorded one and those in use. -/
def load (tree : Tree) (directory : Path) (name : String) : Result Table := do
  let table := new directory name
  if !tree.contains table.schemaPath then .error (.tableNotFound name)
  else
    let attributes := readAttributes (← readFile tree table.schemaPath)
    if attributes.head? ≠ some idAttribute then
      .error (.corruptTable table.schemaPath.text "first attribute must be id")
    else
      let lines := Text.lines (← readFile tree table.rowsPath).toList
      match readRows attributes.length 1 lines with
      | .error reason => .error (.corruptTable table.rowsPath.text reason)
      | .ok numbered =>
        let recorded ← readSequence tree table.sequencePath
        return { table with
          attributes
          rows := numbered.map (·.2)
          lastId := (numbered.map (·.1)).foldl max recorded }

end TabStore.Table
