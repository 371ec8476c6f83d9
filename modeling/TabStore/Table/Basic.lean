import TabStore.Files.Path
import TabStore.Items
import TabStore.Row

/-!
# Tables

A table has attributes, the first of which is `id`, rows of cells in the order of its attributes,
and the last id that it gave to a row. Ids count upwards and are never given twice: a table whose
last id is the highest of 64 bits takes no more rows.

An operation that works row by row stops at the first row that is too short for it and leaves the
rows before that one changed; tables whose rows are all as wide as their schema have none.
-/

namespace TabStore

structure Table where
  name : String
  /-- The directory that holds the files of the table. -/
  directory : Path
  attributes : List String
  rows : List Row
  lastId : Nat
deriving DecidableEq, Repr

/-- What a row holds for an attribute that was added after it. -/
def placeholder : String := "''"

namespace Table

def new (directory : Path) (name : String) : Table :=
  { name, directory, attributes := [idAttribute], rows := [], lastId := 0 }

def attributeIndex (table : Table) (name : String) : Result Nat :=
  match table.attributes.findIdx? (· == name) with
  | some index => .ok index
  | none => .error (.attributeNotFound table.name name)

/-- The positions of the columns that a projection shows. -/
def projectionIndices (table : Table) : Projection → Result (List Nat)
  | .all => .ok (List.range table.attributes.length)
  | .columns names => names.mapM table.attributeIndex

/-- Ids fit 64 bits. -/
def idLimit : Nat := 0x10000000000000000

/-- The id that follows another one; `none` where the addition overflows. -/
def nextId? (id : Nat) : Option Nat := if id + 1 < idLimit then some (id + 1) else none

/-- Adds a row with the next id, and returns that id. Additions are checked: where there is no next
id, the result is `none` and the statement panics. -/
def insert (table : Table) (values : List String) : Result (Option (Nat × Table)) :=
  let expected := table.attributes.length - 1
  if values.length ≠ expected then .error (.widthMismatch expected values.length)
  else match values.find? (!Value.isLiteral ·) with
    | some raw => .error (.invalidLiteral raw)
    | none =>
      .ok ((nextId? table.lastId).map fun id =>
        let row : Row := ⟨toString id :: values⟩
        (id, { table with rows := table.rows ++ [row], lastId := id }))

/-- The positions and values that assignments stand for. -/
def resolveAssignments (table : Table) : List Assignment → Result (List (Nat × String))
  | [] => .ok []
  | assignment :: rest =>
    if assignment.target = idAttribute then .error (.protectedAttribute assignment.target)
    else do
      let index ← table.attributeIndex assignment.target
      let resolved ← table.resolveAssignments rest
      return (index, assignment.value) :: resolved

/-- Sets cells of a row one after the other. -/
def setCells : List (Nat × String) → Row → Result Unit × Row
  | [], row => (.ok (), row)
  | (index, value) :: rest, row =>
    match row.set index value with
    | .ok next => setCells rest next
    | .error e => (.error e, row)

/-- Sets cells of the rows that the mask selects, and counts those rows. A mask selects none of the
rows that it does not reach. -/
def setRows (changes : List (Nat × String)) : List Bool → List Row → Result Nat × List Row
  | _, [] => (.ok 0, [])
  | [], rows => (.ok 0, rows)
  | isSelected :: mask, row :: rows =>
    if isSelected then
      match setCells changes row with
      | (.error e, row) => (.error e, row :: rows)
      | (.ok (), row) =>
        let (count, rows) := setRows changes mask rows
        (count.map (· + 1), row :: rows)
    else
      let (count, rows) := setRows changes mask rows
      (count, row :: rows)

/-- Assigns values in the selected rows, and counts those rows. -/
def update (table : Table) (mask : List Bool) (assignments : List Assignment) :
    Result Nat × Table :=
  match table.resolveAssignments assignments with
  | .error e => (.error e, table)
  | .ok changes =>
    let (count, rows) := setRows changes mask table.rows
    (count, { table with rows })

/-- The rows that the mask selects. -/
def selected : List Bool → List Row → List Row
  | _, [] => []
  | [], _ :: _ => []
  | isSelected :: mask, row :: rows =>
    if isSelected then row :: selected mask rows else selected mask rows

/-- The rows that the mask does not select. -/
def unselected : List Bool → List Row → List Row
  | _, [] => []
  | [], rows => rows
  | isSelected :: mask, row :: rows =>
    if isSelected then unselected mask rows else row :: unselected mask rows

def delete (table : Table) (mask : List Bool) : Table :=
  { table with rows := unselected mask table.rows }

/-- The number of rows that a mask deletes. -/
def deletedCount (table : Table) (mask : List Bool) : Nat :=
  table.rows.length - (table.delete mask).rows.length

/-- Adds a column at the end; every row gets the placeholder for it. -/
def appendAttribute (table : Table) (name : String) : Result Table :=
  if table.attributes.contains name then .error (.duplicateAttribute name)
  else .ok { table with
    attributes := table.attributes ++ [name]
    rows := table.rows.map (·.push placeholder) }

def removeCells (index : Nat) : List Row → Result Unit × List Row
  | [] => (.ok (), [])
  | row :: rows =>
    match row.remove index with
    | .error e => (.error e, row :: rows)
    | .ok row =>
      let (outcome, rows) := removeCells index rows
      (outcome, row :: rows)

/-- Removes a column; `id` stays. -/
def removeAttribute (table : Table) (name : String) : Result Unit × Table :=
  if name = idAttribute then (.error (.protectedAttribute name), table)
  else match table.attributeIndex name with
    | .error e => (.error e, table)
    | .ok index =>
      let (outcome, rows) := removeCells index table.rows
      (outcome, { table with attributes := table.attributes.eraseIdx index, rows })

/-- The names of the attributes at some positions, then the cells there of each row, or of each row
that the mask selects if there is one: a line each, with tabs between. -/
def render (table : Table) (indices : List Nat) (mask : Option (List Bool)) : String :=
  let header := indices.filterMap (table.attributes[·]?)
  let rows := match mask with
    | none => table.rows
    | some mask => selected mask table.rows
  let shown := rows.map fun row : Row => indices.filterMap row.cell?
  Text.unlines ((header :: shown).map "\t".intercalate)

end Table

end TabStore
