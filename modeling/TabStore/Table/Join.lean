import TabStore.Table.Basic

/-!
# Joins

Two tables joined on one attribute each. The rows of the result are the pairs of rows with equal
cells there, in the order of the first table and then of the second, numbered from 1. Their columns
are all those of the two tables except the ids and the attributes joined on.
-/

namespace TabStore.Table

/-- The positions of the columns that a table brings into a join on its column `key`. -/
def carried (table : Table) (key : Nat) : List Nat :=
  (List.range table.attributes.length).filter fun index => 1 ≤ index && index != key

def carriedNames (table : Table) (key : Nat) : List String :=
  (table.carried key).filterMap fun index =>
    (table.attributes[index]?).map fun name => table.name ++ "." ++ name

def carriedCells (table : Table) (key : Nat) (row : Row) : List String :=
  (table.carried key).filterMap row.cell?

/-- Whether two rows have equal cells in the columns joined on. -/
def matchesOn (leftKey rightKey : Nat) (left right : Row) : Bool :=
  match left.cell? leftKey, right.cell? rightKey with
  | some a, some b => cellsEqual a b
  | _, _ => false

/-- The cells of the joined rows, without their ids. -/
def joinedCells (primary : Table) (primaryKey : Nat) (secondary : Table) (secondaryKey : Nat) :
    List (List String) :=
  primary.rows.flatMap fun left =>
    (secondary.rows.filter (matchesOn primaryKey secondaryKey left)).map fun right =>
      primary.carriedCells primaryKey left ++ secondary.carriedCells secondaryKey right

/-- Rows numbered from `first` on. -/
def numberRows (first : Nat) : List (List String) → List Row
  | [] => []
  | cells :: rest => ⟨toString first :: cells⟩ :: numberRows (first + 1) rest

def join (primary : Table) (primaryOn : String) (secondary : Table) (secondaryOn : String) :
    Result Table := do
  let primaryKey ← primary.attributeIndex primaryOn
  let secondaryKey ← secondary.attributeIndex secondaryOn
  let cells := joinedCells primary primaryKey secondary secondaryKey
  return {
    name := primary.name ++ "_" ++ secondary.name
    directory := ⟨""⟩
    attributes := idAttribute ::
      (primary.carriedNames primaryKey ++ secondary.carriedNames secondaryKey)
    rows := numberRows 1 cells
    lastId := cells.length }

end TabStore.Table
