import TabStore.Error
import TabStore.Text.Split

/-!
# Rows

A row is a sequence of cells, kept as they were written. On disk it is one line with tabs between
the cells; the first cell is the id.
-/

namespace TabStore

structure Row where
  cells : List String
deriving DecidableEq, Repr

namespace Row

def ofLine (line : List Char) : Row := ⟨(Text.splitOn '\t' line).map String.ofList⟩

def line (row : Row) : String := "\t".intercalate row.cells

def id (row : Row) : String := row.cells.headD ""

def cell? (row : Row) (index : Nat) : Option String := row.cells[index]?

def width (row : Row) : Nat := row.cells.length

def isEmpty (row : Row) : Bool := row.cells.isEmpty

def push (row : Row) (cell : String) : Row := ⟨row.cells ++ [cell]⟩

/-- The row without one of its cells. -/
def remove (row : Row) (index : Nat) : Result Row :=
  if index < row.width then .ok ⟨row.cells.eraseIdx index⟩
  else .error (.widthMismatch (index + 1) row.width)

def set (row : Row) (index : Nat) (cell : String) : Result Row :=
  if index < row.width then .ok ⟨row.cells.set index cell⟩
  else .error (.widthMismatch (index + 1) row.width)

end Row

end TabStore
