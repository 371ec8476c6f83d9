import TabStore.LogFilter.Pattern.Depth
import TabStore.LogFilter.Pattern.Mode
import TabStore.Text.Alphanumeric

/-!
# Groups of a pattern

A group is a list of alternatives, each a row of parts.
-/

namespace TabStore.LogFilter.Pattern

/-- A part of a row; flags that are set by themselves cannot be repeated. -/
structure Part where
  depth : Nat := 0
  isRepeatable : Bool := true
deriving DecidableEq, Repr

/-- An open group, or the pattern itself: the row that is being read, its last part first, and the
depths of the alternatives before it. -/
structure Group where
  mode : Mode := {}
  alternatives : List Nat := []
  row : List Part := []
deriving DecidableEq, Repr

namespace Group

def depth (group : Group) : Nat :=
  jointDepth (jointDepth (group.row.map Part.depth) :: group.alternatives)

def add (group : Group) (part : Part) : Group := { group with row := part :: group.row }

def startAlternative (group : Group) : Group :=
  { group with
    alternatives := jointDepth (group.row.map Part.depth) :: group.alternatives, row := [] }

/-- The last part of the row repeated. -/
def repeatLast (group : Group) : Option Group :=
  match group.row with
  | [] => none
  | part :: row =>
    if part.isRepeatable then some { group with row := { depth := part.depth + 1 } :: row }
    else none

/-- A name of a group starts with a letter or an underscore. -/
def isName : List Char → Bool
  | [] => false
  | c :: rest =>
    (c == '_' || Text.isAlphabetic c) &&
      rest.all fun c => "_.[]".toList.contains c || Text.isAlphanumeric c

end Group

end TabStore.LogFilter.Pattern
