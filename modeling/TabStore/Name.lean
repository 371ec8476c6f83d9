import TabStore.Text.Printable
import TabStore.Token

/-!
# Names

Databases, tables and attributes share one rule for their names. A name is used as a file name, so
it holds no separator of paths; it ends in an ASCII letter or digit, so it is never `.` or `..`.
-/

namespace TabStore

/-- The characters that occur in no name. -/
def isForbiddenInName (c : Char) : Bool :=
  Text.isBlank c || Text.isControl c || c == '\'' || c == '/' || c == '\\'

def endsAlphanumeric (name : String) : Bool :=
  name.toList.getLast?.any Char.isAlphanum

def validateName (name : String) : Result Unit :=
  if isReserved name then .error (.reservedName name)
  else if endsAlphanumeric name && !name.toList.any isForbiddenInName then .ok ()
  else .error (.invalidName name)

/-- The attribute that every table starts with. -/
def idAttribute : String := "id"

end TabStore
