import TabStore.Literal
import TabStore.Name
import TabStore.Text.Quoted
import TabStore.Text.Unquoted

/-!
# Comma-separated lists

The lists of attributes, values, selected columns and assignments. Commas, equals signs and white
space inside string literals belong to the literal; all other white space is dropped.
-/

namespace TabStore

/-- The columns that a selection shows. -/
inductive Projection
  | all
  | columns (names : List String)
deriving DecidableEq, Repr

structure Assignment where
  target : String
  value : String
deriving DecidableEq, Repr

namespace Items

/-- The text between the parentheses that enclose a list. -/
def stripParentheses (list : String) : Result String :=
  match Text.trim list.toList with
  | '(' :: rest =>
    if rest.getLast? = some ')' then .ok (String.ofList rest.dropLast) else notEnclosed
  | _ => notEnclosed
where
  notEnclosed := .error (.malformedList (list ++ " is not enclosed in parentheses"))

/-- The items of a list; none of them is empty. -/
def split (text : String) : Result (List String) :=
  let compact := Text.removeUnquoted Text.isBlank false text.toList
  if Text.openAtEnd false compact then .error .unterminatedString
  else
    let items := Text.splitUnquoted (· == ',') false compact
    if items.any List.isEmpty then
      .error (.malformedList ("empty item in " ++ Text.quoted text))
    else .ok (items.map String.ofList)

def isBlankText (text : String) : Bool := text.toList.all Text.isBlank

/-- Names must be valid, and different from each other and from those already seen. -/
def checkAttributes (seen : List String) : List String → Result Unit
  | [] => .ok ()
  | name :: rest => do
    validateName name
    if seen.contains name then .error (.duplicateAttribute name)
    else checkAttributes (name :: seen) rest

/-- The attributes of a new table, in parentheses; `id` comes by itself and may not be listed. -/
def attributes (list : String) : Result (List String) := do
  let inner ← stripParentheses list
  if isBlankText inner then .error (.malformedList "no attributes")
  else
    let names ← split inner
    checkAttributes [idAttribute] names
    return names

def checkNames : List String → Result Unit
  | [] => .ok ()
  | name :: rest => do
    validateName name
    checkNames rest

def projection (text : String) : Result Projection :=
  if Text.trim text.toList = ['*'] then .ok .all
  else if isBlankText text then .error (.malformedList "no attributes selected")
  else do
    let names ← split text
    checkNames names
    return .columns names

def checkLiteral (raw : String) : Result Unit :=
  if Value.isLiteral raw then .ok () else .error (.invalidLiteral raw)

def checkLiterals : List String → Result Unit
  | [] => .ok ()
  | raw :: rest => do
    checkLiteral raw
    checkLiterals rest

/-- The values of a new row, in parentheses. -/
def values (list : String) : Result (List String) := do
  let inner ← stripParentheses list
  if isBlankText inner then .error (.malformedList "no values")
  else
    let raws ← split inner
    checkLiterals raws
    return raws

/-- An item cut at its first unquoted equals sign. -/
def assignment (pair : String) : Result Assignment :=
  match Text.breakUnquoted (· == '=') false pair.toList with
  | (target, _ :: value) => .ok ⟨String.ofList target, String.ofList value⟩
  | (_, []) => .error (.malformedList (pair ++ " is not a name=value pair"))

def checkedAssignments (seen : List String) : List String → Result (List Assignment)
  | [] => .ok []
  | pair :: rest => do
    let item ← assignment pair
    validateName item.target
    checkLiteral item.value
    if seen.contains item.target then .error (.duplicateAttribute item.target)
    else
      let items ← checkedAssignments (item.target :: seen) rest
      return item :: items

/-- The assignments of an update; no attribute is assigned twice. -/
def assignments (text : String) : Result (List Assignment) :=
  if isBlankText text then .error (.malformedList "no assignments")
  else do
    let pairs ← split text
    checkedAssignments [] pairs

end Items

end TabStore
