import TabStore.Text.Quoted

/-!
# Errors

Why a statement fails. Every cause has a kind, which says in which stage it arises, and a message.
A statement can also panic, which is no such cause: it has no message, and it is not answered.
-/

namespace TabStore

/-- Why an operation on files fails. -/
inductive FileError
  | notFound
  | alreadyExists
  | notDirectory
  | isDirectory
  | invalidArgument
  | nameTooLong
  | nulByte
  | invalidText
  | other (text : String)
deriving DecidableEq, Repr

def FileError.message : FileError → String
  | .notFound => "No such file or directory (os error 2)"
  | .alreadyExists => "File exists (os error 17)"
  | .notDirectory => "Not a directory (os error 20)"
  | .isDirectory => "Is a directory (os error 21)"
  | .invalidArgument => "Invalid argument (os error 22)"
  | .nameTooLong => "File name too long (os error 36)"
  | .nulByte => "file name contained an unexpected NUL byte"
  | .invalidText => "stream did not contain valid UTF-8"
  | .other text => text

/-- The stage of a statement's life in which an error arises. -/
inductive ErrorKind
  | malformed
  | semantic
  | storage
  | evaluation
deriving DecidableEq, Repr

inductive Error
  | emptyStatement
  | unterminatedStatement
  | unknownCommand (found : String)
  | unexpectedToken (expected found : String)
  | trailingInput (found : String)
  | invalidName (name : String)
  | reservedName (name : String)
  | invalidLiteral (raw : String)
  | malformedList (reason : String)
  | malformedCondition (reason : String)
  | reservedCharacter (c : Char)
  | unterminatedString
  | conditionRequired (verb : String)
  | noWorkingDatabase
  | databaseNotFound (name : String)
  | databaseExists (name : String)
  | tableNotFound (name : String)
  | tableExists (name : String)
  | attributeNotFound (table name : String)
  | duplicateAttribute (name : String)
  | protectedAttribute (name : String)
  | widthMismatch (expected found : Nat)
  | fileFailure (action : String) (cause : FileError)
  | corruptTable (path reason : String)
  | stackUnderflow (operator : Char)
  | unresolvedCondition
  | nonNumericOperand (raw : String)
  | nonStringOperand (raw : String)
  | nonBooleanOperand (raw : String)
deriving DecidableEq, Repr

namespace Error

def kind : Error → ErrorKind
  | .emptyStatement | .unterminatedStatement | .unknownCommand _ | .unexpectedToken ..
  | .trailingInput _ | .invalidName _ | .reservedName _ | .invalidLiteral _ | .malformedList _
  | .malformedCondition _ | .reservedCharacter _ | .unterminatedString
  | .conditionRequired _ => .malformed
  | .noWorkingDatabase | .databaseNotFound _ | .databaseExists _ | .tableNotFound _
  | .tableExists _ | .attributeNotFound .. | .duplicateAttribute _ | .protectedAttribute _
  | .widthMismatch .. => .semantic
  | .fileFailure .. | .corruptTable .. => .storage
  | .stackUnderflow _ | .unresolvedCondition | .nonNumericOperand _ | .nonStringOperand _
  | .nonBooleanOperand _ => .evaluation

def message : Error → String
  | .emptyStatement => "Command was empty"
  | .unterminatedStatement => "Statement did not end with a semicolon"
  | .unknownCommand found => "Unknown command: " ++ found
  | .unexpectedToken expected found => "Expected " ++ expected ++ ", found " ++ found
  | .trailingInput found => "Unexpected input after statement: " ++ found
  | .invalidName name => "Invalid name: " ++ Text.quoted name
  | .reservedName name => name ++ " is a reserved word and cannot be used as a name"
  | .invalidLiteral raw =>
    "Value " ++ raw ++ " is not a string, boolean, integer or float literal"
  | .malformedList reason => "Malformed list: " ++ reason
  | .malformedCondition reason => "Malformed condition: " ++ reason
  | .reservedCharacter c => "Condition contains reserved character " ++ Text.quotedChar c
  | .unterminatedString => "Unterminated string literal"
  | .conditionRequired verb => verb ++ " requires a WHERE condition"
  | .noWorkingDatabase => "No working database has been selected"
  | .databaseNotFound name => "Database " ++ name ++ " does not exist"
  | .databaseExists name => "Database " ++ name ++ " already exists"
  | .tableNotFound name => "Table " ++ name ++ " does not exist"
  | .tableExists name => "Table " ++ name ++ " already exists"
  | .attributeNotFound table name =>
    "Attribute " ++ name ++ " does not exist in table " ++ table
  | .duplicateAttribute name => "Attribute " ++ name ++ " appears more than once"
  | .protectedAttribute name => "Attribute " ++ name ++ " cannot be changed"
  | .widthMismatch expected found =>
    "Number of values didn't match number of attributes: expected " ++ toString expected ++
      ", found " ++ toString found
  | .fileFailure action cause => action ++ ": " ++ cause.message
  | .corruptTable path reason => "Table file " ++ path ++ " is corrupt: " ++ reason
  | .stackUnderflow operator => "Condition stack underflow at operator " ++ operator.toString
  | .unresolvedCondition => "Condition did not reduce to a single boolean result"
  | .nonNumericOperand raw => "Cannot use non-number " ++ raw ++ " for inequality expressions"
  | .nonStringOperand raw => "LIKE operator requires string literals, found " ++ raw
  | .nonBooleanOperand raw => "Boolean operator applied to unevaluated operand " ++ raw

end Error

/-- The outcome of a step that may fail. -/
abbrev Result := Except Error

/-- How a statement breaks off: with an error, or with a panic. -/
inductive Failure
  | error (e : Error)
  | panic
deriving DecidableEq, Repr

/-- The outcome of a statement, which may fail or panic. -/
abbrev Outcome := Except Failure

/-- The outcome of a step that does not panic. -/
def Outcome.ofResult {α : Type} : Result α → Outcome α
  | .ok a => .ok a
  | .error e => .error (.error e)

end TabStore
