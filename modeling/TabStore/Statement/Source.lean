import TabStore.Error
import TabStore.Text.Unquoted

/-!
# Statement text

A statement ends with a semicolon. Its body is cut before the first unquoted parenthesis: the main
clause stands before the cut, the list from there on.
-/

namespace TabStore

structure Source where
  main : String
  list : Option String
deriving DecidableEq, Repr

namespace Source

/-- The text without the closing semicolon, if it has one. -/
def dropTerminator (text : List Char) : Option (List Char) :=
  if text.getLast? = some ';' then some text.dropLast else none

def ofBody (body : List Char) : Source :=
  match Text.breakUnquoted (· == '(') false body with
  | (_, []) => ⟨String.ofList body, none⟩
  | (main, list) => ⟨String.ofList (Text.trimEnd main), some (String.ofList list)⟩

def ofText (text : String) : Result Source :=
  let trimmed := Text.trimEnd text.toList
  if trimmed.isEmpty then .error .emptyStatement
  else match dropTerminator trimmed with
    | none => .error .unterminatedStatement
    | some rest =>
      let body := Text.trim rest
      if body.isEmpty then .error .emptyStatement else .ok (ofBody body)

end Source

end TabStore
