import TabStore.Statement.Basic
import TabStore.Statement.Source

/-!
# Reading statements

The grammar of each verb, over the tokens of the main clause and the list that was cut from it. A
rule takes tokens from the front and the list at most once; whatever is left when the statement is
complete is an error.
-/

namespace TabStore.Statement

/-- What is still to be read: tokens up to the end mark, and the list. -/
structure Remaining where
  tokens : List Token
  list : Option String
deriving DecidableEq, Repr

abbrev Reader := StateT Remaining Result

namespace Reader

def fail {α : Type} (e : Error) : Reader α := fun _ => .error e

def lift {α : Type} (result : Result α) : Reader α := fun remaining =>
  result.map fun a => (a, remaining)

/-- The next token, which stays. -/
def peek : Reader Token := fun remaining =>
  .ok (remaining.tokens.headD .endMark, remaining)

def skip : Reader Unit := fun remaining =>
  .ok ((), { remaining with tokens := remaining.tokens.tail })

def unexpected {α : Type} (expected : String) : Reader α := do
  let token ← peek
  fail (.unexpectedToken expected token.display)

def expect (keyword : Keyword) : Reader Unit := do
  if (← peek) = .keyword keyword then skip else unexpected keyword.word

def name : Reader String := do
  match ← peek with
  | .word text =>
    lift (validateName text)
    skip
    return text
  | _ => unexpected "a name"

/-- The tokens before the first one that satisfies `stop`, with single spaces between them. -/
def textUntil (stop : Token → Bool) : Reader String := fun remaining =>
  let taken := remaining.tokens.takeWhile (!stop ·)
  .ok (" ".intercalate (taken.map Token.display),
    { remaining with tokens := remaining.tokens.dropWhile (!stop ·) })

def takeList : Reader (Option String) := fun remaining =>
  .ok (remaining.list, { remaining with list := none })

/-- A condition: the rest of the main clause and then the list. -/
def condition : Reader Condition := do
  let words ← textUntil fun _ => false
  let text := match ← takeList with
    | none => words
    | some list => if words.isEmpty then list else words ++ " " ++ list
  lift (Condition.compile text)

def use : Reader DatabaseStatement := return .use (← name)

def create : Reader Statement := do
  match ← peek with
  | .keyword .database =>
    skip
    return .database (.create (← name))
  | .keyword .table =>
    skip
    let table ← name
    match ← takeList with
    | none => return .table (.create table [])
    | some list => return .table (.create table (← lift (Items.attributes list)))
  | _ => unexpected "TABLE or DATABASE"

def drop : Reader Statement := do
  match ← peek with
  | .keyword .database =>
    skip
    return .database (.drop (← name))
  | .keyword .table =>
    skip
    return .table (.drop (← name))
  | _ => unexpected "TABLE or DATABASE"

def alter : Reader TableStatement := do
  expect .table
  let table ← name
  match ← peek with
  | .keyword .add =>
    skip
    return .alter table (.add (← name))
  | .keyword .drop =>
    skip
    return .alter table (.drop (← name))
  | _ => unexpected "ADD or DROP"

def insert : Reader TableStatement := do
  expect .into
  let table ← name
  expect .values
  match ← takeList with
  | none => fail (.malformedList "INSERT requires a value list")
  | some list => return .insert table (← lift (Items.values list))

def select : Reader TableStatement := do
  let text ← textUntil (· == .keyword .fromClause)
  expect .fromClause
  let columns ← lift (Items.projection text)
  let table ← name
  if (← peek) = .keyword .whereClause then
    skip
    return .select table columns (some (← condition))
  else return .select table columns none

/-- The condition without which a verb is refused. -/
def requiredCondition (verb : Keyword) : Reader Condition := do
  if (← peek) = .endMark then fail (.conditionRequired verb.word)
  else
    expect .whereClause
    condition

def update : Reader TableStatement := do
  let table ← name
  expect .set
  let text ← textUntil (· == .keyword .whereClause)
  let assignments ← lift (Items.assignments text)
  return .update table assignments (← requiredCondition .update)

def delete : Reader TableStatement := do
  expect .fromClause
  let table ← name
  return .delete table (← requiredCondition .delete)

def join : Reader TableStatement := do
  let primary ← name
  expect .and
  let secondary ← name
  expect .on
  let primaryKey ← name
  expect .and
  let secondaryKey ← name
  return .join ⟨primary, primaryKey⟩ ⟨secondary, secondaryKey⟩

/-- What follows the verb. -/
def afterVerb : Keyword → Reader Statement
  | .use => .database <$> use
  | .create => create
  | .drop => drop
  | .alter => .table <$> alter
  | .insert => .table <$> insert
  | .select => .table <$> select
  | .update => .table <$> update
  | .delete => .table <$> delete
  | .join => .table <$> join
  | other => fail (.unknownCommand other.word)

def statement : Reader Statement := do
  match ← peek with
  | .keyword verb =>
    skip
    afterVerb verb
  | token => fail (.unknownCommand token.display)

end Reader

/-- The tokens of a statement end at the first end mark; nothing but the statement may stand before
it, and the list must be part of the statement. -/
def ofTokens (tokens : List Token) (list : Option String) : Result Statement := do
  let (statement, remaining) ← Reader.statement.run ⟨tokens.takeWhile (· != .endMark), list⟩
  match remaining with
  | ⟨token :: _, _⟩ => .error (.trailingInput token.display)
  | ⟨[], some list⟩ => .error (.trailingInput list)
  | ⟨[], none⟩ => .ok statement

/-- Reads the text of a statement. -/
def parse (text : String) : Result Statement := do
  let source ← Source.ofText text
  let tokens ← Token.tokenize source.main
  ofTokens tokens source.list

end TabStore.Statement
