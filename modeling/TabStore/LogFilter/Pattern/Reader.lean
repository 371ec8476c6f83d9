import TabStore.LogFilter.Pattern.Bracket
import TabStore.LogFilter.Pattern.Group

/-!
# Reading of patterns

A pattern describes texts by literals, brackets, groups, alternatives and repetitions. It is read
from left to right with the groups and brackets that are open. Counted repetition is refused: its
closing brace would end the field that the pattern is the value of.
-/

namespace TabStore.LogFilter.Pattern

/-- How far a pattern has been read: the innermost open group and those around it, the brackets
open in it, innermost first, and the names given to groups. -/
structure Reader where
  group : Group := {}
  outer : List Group := []
  brackets : List Bracket := []
  names : List (List Char) := []
deriving DecidableEq, Repr

namespace Reader

def mode (reader : Reader) : Mode := reader.group.mode

def add (reader : Reader) (part : Part) : Reader := { reader with group := reader.group.add part }

def enter (reader : Reader) (mode : Mode) : Reader :=
  { reader with group := { mode }, outer := reader.group :: reader.outer }

/-- Closes the innermost group. Its flags end with it. -/
def leave (reader : Reader) : Option Reader :=
  match reader.outer with
  | [] => none
  | group :: outer =>
    some { reader with group := group.add { depth := reader.group.depth + 1 }, outer }

/-- What follows an opening parenthesis: a name, flags for the group or for all that follows it, or
nothing of its own. -/
def readGroup (reader : Reader) (text : List Char) : Option (Reader × List Char) :=
  match reader.mode.skip text with
  | '?' :: 'P' :: '<' :: rest | '?' :: '<' :: rest =>
    let name := rest.takeWhile (· != '>')
    match rest.dropWhile (· != '>') with
    | _ :: rest =>
      if Group.isName name && !reader.names.contains name then
        some ({ reader.enter reader.mode with names := name :: reader.names }, rest)
      else none
    | [] => none
  | '?' :: rest =>
    let flags := rest.takeWhile fun c => c != ':' && c != ')'
    let mode := reader.mode.after flags
    if !areFlags flags then none
    else match rest.drop flags.length with
      | ':' :: rest => some (reader.enter mode, rest)
      | ')' :: rest =>
        if flags.isEmpty then none
        else
          let group := { reader.group.add { isRepeatable := false } with mode }
          some ({ reader with group }, rest)
      | _ => none
  | rest => some (reader.enter reader.mode, rest)

def stepOutside (reader : Reader) (c : Char) (rest : List Char) : Option (Reader × List Char) :=
  match c with
  | '(' => reader.readGroup rest
  | ')' => reader.leave.map (·, rest)
  | '|' => some ({ reader with group := reader.group.startAlternative }, rest)
  | '[' => do
    let (bracket, rest) ← Bracket.start reader.mode rest
    return ({ reader with brackets := [bracket] }, rest)
  | '*' | '+' | '?' => do
    let group ← reader.group.repeatLast
    return ({ reader with group }, if rest.head? = some '?' then rest.tail else rest)
  | '\x7b' => none
  | _ => do
    let (atom, rest) ← Atom.read reader.mode c rest
    if atom.isAllowed reader.mode then some (reader.add {}, rest) else none

/-- Closes the innermost bracket. -/
def closeBracket (reader : Reader) (bracket : Bracket) (outer : List Bracket) : Reader :=
  match outer with
  | [] => { reader.add { depth := bracket.depth + 1 } with brackets := [] }
  | parent :: outer => { reader with brackets := parent.add (bracket.depth + 1) :: outer }

def stepInside (reader : Reader) (bracket : Bracket) (outer : List Bracket) (c : Char)
    (rest : List Char) : Option (Reader × List Char) :=
  let mode := reader.mode
  let goOn (bracket : Bracket) (rest : List Char) :=
    some ({ reader with brackets := bracket :: outer }, rest)
  if bracket.atFront && (c = '-' || c = ']' && bracket.members.isEmpty) then
    if (Atom.literal c false).isMember mode then
      goOn { bracket.add 0 with atFront := c = '-' } rest
    else none
  else if c = ']' then some (reader.closeBracket bracket outer, rest)
  else if c = '[' then
    match Bracket.readName rest with
    | some (negated, rest) =>
      if if mode.bytewise then negated else mode.caseless then none
      else goOn (bracket.add 0) rest
    | none => do
      let (inner, rest) ← Bracket.start mode rest
      return ({ reader with brackets := inner :: bracket :: outer }, rest)
  else if (c = '&' || c = '-' || c = '~') && rest.head? = some c then
    goOn bracket.operate rest.tail
  else do goOn (bracket.add 0) (← Bracket.readRange mode c rest)

def step (reader : Reader) (c : Char) (rest : List Char) : Option (Reader × List Char) :=
  match reader.brackets with
  | [] => reader.stepOutside c rest
  | bracket :: outer => reader.stepInside bracket outer c rest

/-- Reads a text to its end. Every step leaves less of it. -/
def read (reader : Reader) (text : List Char) : Option Reader :=
  match reader.mode.skip text with
  | [] => some reader
  | c :: rest =>
    match reader.step c rest with
    | none => none
    | some (reader, rest) => if rest.length < text.length then reader.read rest else none
termination_by text.length

/-- Whether the pattern may end: all is closed, and nothing nests too deep. -/
def isComplete (reader : Reader) : Bool :=
  reader.outer.isEmpty && reader.brackets.isEmpty && reader.group.depth ≤ depthLimit

end Reader

def isWellFormed (text : List Char) : Bool := (({} : Reader).read text).any Reader.isComplete

example : ["", "a|b", "(?x: a # b\n)*?", "[]a-z&&[^[:alpha:]]]", "(?-u)\\w"].all
    (isWellFormed ·.toList) := by decide +kernel
example : ["(", "a)", "*", "(?i)a", "[z-a]", "\\w", "(?i)*"].any
    (isWellFormed ·.toList) = false := by decide +kernel

end TabStore.LogFilter.Pattern
