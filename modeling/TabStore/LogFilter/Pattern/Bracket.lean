import TabStore.LogFilter.Pattern.Atom
import TabStore.LogFilter.Pattern.Depth

/-!
# Brackets of a pattern

A bracket describes one character by its members: literals, ranges, named classes and further
brackets, in rows with operators between.
-/

namespace TabStore.LogFilter.Pattern

/-- An open bracket: the members behind the last operator, and the depth of what stands before it.
At the front dashes and the first closing bracket are literals. -/
structure Bracket where
  atFront : Bool := true
  before : Option Nat := none
  members : List Nat := []
deriving DecidableEq, Repr

namespace Bracket

def depth (bracket : Bracket) : Nat :=
  match bracket.before with
  | none => jointDepth bracket.members
  | some before => max before (jointDepth bracket.members) + 1

def add (bracket : Bracket) (depth : Nat) : Bracket :=
  { bracket with atFront := false, members := depth :: bracket.members }

/-- The bracket behind an operator. -/
def operate (bracket : Bracket) : Bracket := { atFront := false, before := some bracket.depth }

/-- A bracket may be negated, but not if it would then match bytes beyond ASCII. -/
def start (mode : Mode) (text : List Char) : Option (Bracket × List Char) :=
  match mode.skip text with
  | '^' :: rest => if mode.bytewise then none else some ({}, rest)
  | rest => some ({}, rest)

def classNames : List String :=
  ["alnum", "alpha", "ascii", "blank", "cntrl", "digit", "graph", "lower", "print", "punct",
   "space", "upper", "word", "xdigit"]

/-- Whether the class named behind an opening bracket is negated, and the text behind its own
closing bracket. -/
def readName : List Char → Option (Bool × List Char)
  | ':' :: rest =>
    let negated := rest.head? = some '^'
    let rest := if negated then rest.tail else rest
    match rest.dropWhile (· != ':') with
    | ':' :: ']' :: behind =>
      if classNames.contains (String.ofList (rest.takeWhile (· != ':'))) then
        some (negated, behind)
      else none
    | _ => none
  | _ => none

/-- The text behind a member or a range of them. The ends of a range are literals in order. -/
def readRange (mode : Mode) (c : Char) (rest : List Char) : Option (List Char) := do
  let (first, rest) ← Atom.readMember mode c rest
  if !first.isMember mode then none
  else match mode.skip rest with
    | '-' :: behind =>
      if mode.behindDash behind = some ']' || mode.behindDash behind = some '-' then some rest
      else match mode.skip behind with
        | [] => none
        | d :: behind =>
          let (last, behind) ← Atom.readMember mode d behind
          if last.isMember mode && (← first.literal?) ≤ (← last.literal?) then some behind else none
    | _ => some rest

end Bracket

end TabStore.LogFilter.Pattern
