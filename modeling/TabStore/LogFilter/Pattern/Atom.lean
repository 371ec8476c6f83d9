import TabStore.LogFilter.Pattern.Mode
import TabStore.Number.Digits

/-!
# Atoms of a pattern

The least parts of a pattern, and where the flags let them stand. Refused are letter case and
classes beyond ASCII, and what could match a part of a character.
-/

namespace TabStore.LogFilter.Pattern

/-- The least parts of a pattern. A literal may be written as the value of a byte, a place is an end
of the text or of a line, and an edge is an end of a word. -/
inductive Atom
  | literal (c : Char) (isByte : Bool)
  | any
  | shorthand (negated : Bool)
  | place
  | edge
deriving DecidableEq, Repr

namespace Atom

def literal? : Atom → Option Char
  | .literal c _ => some c
  | _ => none

/-- Whether an atom may stand outside brackets. -/
def isAllowed (mode : Mode) : Atom → Bool
  | .literal c isByte => if mode.bytewise then !isByte || c.toNat < 0x80 else !mode.caseless
  | .any => !mode.bytewise
  | .shorthand negated => mode.bytewise && !negated
  | .place => true
  | .edge => mode.bytewise

/-- Whether an atom may stand in brackets. -/
def isMember (mode : Mode) : Atom → Bool
  | .literal c _ => if mode.bytewise then c.toNat < 0x80 else !mode.caseless
  | .shorthand negated => mode.bytewise && !negated
  | _ => false

/-- What a character stands for behind a backslash. A mark stands for itself. -/
def ofEscaped? (c : Char) : Option Atom :=
  match c with
  | 'd' | 's' | 'w' => some (.shorthand false)
  | 'D' | 'S' | 'W' => some (.shorthand true)
  | 'A' | 'z' => some .place
  | 'b' | 'B' | '<' | '>' => some .edge
  | 'a' => some (.literal '\x07' false)
  | 'f' => some (.literal '\x0c' false)
  | 'n' => some (.literal '\n' false)
  | 'r' => some (.literal '\r' false)
  | 't' => some (.literal '\t' false)
  | 'v' => some (.literal '\x0b' false)
  | _ => if c.toNat < 0x80 && !c.isAlphanum then some (.literal c false) else none

/-- How many hexadecimal digits follow a letter behind a backslash. -/
def hexLength? : Char → Option Nat
  | 'x' => some 2
  | 'u' => some 4
  | 'U' => some 8
  | _ => none

/-- The given number of hexadecimal digits, last one first in `digits`. -/
def readHex (mode : Mode) (digits : List Char) : Nat → List Char → Option (Nat × List Char)
  | 0, text => some (Number.hexValue digits.reverse, text)
  | count + 1, text =>
    match mode.skip text with
    | [] => none
    | c :: rest => if Number.isHexDigit c then readHex mode (c :: digits) count rest else none

/-- The atom that starts behind a backslash. -/
def readEscaped (mode : Mode) : List Char → Option (Atom × List Char)
  | [] => none
  | c :: rest =>
    match hexLength? c with
    | none => (ofEscaped? c).map (·, rest)
    | some length => do
      let (code, rest) ← readHex mode [] length rest
      if code.isValidChar then some (.literal (Char.ofNat code) (c == 'x'), rest) else none

/-- The atom that starts with a character in brackets. -/
def readMember (mode : Mode) (c : Char) (rest : List Char) : Option (Atom × List Char) :=
  if c = '\\' then readEscaped mode rest else some (.literal c false, rest)

/-- The atom that starts with a character outside brackets. -/
def read (mode : Mode) (c : Char) (rest : List Char) : Option (Atom × List Char) :=
  if c = '.' then some (.any, rest)
  else if c = '^' || c = '$' then some (.place, rest)
  else readMember mode c rest

end Atom

end TabStore.LogFilter.Pattern
