import TabStore.LogFilter.Pattern.Reader
import TabStore.Number.Scientific
import TabStore.Text.Bytes
import TabStore.Text.Split

/-!
# Log filters

A log filter is a list of directives with commas between; empty ones are passed over. A directive
is a level, or a target that may be followed by a span in brackets and by an equals sign and a
level. A span may end with a field in braces. Only whether a filter is well formed matters here.

The bytes of a directive are counted without the white space around it, and its parts are then cut
from it with that white space.
-/

namespace TabStore.LogFilter

def levelNames : List String := ["error", "warn", "info", "debug", "trace", "off"]

/-- A level is a name in any letter case, a number up to five, or nothing. -/
def isLevel (text : List Char) : Bool :=
  text.isEmpty || levelNames.any (fun name => Text.sameIgnoringCase text name.toList) ||
    (Number.readBelow 6 text).isSome

/-- A field is a name and perhaps, behind an equals sign, a value, which is a number or a pattern.
A second equals sign ends the value. -/
def isField (text : List Char) : Bool :=
  match Text.splitOn '=' text with
  | _ :: value :: _ => Number.isReal value || Pattern.isWellFormed value
  | _ => !text.isEmpty

/-- What can be wrong with a filter: a directive is malformed, or a part of one would be cut inside
a character. -/
inductive Fault
  | malformed
  | misaligned
deriving DecidableEq, Repr

/-- How far a directive has been read, and at which byte the part that is being read starts. -/
inductive State
  | start
  | target
  | span (startsAt : Nat)
  | field (startsAt : Nat)
  | fields
  | afterSpan
  | level (startsAt : Nat)
deriving DecidableEq, Repr

/-- Whether a directive may start with a character. -/
def startsDirective (c : Char) : Bool :=
  Text.isAlphanumeric c || c == '-' || c == ':' || c == '_'

def cut (text : List Char) (start stop : Nat) : Except Fault (List Char) :=
  match Text.slice start stop text with
  | some part => .ok part
  | none => .error .misaligned

/-- Reads the character at a byte position of a directive. -/
def step (text : List Char) (position : Nat) (c : Char) : State → Except Fault State
  | .start =>
    if c = '[' then .ok (.span (position + 1))
    else if startsDirective c then .ok .target else .error .malformed
  | .target =>
    if c = '=' then do let _ ← cut text 0 position; return .level (position + 1)
    else if c = '[' then do let _ ← cut text 0 position; return .span (position + 1)
    else .ok .target
  | .span startsAt =>
    if c = ']' then do let _ ← cut text startsAt position; return .afterSpan
    else if c = '\x7b' then do let _ ← cut text startsAt position; return .field (position + 1)
    else .ok (.span startsAt)
  | .field startsAt =>
    if c = '\x7d' then do
      if isField (← cut text startsAt position) then return .fields else .error .malformed
    else .ok (.field startsAt)
  | .fields => if c = ']' then .ok .afterSpan else .error .malformed
  | .afterSpan => if c = '=' then .ok (.level (position + 1)) else .error .malformed
  | .level startsAt => .ok (.level startsAt)

def scan (text : List Char) (position : Nat) (state : State) : List Char → Except Fault State
  | [] => .ok state
  | c :: rest => do
    scan text (position + c.utf8Size) (← step text position c state) rest

def checkDirective (text : List Char) : Except Fault Unit := do
  match ← scan text 0 .start (Text.trim text) with
  | .target | .afterSpan => return
  | .level startsAt =>
    if isLevel (← cut text startsAt (Text.byteSize text)) then return else .error .malformed
  | _ => .error .malformed

/-- Checks the directives in order, up to the first that is at fault. -/
def check (filter : String) : Except Fault Unit :=
  ((Text.splitOn ',' filter.toList).filter (!·.isEmpty)).forM checkDirective

example : ["", "warn,a::b=Debug", "[s{f=1.5}]=3"].all (check · matches .ok _) := by decide +kernel
example : (check "a=b" matches .error .malformed) := by decide +kernel
example : (check "\u00A0a=5" matches .error .misaligned) := by decide +kernel

end TabStore.LogFilter
