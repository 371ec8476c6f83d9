import TabStore.Number.Digits
import TabStore.Text.Split

/-!
# Socket addresses

An IPv4 address, or an IPv6 address in brackets with an optional scope, and behind it a colon and
the number of the service there. Each part of an address is read from the front of a text and
leaves the text after it.
-/

namespace TabStore

inductive Address
  | v4 (octets : List Nat) (service : Nat)
  | v6 (groups : List Nat) (scope service : Nat)
deriving DecidableEq, Repr

namespace Address

/-- The text after a character that it must start with. -/
def literal (c : Char) : List Char → Option (List Char)
  | [] => none
  | d :: rest => if c = d then some rest else none

/-- A decimal number below `limit`. -/
def decimal (limit : Nat) (text : List Char) : Option (Nat × List Char) :=
  let digits := text.takeWhile Char.isDigit
  if digits.isEmpty || limit ≤ Number.value digits then none
  else some (Number.value digits, text.dropWhile Char.isDigit)

/-- One to three digits for a byte, without a needless zero in front. -/
def octet (text : List Char) : Option (Nat × List Char) :=
  let digits := text.takeWhile Char.isDigit
  if 3 < digits.length || (1 < digits.length && digits.head? = some '0') then none
  else decimal 256 text

/-- One to four hexadecimal digits. -/
def group (text : List Char) : Option (Nat × List Char) :=
  let digits := text.takeWhile Number.isHexDigit
  if digits.isEmpty || 4 < digits.length then none
  else some (Number.hexValue digits, text.dropWhile Number.isHexDigit)

/-- Four octets with points between. -/
def octets (text : List Char) : Option (List Nat × List Char) := do
  let (a, text) ← octet text
  let (b, text) ← octet (← literal '.' text)
  let (c, text) ← octet (← literal '.' text)
  let (d, text) ← octet (← literal '.' text)
  return ([a, b, c, d], text)

/-- Four octets as two groups. -/
def groupsOfOctets : List Nat → List Nat
  | high :: low :: rest => (256 * high + low) :: groupsOfOctets rest
  | _ => []

/-- At most `count` groups with colons between, the last two of which may be four octets; and
whether they are. `isFirst` says that no colon comes before the first group. -/
def groups (isFirst : Bool) : Nat → List Char → List Nat × Bool × List Char
  | 0, text => ([], false, text)
  | count + 1, text =>
    match if isFirst then some text else literal ':' text with
    | none => ([], false, text)
    | some start =>
      match if count = 0 then none else octets start with
      | some (four, rest) => (groupsOfOctets four, true, rest)
      | none =>
        match group start with
        | none => ([], false, text)
        | some (value, rest) =>
          let (more, endsInOctets, rest) := groups false count rest
          (value :: more, endsInOctets, rest)

/-- Eight groups; two colons stand once for at least one group of zeros. -/
def eightGroups (text : List Char) : Option (List Nat × List Char) :=
  let (front, endsInOctets, rest) := groups true 8 text
  if front.length = 8 then some (front, rest)
  else if endsInOctets then none
  else do
    let rest ← literal ':' (← literal ':' rest)
    let (back, _, rest) := groups true (7 - front.length) rest
    return (front ++ List.replicate (8 - front.length - back.length) 0 ++ back, rest)

def service (text : List Char) : Option (Nat × List Char) := do
  decimal 65536 (← literal ':' text)

def scope (text : List Char) : Nat × List Char :=
  match literal '%' text with
  | none => (0, text)
  | some rest => (decimal 4294967296 rest).getD (0, text)

def readV4 (text : List Char) : Option (Address × List Char) := do
  let (four, text) ← octets text
  let (service, text) ← service text
  return (.v4 four service, text)

def readV6 (text : List Char) : Option (Address × List Char) := do
  let (eight, text) ← eightGroups (← literal '[' text)
  let (scope, text) := scope text
  let (service, text) ← service (← literal ']' text)
  return (.v6 eight scope service, text)

/-- The address that a text stands for as a whole. -/
def parse? (text : String) : Option Address :=
  match (readV4 text.toList).or (readV6 text.toList) with
  | some (address, []) => some address
  | _ => none

def octetsText (four : List Nat) : String := ".".intercalate (four.map toString)

def groupText (group : Nat) : String := String.ofList (Nat.toDigits 16 group)

def groupsText (groups : List Nat) : String := ":".intercalate (groups.map groupText)

/-- How many zeros a list starts with. -/
def leadingZeros (groups : List Nat) : Nat := (groups.takeWhile (· == 0)).length

/-- The place and length of the longest run of zeros, the first of several. -/
def longestZeros : List Nat → Nat × Nat
  | [] => (0, 0)
  | group :: rest =>
    let here := leadingZeros (group :: rest)
    let later := longestZeros rest
    if later.2 ≤ here then (0, here) else (later.1 + 1, later.2)

/-- IPv6 text: two colons stand for the longest run of at least two zero groups, and an IPv4-mapped
address ends in four octets. -/
def v6Text (groups : List Nat) : String :=
  match groups with
  | [0, 0, 0, 0, 0, 0xFFFF, a, b] =>
    "::ffff:" ++ octetsText [a / 256, a % 256, b / 256, b % 256]
  | _ =>
    let (start, length) := longestZeros groups
    if length ≤ 1 then groupsText groups
    else groupsText (groups.take start) ++ "::" ++ groupsText (groups.drop (start + length))

def display : Address → String
  | .v4 four service => octetsText four ++ ":" ++ toString service
  | .v6 groups scope service =>
    let scopeText := if scope = 0 then "" else "%" ++ toString scope
    "[" ++ v6Text groups ++ scopeText ++ "]:" ++ toString service

end Address

end TabStore
