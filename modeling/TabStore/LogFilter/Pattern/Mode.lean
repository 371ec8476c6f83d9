import TabStore.Text.Blank

/-!
# Modes of a pattern

The flags that change how a pattern is read, and the blanks and comments that one of them lets
stand between its parts.
-/

namespace TabStore.LogFilter.Pattern

/-- What the flags in force say: `verbose` passes over blanks and comments, `caseless` ignores the
case of letters, and `bytewise` matches bytes in place of characters. -/
structure Mode where
  verbose : Bool := false
  caseless : Bool := false
  bytewise : Bool := false
deriving DecidableEq, Repr

def flagLetters : List Char := "imsUuRx".toList

/-- Flags to set, and behind a minus sign flags to clear. None may occur twice. -/
def areFlags (text : List Char) : Bool :=
  text.all (fun c => c == '-' || flagLetters.contains c) &&
    text.eraseDups.length == text.length && text.getLast? != some '-'

/-- The setting of one flag after a list of flags. -/
def flagAfter (flags : List Char) (flag : Char) (setting : Bool) : Bool :=
  if flags.contains flag then (flags.takeWhile (· != '-')).contains flag else setting

namespace Mode

def after (mode : Mode) (flags : List Char) : Mode where
  verbose := flagAfter flags 'x' mode.verbose
  caseless := flagAfter flags 'i' mode.caseless
  bytewise := !flagAfter flags 'u' !mode.bytewise

/-- A text without the blanks and comments at its front. A comment ends with its line. -/
def dropComments (inComment : Bool) : List Char → List Char
  | [] => []
  | c :: rest =>
    if inComment then dropComments (c != '\n') rest
    else if Text.isBlank c then dropComments false rest
    else if c = '#' then dropComments true rest
    else c :: rest

def skip (mode : Mode) (text : List Char) : List Char :=
  if mode.verbose then dropComments false text else text

/-- The character that decides whether a dash in brackets makes a range: the one behind it, blanks
and one number sign not counted. -/
def behindDash (mode : Mode) (text : List Char) : Option Char :=
  if mode.verbose then
    match text.dropWhile Text.isBlank with
    | '#' :: rest => (rest.dropWhile Text.isBlank).head?
    | rest => rest.head?
  else text.head?

end Mode

end TabStore.LogFilter.Pattern
