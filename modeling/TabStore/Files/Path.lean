import TabStore.Error
import TabStore.Text.Split

/-!
# Paths

A path is kept as it is written, because messages show it. What it leads to is decided by its steps.
Pieces between separators that are empty or a single dot name nothing, and they are dropped where
they end the path of a directory.
-/

namespace TabStore

structure Path where
  text : String
deriving DecidableEq, Repr

namespace Path

/-- An entry of the directory `path`. A name that starts with a separator is a path of its own. -/
def join (path : Path) (name : String) : Path :=
  if name.toList.head? = some '/' then ⟨name⟩
  else if path.text.toList.getLast?.all (· == '/') then ⟨path.text ++ name⟩
  else ⟨path.text ++ "/" ++ name⟩

/-- The texts between the separators. -/
def pieces (path : Path) : List String :=
  (Text.splitOn '/' path.text.toList).map String.ofList

/-- A single empty piece stands for the root. -/
def ofPieces : List String → Path
  | [""] => ⟨"/"⟩
  | pieces => ⟨"/".intercalate pieces⟩

def namesNothing (piece : String) : Bool := piece.isEmpty || piece == "."

/-- The directory and the last name of a path. The root has none. -/
def splitLast? (path : Path) : Option (Path × String) :=
  match path.pieces with
  | [] => none
  | first :: rest =>
    match rest.reverse.dropWhile namesNothing with
    | last :: before =>
      some (ofPieces (first :: (before.dropWhile namesNothing).reverse), last)
    | [] => if first.isEmpty then none else some (⟨""⟩, first)

/-- The directory that a path lies in, as far as the text tells. -/
def parent? (path : Path) : Option Path := path.splitLast?.map (·.1)

/-- The entry beside a path whose name has one more extension. -/
def addExtension (path : Path) (extension : String) : Path :=
  match path.splitLast? with
  | some (directory, last) => directory.join (last ++ "." ++ extension)
  | none => path

/-- The names between the separators. -/
def names (path : Path) : List String := path.pieces.filter (· != "")

/-- The names to follow one after the other, from the working directory on. A separator at the end
asks for a directory, as if a dot stood behind it. -/
def steps (path : Path) : List String :=
  if path.text.toList.getLast? = some '/' then path.names ++ ["."] else path.names

/-- Whether the last name stands for the directory itself. -/
def endsInDot (path : Path) : Bool := path.names.getLast? == some "."

/-- No path may be longer, in bytes. -/
def lengthLimit : Nat := 4095

/-- Why a text can be no path at all, if it cannot. -/
def fault? (path : Path) : Option FileError :=
  if path.text.toList.contains '\x00' then some .nulByte
  else if lengthLimit < path.text.utf8ByteSize then some .nameTooLong
  else if path.text.isEmpty then some .notFound
  else none

example : (Path.mk "a/./b//./c").splitLast? = some (⟨"a/./b"⟩, "c") := by decide +kernel
example : (Path.mk "/c/.").splitLast? = some (⟨"/"⟩, "c") := by decide +kernel
example : (Path.mk "./c").addExtension "tmp" = ⟨"./c.tmp"⟩ := by decide +kernel

end Path

/-- The part of a file name before its last dot, for a name with the given extension. A dot that
starts a name begins no extension. -/
def stemBefore? (extension : String) (fileName : String) : Option String :=
  let reversed := fileName.toList.reverse
  let stem := ((reversed.dropWhile (· != '.')).drop 1).reverse
  if (reversed.takeWhile (· != '.')).reverse = extension.toList ∧ stem ≠ [] then
    some (String.ofList stem)
  else none

example : stemBefore? "txt" "a.b.txt" = some "a.b" := by decide +kernel
example : stemBefore? "txt" ".txt" = none := by decide +kernel
example : stemBefore? "txt" "txt" = none := by decide +kernel

end TabStore
