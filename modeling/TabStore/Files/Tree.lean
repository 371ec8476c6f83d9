import TabStore.Error
import TabStore.Files.Path

/-!
# File trees

The files and directories that paths lead to, most of them below the working directory. Of what lies
above it, only the directories on the way are known. Reading never changes a tree, and a change that
fails leaves the tree as it was.
-/

namespace TabStore

/-- The bytes of a file: a text, or bytes that encode none. -/
inductive Content
  | text (s : String)
  | malformed (bytes : List UInt8)
deriving DecidableEq

def Content.ofBytes (bytes : ByteArray) : Content :=
  match String.fromUTF8? bytes with
  | some s => .text s
  | none => .malformed bytes.toList

def Content.bytes : Content → ByteArray
  | .text s => s.toUTF8
  | .malformed bytes => bytes.toByteArray

theorem Content.ofBytes_bytes_text (s : String) : ofBytes (Content.text s).bytes = .text s := by
  simp only [ofBytes, bytes, String.fromUTF8?, String.toUTF8_eq_toByteArray, dif_pos s.isValidUTF8]
  rfl

inductive Entry
  | directory
  | file (content : Content)
deriving DecidableEq

/-- Where a location starts: the given number of directories above the working directory, or the
root. These directories are always there. -/
inductive Origin
  | above (levels : Nat)
  | root
deriving DecidableEq, Repr

def Origin.ofPath (path : Path) : Origin :=
  if path.text.toList.head? = some '/' then .root else .above 0

/-- The names that lead from an origin to an entry, the innermost first, and how many there are:
that tells most locations apart at once. -/
structure Location where
  origin : Origin
  depth : Nat
  names : List String
deriving DecidableEq, Repr

namespace Location

def start (origin : Origin) : Location := ⟨origin, 0, []⟩

def workingDirectory : Location := start (.above 0)

def child (location : Location) (name : String) : Location :=
  ⟨location.origin, location.depth + 1, name :: location.names⟩

/-- Two dots lead here; at the root they lead nowhere else. -/
def parent (location : Location) : Location :=
  match location.names, location.origin with
  | _ :: names, origin => ⟨origin, location.depth - 1, names⟩
  | [], .above levels => start (.above (levels + 1))
  | [], .root => location

/-- A path that leads to a location, from the working directory or from the root. -/
def path (location : Location) : Path :=
  let below := "/".intercalate location.names.reverse
  match location.origin with
  | .above levels => ⟨String.join (List.replicate levels "../") ++ below⟩
  | .root => ⟨"/" ++ below⟩

/-- Whether an entry is, or lies below, the one at `location`. -/
def covers (location other : Location) : Bool :=
  location.origin == other.origin && location.names.isSuffixOf other.names

@[simp] theorem names_child (location : Location) (name : String) :
    (location.child name).names = name :: location.names := rfl

@[simp] theorem parent_child (location : Location) (name : String) :
    (location.child name).parent = location := rfl

end Location

structure Tree where
  entries : List (Location × Entry)
deriving DecidableEq

namespace Tree

def empty : Tree := ⟨[]⟩

def find? (tree : Tree) (location : Location) : Option Entry :=
  if location.names = [] then some .directory else tree.entries.lookup location

/-- The entries with one of them set; one that exists keeps its place. -/
def put (location : Location) (entry : Entry) :
    List (Location × Entry) → List (Location × Entry)
  | [] => [(location, entry)]
  | head :: rest =>
    if head.1 = location then (location, entry) :: rest else head :: put location entry rest

def insert (tree : Tree) (location : Location) (entry : Entry) : Tree :=
  ⟨put location entry tree.entries⟩

def erase (tree : Tree) (location : Location) : Tree :=
  ⟨tree.entries.filter (·.1 ≠ location)⟩

@[simp] theorem find?_start (tree : Tree) (origin : Origin) :
    tree.find? (.start origin) = some .directory := rfl

theorem lookup_cons_eq_ite (head : Location × Entry) (rest : List (Location × Entry))
    (location : Location) : (head :: rest).lookup location =
      if location = head.1 then some head.2 else rest.lookup location := by
  obtain ⟨key, entry⟩ := head
  rw [List.lookup_cons]
  by_cases same : location = key
  · simp [same]
  · have apart : (location == key) = false := by simp [same]
    simp [same, apart]

theorem lookup_put (location other : Location) (entry : Entry)
    (entries : List (Location × Entry)) :
    (put location entry entries).lookup other =
      if other = location then some entry else entries.lookup other := by
  induction entries with
  | nil => simp [put, lookup_cons_eq_ite]
  | cons head rest ih =>
    by_cases here : head.1 = location
    · by_cases same : other = location <;> simp [put, here, lookup_cons_eq_ite, same]
    · by_cases same : other = head.1
      · simp [put, here, lookup_cons_eq_ite, same]
      · simp [put, here, lookup_cons_eq_ite, same, ih]

theorem find?_insert_self (tree : Tree) {location : Location} (inside : location.names ≠ [])
    (entry : Entry) : (tree.insert location entry).find? location = some entry := by
  simp [find?, insert, inside, lookup_put]

theorem find?_insert_of_ne (tree : Tree) {location other : Location} (apart : other ≠ location)
    (entry : Entry) : (tree.insert location entry).find? other = tree.find? other := by
  simp [find?, insert, lookup_put, apart]

theorem find?_erase_self (tree : Tree) {location : Location} (inside : location.names ≠ []) :
    (tree.erase location).find? location = none := by
  simp only [find?, inside, if_false, erase]
  induction tree.entries with
  | nil => rfl
  | cons head rest ih =>
    by_cases here : head.1 = location
    · simpa [here] using ih
    · simpa [here, lookup_cons_eq_ite, Ne.symm here] using ih

theorem find?_erase_of_ne (tree : Tree) {location other : Location} (apart : other ≠ location) :
    (tree.erase location).find? other = tree.find? other := by
  simp only [find?, erase]
  split
  · rfl
  · induction tree.entries with
    | nil => rfl
    | cons head rest ih =>
      by_cases here : head.1 = location
      · simpa [here, lookup_cons_eq_ite, apart] using ih
      · by_cases same : other = head.1
        · simp [here, lookup_cons_eq_ite, same]
        · simpa [here, lookup_cons_eq_ite, same] using ih

/-- The tree without a location and all that lies below it. -/
def eraseBelow (tree : Tree) (location : Location) : Tree :=
  ⟨tree.entries.filter fun entry => !location.covers entry.1⟩

/-- The tree without what lies below a location. -/
def clear (tree : Tree) (location : Location) : Tree :=
  ⟨tree.entries.filter fun entry => !(location.covers entry.1 && location != entry.1)⟩

/-- The names in a directory. -/
def children (tree : Tree) (location : Location) : List String :=
  tree.entries.filterMap fun entry =>
    if entry.1.parent = location then entry.1.names.head? else none

/-- No name in a path may be longer. -/
def nameLimit : Nat := 255

/-- The location that steps lead to from `here`. All but the last must lead to directories; one dot
stays and two dots go up. -/
def locate (tree : Tree) (here : Location) : List String → Except FileError Location
  | [] => .ok here
  | step :: rest =>
    if step = "." then tree.locate here rest
    else if step = ".." then tree.locate here.parent rest
    else if nameLimit < step.utf8ByteSize then .error .nameTooLong
    else if rest.isEmpty then .ok (here.child step)
    else match tree.find? (here.child step) with
      | none => .error .notFound
      | some (.file _) => .error .notDirectory
      | some .directory => tree.locate (here.child step) rest

def follow (tree : Tree) (path : Path) (steps : List String) : Except FileError Location :=
  match path.fault? with
  | some cause => .error cause
  | none => tree.locate (.start (Origin.ofPath path)) steps

def resolve (tree : Tree) (path : Path) : Except FileError Location := tree.follow path path.steps

/-- Where a new directory goes; separators behind its name do not count. -/
def resolveNew (tree : Tree) (path : Path) : Except FileError Location :=
  tree.follow path path.names

/-- The entry at a path. -/
def entry (tree : Tree) (path : Path) : Except FileError Entry := do
  let location ← tree.resolve path
  match tree.find? location with
  | some entry => .ok entry
  | none => .error .notFound

def contains (tree : Tree) (path : Path) : Bool := (tree.entry path).isOk

def isDirectory (tree : Tree) (path : Path) : Bool :=
  match tree.entry path with
  | .ok .directory => true
  | _ => false

def readText (tree : Tree) (path : Path) : Except FileError String := do
  match ← tree.entry path with
  | .directory => .error .isDirectory
  | .file (.malformed _) => .error .invalidText
  | .file (.text s) => .ok s

/-- The tree with a file of the given content at a path. -/
def write (tree : Tree) (path : Path) (content : Content) : Except FileError Tree := do
  let location ← tree.resolve path
  match tree.find? location with
  | some .directory => .error .isDirectory
  | _ => .ok (tree.insert location (.file content))

/-- The names in the directory at a path. -/
def list (tree : Tree) (path : Path) : Except FileError (List String) := do
  match ← tree.entry path with
  | .directory => return tree.children (← tree.resolve path)
  | .file _ => .error .notDirectory

end Tree

/-- One step of work on a tree: it happens as a whole or not at all. -/
inductive Change
  | write (path : Path) (text : String)
  | rename (source target : Path)
  | remove (path : Path)
  | makeDirectory (path : Path)
  | clearDirectory (path : Path)
  | removeDirectory (path : Path)
deriving DecidableEq, Repr

namespace Change

/-- The tree after a change. A directory that is gone already needs no removing, and none can be
removed under the name of one dot. -/
def apply (tree : Tree) : Change → Except FileError Tree
  | .write path text => tree.write path (.text text)
  | .rename source target => do
    let moved ← tree.entry source
    let start ← tree.resolve source
    let goal ← tree.resolve target
    match tree.find? goal with
    | some .directory => .error .isDirectory
    | _ => .ok ((tree.erase start).insert goal moved)
  | .remove path => do
    match ← tree.entry path with
    | .directory => .error .isDirectory
    | .file _ => return tree.erase (← tree.resolve path)
  | .makeDirectory path => do
    let location ← tree.resolveNew path
    match tree.find? location with
    | some _ => .error .alreadyExists
    | none => .ok (tree.insert location .directory)
  | .clearDirectory path => do
    match ← tree.entry path with
    | .directory => return tree.clear (← tree.resolve path)
    | .file _ => .error .notDirectory
  | .removeDirectory path =>
    match tree.entry path with
    | .error .notFound => .ok tree
    | .error cause => .error cause
    | .ok (.file _) => .error .notDirectory
    | .ok .directory =>
      if path.endsInDot then .error .invalidArgument
      else return tree.eraseBelow (← tree.resolve path)

/-- What a change does, for the message when it fails. -/
def action : Change → String
  | .write path _ => "writing " ++ path.text
  | .rename source target => "replacing " ++ target.text ++ " with " ++ source.text
  | .remove path => "removing " ++ path.text
  | .makeDirectory path => "creating " ++ path.text
  | .clearDirectory path | .removeDirectory path => "removing " ++ path.text

/-- Applies changes in order up to the first that fails. -/
def applyAll : List Change → Tree → Result Unit × Tree
  | [], tree => (.ok (), tree)
  | change :: rest, tree =>
    match change.apply tree with
    | .ok next => applyAll rest next
    | .error cause => (.error (.fileFailure change.action cause), tree)

end Change

/-- Makes the directories that steps lead through, up to the first that cannot be made. -/
def Tree.makeSteps (tree : Tree) (here : Location) : List String → Except FileError Unit × Tree
  | [] => (.ok (), tree)
  | step :: rest =>
    if step = "." then tree.makeSteps here rest
    else if step = ".." then tree.makeSteps here.parent rest
    else if nameLimit < step.utf8ByteSize then (.error .nameTooLong, tree)
    else match tree.find? (here.child step) with
      | some .directory => tree.makeSteps (here.child step) rest
      | some (.file _) =>
        (.error (if rest.isEmpty then .alreadyExists else .notDirectory), tree)
      | none => (tree.insert (here.child step) .directory).makeSteps (here.child step) rest

/-- Makes a directory and those above it, as far as they are missing. Under a path that ends in one
dot only those above it are made. -/
def Tree.makeDirectories (tree : Tree) (path : Path) : Except FileError Unit × Tree :=
  if tree.isDirectory path then (.ok (), tree)
  else match path.fault? with
    | some cause => (.error cause, tree)
    | none =>
      let start := Location.start (Origin.ofPath path)
      if path.endsInDot then
        match tree.makeSteps start (path.parent?.getD path).names with
        | (.error cause, tree) => (.error cause, tree)
        | (.ok (), tree) =>
          if tree.isDirectory path then (.ok (), tree) else (.error .notFound, tree)
      else tree.makeSteps start path.names

end TabStore
