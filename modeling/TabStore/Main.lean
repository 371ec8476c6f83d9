import TabStore.CommandLine
import TabStore.Footprint

/-!
# The program

Statements are read from the standard input, one a line, and run on the files of the disk. Before a
statement runs, the paths of its footprint are read into a tree; after it, those that changed are
written back. Connections are not served: without `--repl` the program fails.
-/

namespace TabStore.Main

/-- What is at a path of the disk, all directories above it being there. -/
def look (path : Path) : IO (Option Entry) := do
  try
    return some (.file (.ofBytes (← IO.FS.readBinFile path.text)))
  catch
    | .noFileOrDirectory .. => return none
    | .inappropriateType .. => return some .directory
    | e => throw e

/-- Reads the entries that steps lead through, as far as there are any. -/
def lookAlong (here : Location) (tree : Tree) : List String → IO Tree
  | [] => return tree
  | step :: rest => do
    if step = "." then lookAlong here tree rest
    else if step = ".." then lookAlong here.parent tree rest
    else if Tree.nameLimit < step.utf8ByteSize then return tree
    else
      let location := here.child step
      match ← look location.path with
      | none => return tree
      | some entry =>
        let tree := tree.insert location entry
        match entry with
        | .directory => lookAlong location tree rest
        | .file _ => return tree

def snapshot (paths : List Path) : IO Tree :=
  (paths.filter (·.fault?.isNone)).foldlM (fun tree path =>
    lookAlong (.start (Origin.ofPath path)) tree path.names) Tree.empty

/-- Makes the disk agree with `after` at a location where `before` tells what it holds. -/
def writeBackAt (before after : Tree) (location : Location) : IO Unit := do
  let path := location.path
  let old := before.find? location
  let new := after.find? location
  if old = new then return
  match old, new with
  | _, some (.file content) =>
    let temporary := path.addExtension Table.temporaryExtension
    IO.FS.writeBinFile temporary.text content.bytes
    IO.FS.rename temporary.text path.text
  | _, some .directory => IO.FS.createDir path.text
  | some .directory, none => IO.FS.removeDirAll path.text
  | some (.file _), none => IO.FS.removeFile path.text
  | none, none => return

def writeBack (before after : Tree) : IO Unit :=
  ((before.entries ++ after.entries).map (·.1)).eraseDups.forM (writeBackAt before after)

def footprint (engine : Engine) (session : Session) (line : String) : List Path :=
  match Statement.parse (String.ofList (Text.trim line.toList)) with
  | .ok statement => engine.footprint session statement
  | .error _ => []

/-- The bytes up to the next line feed, or all that are left; none at the end of the input. -/
partial def readLine (input : IO.FS.Stream) (line : ByteArray) : IO (Option ByteArray) := do
  let byte ← input.read 1
  if byte.isEmpty then return if line.isEmpty then none else some line
  else if byte == ⟨#[10]⟩ then return some line
  else readLine input (line ++ byte)

/-- Answers lines until the input ends, or until one is no text or panics. -/
partial def converse (engine : Engine) (session : Session) : IO UInt32 := do
  match ← readLine (← IO.getStdin) ByteArray.empty with
  | none => return 0
  | some bytes =>
    match Content.ofBytes bytes with
    | .malformed _ =>
      IO.eprintln FileError.invalidText.message
      return 1
    | .text line =>
      let paths := footprint engine session line
      let tree ← snapshot paths
      let exchange := engine.exchange session tree line
      writeBack tree exchange.tree
      match exchange.answer with
      | .blank => converse engine exchange.session
      | .reply text =>
        let output ← IO.getStdout
        output.putStr text
        output.flush
        converse engine exchange.session
      | .panic =>
        IO.eprintln "attempt to add with overflow"
        return CommandLine.panicCode.toUInt32

def start (settings : Settings) : IO UInt32 := do
  if let .error fault := LogFilter.check settings.logLevel then
    IO.eprintln "failed to initialise logging"
    return (CommandLine.exitCodeOf fault).toUInt32
  let tree ← snapshot [settings.root]
  let (opened, after) := Engine.openAt settings.root tree
  writeBack tree after
  match opened with
  | .error e =>
    IO.eprintln e.message
    return 1
  | .ok engine => converse engine Session.new

end TabStore.Main

def main (args : List String) : IO UInt32 := do
  match TabStore.CommandLine.parse args with
  | .run options =>
    if options.readsInput then TabStore.Main.start options.settings
    else
      IO.eprintln "connections are not served; use --repl"
      return 1
  | .help =>
    IO.print TabStore.CommandLine.helpText
    return 0
  | .version =>
    IO.print TabStore.CommandLine.versionText
    return 0
  | .invalid =>
    IO.eprintln "invalid arguments; try --help"
    return 2
