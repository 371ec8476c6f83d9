import TabStore.Conversation
import TabStore.LogFilter
import TabStore.Settings

/-!
# Command line

The arguments choose the settings and whether statements are read from the standard input. They are
read from left to right, and the first that is wrong, or asks for help or the version, decides.
-/

namespace TabStore.CommandLine

def helpText : String := Text.unlines [
  "File-backed relational store driven by a small SQL-like language",
  "",
  "Usage: tsvdb [OPTIONS]",
  "",
  "Options:",
  "      --root <ROOT>            Directory holding one sub-directory per database" ++
    " (default: ./databases)",
  "      --listen <LISTEN>        Address to accept statement connections on" ++
    " (default: 127.0.0.1:8888)",
  "      --log-level <LOG_LEVEL>  Log filter directive, overridden by RUST_LOG" ++
    " (default: info)",
  "      --repl                   Read statements from stdin instead of listening",
  "  -h, --help                   Print help",
  "  -V, --version                Print version"]

def versionText : String := Text.unlines ["tsvdb 0.1.0"]

/-- The options given so far. -/
structure Options where
  root : Option Path := none
  listen : Option Address := none
  logLevel : Option String := none
  readsInput : Bool := false
deriving DecidableEq, Repr

/-- The options that take a value. -/
inductive Setting
  | root
  | listen
  | logLevel
deriving DecidableEq, Repr

/-- The options with one more setting. None may be given twice, and the root may not be empty. -/
def Options.set? (options : Options) (value : String) : Setting → Option Options
  | .root =>
    if options.root.isSome || value.isEmpty then none
    else some { options with root := some ⟨value⟩ }
  | .listen =>
    if options.listen.isSome then none
    else (Address.parse? value).map fun address => { options with listen := some address }
  | .logLevel =>
    if options.logLevel.isSome then none else some { options with logLevel := some value }

/-- What the arguments ask for. -/
inductive Request
  | run (options : Options)
  | help
  | version
  | invalid
deriving DecidableEq, Repr

/-- What one argument says. -/
inductive Argument
  | setting (setting : Setting) (value : Option String)
  | readInput
  | help
  | version
  | endOfOptions
  | unknown
deriving DecidableEq, Repr

/-- A long option, by its name and the value behind its equals sign. -/
def Argument.ofLong (name : String) (value : Option String) : Argument :=
  match name, value with
  | "root", value => .setting .root value
  | "listen", value => .setting .listen value
  | "log-level", value => .setting .logLevel value
  | "repl", none => .readInput
  | "help", none => .help
  | "version", none => .version
  | _, _ => .unknown

def Argument.ofText (text : String) : Argument :=
  match text.toList with
  | ['-', '-'] => .endOfOptions
  | '-' :: '-' :: rest =>
    let name := String.ofList (rest.takeWhile (· != '='))
    match rest.dropWhile (· != '=') with
    | [] => ofLong name none
    | _ :: value => ofLong name (some (String.ofList value))
  | '-' :: 'h' :: _ => .help
  | '-' :: 'V' :: _ => .version
  | _ => .unknown

/-- Whether an argument can be the value of the option before it. -/
def isValue (text : String) : Bool := text.toList.head? != some '-' || text == "-"

def parseFrom (options : Options) : List String → Request
  | [] => .run options
  | text :: rest =>
    match Argument.ofText text, rest with
    | .setting setting (some value), rest =>
      match options.set? value setting with
      | some options => parseFrom options rest
      | none => .invalid
    | .setting _ none, [] => .invalid
    | .setting setting none, value :: rest =>
      match if isValue value then options.set? value setting else none with
      | some options => parseFrom options rest
      | none => .invalid
    | .readInput, rest =>
      if options.readsInput then .invalid else parseFrom { options with readsInput := true } rest
    | .help, _ => .help
    | .version, _ => .version
    | .endOfOptions, [] => .run options
    | .endOfOptions, _ :: _ => .invalid
    | .unknown, _ => .invalid

def parse (args : List String) : Request := parseFrom {} args

def Options.settings (options : Options) : Settings :=
  ({} : Settings).override options.root options.listen options.logLevel

/-- How the program ends: what it printed and which files it left. -/
structure Outcome where
  exitCode : Nat
  output : String
  tree : Tree

/-- The exit code of a program that panics. -/
def panicCode : Nat := 101

/-- A malformed log filter is refused; one that would be cut inside a character is a panic. -/
def exitCodeOf : LogFilter.Fault → Nat
  | .malformed => 1
  | .misaligned => panicCode

def exitCodeAfter : Option Interruption → Nat
  | none => 0
  | some (.unreadable _) => 1
  | some .panic => panicCode

/-- Answers the statements of an input on the databases of the settings. -/
def converse (settings : Settings) (input : ByteArray) (tree : Tree) : Outcome :=
  match LogFilter.check settings.logLevel with
  | .error fault => ⟨exitCodeOf fault, "", tree⟩
  | .ok () =>
    match Engine.openAt settings.root tree with
    | (.error _, tree) => ⟨1, "", tree⟩
    | (.ok engine, tree) =>
      let transcript := engine.converse tree input
      ⟨exitCodeAfter transcript.interruption, transcript.output, transcript.tree⟩

/-- Runs the program on its arguments and its standard input. Without a request to read the input
there is nothing to answer, and it fails. -/
def run (args : List String) (input : ByteArray) (tree : Tree) : Outcome :=
  match parse args with
  | .help => ⟨0, helpText, tree⟩
  | .version => ⟨0, versionText, tree⟩
  | .invalid => ⟨2, "", tree⟩
  | .run options =>
    if options.readsInput then converse options.settings input tree else ⟨1, "", tree⟩

end TabStore.CommandLine
