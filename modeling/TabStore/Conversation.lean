import TabStore.Engine

/-!
# Conversations

A client sends one statement a line and gets one reply for each: the word OK with the statement and
the text it shows, or the word ERROR with a message. A reply ends with a line that holds only the
end-of-transmission character. A statement that panics gets no reply, and it ends the conversation.
-/

namespace TabStore

def endOfTransmission : String := "\x04"

/-- The reply to a statement. -/
def reply (statement : String) (outcome : Result (Option String)) : String :=
  let body := match outcome with
    | .ok text => "[OK] Processed: " ++ statement ++ "\n" ++ text.getD ""
    | .error e => "[ERROR] " ++ e.message
  body ++ "\n" ++ endOfTransmission ++ "\n"

/-- The pieces between line feeds; there is always at least one. -/
def splitAtLineFeeds : List UInt8 → List (List UInt8)
  | [] => [[]]
  | byte :: rest =>
    if byte = 10 then [] :: splitAtLineFeeds rest
    else (splitAtLineFeeds rest).modifyHead (byte :: ·)

/-- The lines of an input; what follows the last line feed is one if it is not empty. -/
def inputLines (input : ByteArray) : List Content :=
  let pieces := splitAtLineFeeds input.toList
  let last := pieces.getLastD []
  (pieces.dropLast ++ if last.isEmpty then [] else [last]).map fun piece =>
    Content.ofBytes ⟨piece.toArray⟩

/-- How a line is answered: not at all if it is blank. -/
inductive Answer
  | blank
  | reply (text : String)
  | panic
deriving DecidableEq, Repr

def Answer.ofOutcome (statement : String) : Outcome Response → Answer
  | .ok response => .reply (TabStore.reply statement (.ok response.text))
  | .error (.error e) => .reply (TabStore.reply statement (.error e))
  | .error .panic => .panic

/-- What a line leads to. -/
structure Exchange where
  answer : Answer
  session : Session
  tree : Tree

/-- What can end a conversation before its input ends. -/
inductive Interruption
  | unreadable (cause : FileError)
  | panic
deriving DecidableEq, Repr

/-- What comes of a conversation: the replies, what interrupted it if anything did, and the files it
left. -/
structure Transcript where
  replies : List String
  interruption : Option Interruption
  tree : Tree

def Transcript.output (transcript : Transcript) : String := String.join transcript.replies

namespace Engine

/-- Answers one line. -/
def exchange (engine : Engine) (session : Session) (tree : Tree) (line : String) : Exchange :=
  let statement := String.ofList (Text.trim line.toList)
  if statement.isEmpty then ⟨.blank, session, tree⟩
  else
    match engine.perform tree session statement with
    | (.ok response, tree) => ⟨.ofOutcome statement (.ok response), response.session, tree⟩
    | (.error failure, tree) => ⟨.ofOutcome statement (.error failure), session, tree⟩

/-- Answers lines in turn. A line that is no text ends the conversation, and so does a panic. -/
def answer (engine : Engine) : Session → Tree → List Content → Transcript
  | _, tree, [] => ⟨[], none, tree⟩
  | _, tree, .malformed _ :: _ => ⟨[], some (.unreadable .invalidText), tree⟩
  | session, tree, .text line :: rest =>
    let exchange := engine.exchange session tree line
    match exchange.answer with
    | .blank => engine.answer exchange.session exchange.tree rest
    | .reply text =>
      let later := engine.answer exchange.session exchange.tree rest
      { later with replies := text :: later.replies }
    | .panic => ⟨[], some .panic, exchange.tree⟩

def converse (engine : Engine) (tree : Tree) (input : ByteArray) : Transcript :=
  engine.answer Session.new tree (inputLines input)

end Engine

end TabStore
