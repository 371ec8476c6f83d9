import TabStore.Error
import TabStore.Text.Unquoted
import TabStore.Text.UpperCase

/-!
# Tokens

The main clause of a statement is cut into words at its unquoted white space. A word that spells a
keyword in any letter case is that keyword; everything else stays a word as it was written.
-/

namespace TabStore

inductive Keyword
  | use
  | create
  | drop
  | alter
  | insert
  | select
  | update
  | delete
  | join
  | table
  | database
  | add
  | into
  | values
  | fromClause
  | whereClause
  | set
  | and
  | on
deriving DecidableEq, Repr

namespace Keyword

def all : List Keyword :=
  [use, create, drop, alter, insert, select, update, delete, join, table, database, add, into,
    values, fromClause, whereClause, set, and, on]

def word : Keyword → String
  | use => "USE"
  | create => "CREATE"
  | drop => "DROP"
  | alter => "ALTER"
  | insert => "INSERT"
  | select => "SELECT"
  | update => "UPDATE"
  | delete => "DELETE"
  | join => "JOIN"
  | table => "TABLE"
  | database => "DATABASE"
  | add => "ADD"
  | into => "INTO"
  | values => "VALUES"
  | fromClause => "FROM"
  | whereClause => "WHERE"
  | set => "SET"
  | and => "AND"
  | on => "ON"

def ofWord? (word : String) : Option Keyword :=
  all.find? fun keyword => Text.upper word.toList == keyword.word.toList

theorem mem_all (keyword : Keyword) : keyword ∈ all := by
  cases keyword <;> simp [all]

end Keyword

inductive Token
  | keyword (k : Keyword)
  | star
  | word (text : String)
  | endMark
deriving DecidableEq, Repr

namespace Token

def ofWord (text : String) : Token :=
  if text = "*" then .star
  else match Keyword.ofWord? text with
    | some found => .keyword found
    | none => .word text

def display : Token → String
  | .keyword k => k.word
  | .star => "*"
  | .word text => text
  | .endMark => "end of statement"

/-- The tokens of a main clause, with the end mark. -/
def tokenize (text : String) : Result (List Token) :=
  let chars := text.toList
  if Text.openAtEnd false chars then .error .unterminatedString
  else
    let words := (Text.splitUnquoted Text.isBlank false chars).filter (!·.isEmpty)
    .ok (words.map (fun word => ofWord (String.ofList word)) ++ [.endMark])

end Token

/-- The words that combine and compare in conditions. -/
def conditionWords : List String := ["AND", "OR", "LIKE"]

/-- Whether a word is kept from being a name: it spells a token of its own or a condition word. -/
def isReserved (word : String) : Bool :=
  (match Token.ofWord word with
    | .word _ => false
    | _ => true) ||
  conditionWords.any fun reserved => Text.sameIgnoringCase word.toList reserved.toList

end TabStore
