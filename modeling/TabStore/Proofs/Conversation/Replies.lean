import Mathlib.Data.List.Zip
import Mathlib.Data.String.Basic
import TabStore.Proofs.Conversation.Input
import TabStore.Proofs.Engine.Panics
import TabStore.Proofs.Memory.Answers
import TabStore.Proofs.Memory.Refinement
import TabStore.Proofs.Statement.Printer

/-!
# Replies

A conversation gives one reply for each statement, up to one that panics. A reply ends with a mark,
and what it shows in front of it holds none: a statement is one line, a selection or a join shows no
line that is the end-of-transmission character alone, and messages are one line, up to the root of
the engine. Only a root that is itself written with a mark gives other marks, in messages about
files.

Results:
1. `Engine.replies_answer`, `Engine.interruption_answer`: the replies are those to the outcomes of
   the statements, in order, and they stop early only at a panic;
2. `isFrame_replyTo`: how the outcome of a statement is framed;
3. `Engine.replies_framed`: the replies of a conversation are recovered from its output;
4. `Engine.split_long_name`: they are not where a root is written with a mark.
-/

namespace TabStore

open Text (IsLine IsFrame frames)

/-! ## Statements of an input -/

/-- The statements in the lines of an input: those that are not blank, trimmed, up to a line that is
no text. -/
def statementsOf : List Content → List String
  | [] => []
  | .malformed _ :: _ => []
  | .text line :: rest =>
    let statement := String.ofList (Text.trim line.toList)
    if statement.isEmpty then statementsOf rest else statement :: statementsOf rest

theorem isLine_of_mem_statementsOf {lines : List Content}
    (h : ∀ line, .text line ∈ lines → IsLine line) {statement : String}
    (mem : statement ∈ statementsOf lines) : IsLine statement := by
  induction lines with
  | nil => cases mem
  | cons content rest ih =>
    have later := ih fun line inRest => h line (List.mem_cons_of_mem content inRest)
    cases content with
    | malformed bytes => cases mem
    | text line =>
      rw [statementsOf] at mem
      split at mem
      · exact later mem
      · rcases List.mem_cons.mp mem with rfl | inRest
        · rw [Text.isLine_ofList]
          exact fun feed => h line List.mem_cons_self (Text.mem_of_mem_trim feed)
        · exact later inRest

/-! ## One reply -/

/-- The reply to a statement with its outcome. -/
def replyTo (statement : String) (outcome : Result Response) : String :=
  reply statement (outcome.map Response.text)

/-- A text that starts with one of the two words and ends with a mark. -/
structure IsReply (text : String) : Prop where
  word : "[OK] Processed: ".toList <+: text.toList ∨ "[ERROR] ".toList <+: text.toList
  ends : mark <:+ text.toList

section

variable {statement : String} {response : Response} {outcome : Result Response} {e : Error}

theorem toList_replyTo_ok : (replyTo statement (.ok response)).toList =
    ("[OK] Processed: " ++ statement).toList ++
      '\n' :: ((response.text.getD "").toList ++ mark) := by
  show ("[OK] Processed: " ++ statement ++ "\n" ++ response.text.getD "" ++ "\n" ++
    endOfTransmission ++ "\n").toList = _
  simp [endOfTransmission, mark]

theorem toList_replyTo_error :
    (replyTo statement (.error e)).toList = ("[ERROR] " ++ e.message).toList ++ mark := by
  show ("[ERROR] " ++ e.message ++ "\n" ++ endOfTransmission ++ "\n").toList = _
  simp [endOfTransmission, mark]

theorem isReply_replyTo : IsReply (replyTo statement outcome) := by
  cases outcome with
  | ok response =>
    constructor
    · rw [toList_replyTo_ok, String.toList_append, List.append_assoc]
      exact .inl (List.prefix_append _ _)
    · rw [toList_replyTo_ok]
      exact ((List.suffix_append _ mark).trans (List.suffix_cons '\n' _)).trans
        (List.suffix_append _ _)
  | error e =>
    constructor
    · rw [toList_replyTo_error, String.toList_append, List.append_assoc]
      exact .inr (List.prefix_append _ _)
    · rw [toList_replyTo_error]
      exact List.suffix_append _ mark

theorem isFrame_replyTo {root : Path} (unmarked : ¬ mark <:+: root.text.toList)
    (line : IsLine statement) (ends : EndsShown root (.ofResult outcome)) :
    IsFrame (replyTo statement outcome).toList := by
  cases outcome with
  | ok response =>
    have shown : IsUnmarked (response.text.getD "") := by
      cases text : response.text with
      | none => exact ⟨[], rfl, List.forall_mem_nil _⟩
      | some text' => exact ends.ok rfl text' text
    obtain ⟨lines, same, each⟩ := shown
    have start : IsLine ("[OK] Processed: " ++ statement) :=
      Text.isLine_append.mpr ⟨by decide, line⟩
    rw [toList_replyTo_ok, same]
    exact Text.isFrame_unlines start (fun line mem => (each line mem).isLine)
      fun line mem => (each line mem).ne_mark
  | error e =>
    rw [toList_replyTo_error]
    exact Text.Woven.isFrame (ends.error rfl) unmarked

end

/-! ## Conversations -/

namespace Engine

/-- The outcomes of statements that one session sends. -/
def outcomes (engine : Engine) (session : Session) (tree : Tree) (statements : List String) :
    List (Outcome Response) :=
  (Served.run engine.perform ⟨tree, fun _ : Unit => session⟩ (statements.map ((), ·))).1

/-- The outcomes that are answered: those up to a panic. -/
def answered : List (Outcome Response) → List (Result Response)
  | [] => []
  | .ok response :: rest => .ok response :: answered rest
  | .error (.error e) :: rest => .error e :: answered rest
  | .error .panic :: _ => []

theorem ofResult_mem_of_mem_answered {outcomes : List (Outcome Response)}
    {outcome : Result Response} (mem : outcome ∈ answered outcomes) :
    Outcome.ofResult outcome ∈ outcomes := by
  induction outcomes using answered.induct with
  | case1 => cases mem
  | case2 response rest ih | case3 e rest ih =>
    rcases List.mem_cons.mp mem with rfl | later
    · exact List.mem_cons_self
    · exact List.mem_cons_of_mem _ (ih later)
  | case4 rest => cases mem

variable {engine : Engine} {session : Session} {tree : Tree}

theorem outcomes_cons (statement : String) (rest : List String) :
    engine.outcomes session tree (statement :: rest) =
      match engine.perform tree session statement with
      | (.ok response, after) => .ok response :: engine.outcomes response.session after rest
      | (.error failure, after) => .error failure :: engine.outcomes session after rest := by
  rw [outcomes, List.map_cons, Served.run, Served.step]
  dsimp only
  rcases engine.perform tree session statement with ⟨_ | response, after⟩
  · rfl
  · rfl

theorem answer_of_blank {line : String} (blank : (String.ofList (Text.trim line.toList)).isEmpty)
    (rest : List Content) : engine.answer session tree (.text line :: rest) =
      engine.answer session tree rest := by
  rw [answer, exchange]
  dsimp only
  rw [if_pos blank]

theorem replies_answer (lines : List Content) : (engine.answer session tree lines).replies =
    List.zipWith replyTo (statementsOf lines)
      (answered (engine.outcomes session tree (statementsOf lines))) := by
  induction lines generalizing session tree with
  | nil => rfl
  | cons content rest ih =>
    cases content with
    | malformed bytes => rfl
    | text line =>
      rw [statementsOf]
      split
      · next blank => rw [answer_of_blank blank, ih]
      · next solid =>
        rw [answer, exchange, outcomes_cons]
        dsimp only
        rw [if_neg solid]
        rcases engine.perform tree session _ with ⟨(e | _) | response, after⟩
        · exact congrArg _ ih
        · rfl
        · exact congrArg _ ih

/-- A conversation in which a statement gets no reply ends in a panic. -/
theorem interruption_answer (lines : List Content) :
    (answered (engine.outcomes session tree (statementsOf lines))).length =
        (statementsOf lines).length ∨
      (engine.answer session tree lines).interruption = some .panic ∧
        .error .panic ∈ engine.outcomes session tree (statementsOf lines) := by
  induction lines generalizing session tree with
  | nil => exact .inl rfl
  | cons content rest ih =>
    cases content with
    | malformed bytes => exact .inl rfl
    | text line =>
      rw [statementsOf]
      split
      · next blank =>
        rw [answer_of_blank blank]
        exact ih
      · next solid =>
        rw [answer, exchange, outcomes_cons]
        dsimp only
        rw [if_neg solid]
        rcases engine.perform tree session _ with ⟨(e | _) | response, after⟩
        · exact ih.imp (congrArg (· + 1)) (.imp_right (List.mem_cons_of_mem _))
        · exact .inr ⟨rfl, List.mem_cons_self⟩
        · exact ih.imp (congrArg (· + 1)) (.imp_right (List.mem_cons_of_mem _))

/-- A new session of statements on one line is served on the files that others have left. -/
theorem endsShown_outcomes {site : Site} {σ : Type} {files : Served σ Tree}
    {memory : Served σ Store} (h : site.Serves files memory) (root : engine.root = site.root)
    {statements : List String} (lines : ∀ statement ∈ statements, IsLine statement) :
    ∀ outcome ∈ engine.outcomes Session.new files.data statements,
      EndsShown engine.root outcome := by
  have restarted : site.Serves (Served.start files.data : Served Unit Tree) _ := h.restart
  refine restarted.endsShown_run root fun request mem => ?_
  obtain ⟨statement, present, rfl⟩ := List.mem_map.mp mem
  exact lines statement present

/-- A panic in a new session needs as many requests before it, its own and those of others, as there
are ids. -/
theorem idLimit_le_of_panic_mem_outcomes {site : Site} {σ : Type} [DecidableEq σ]
    {files : Served σ Tree} {memory : Served σ Store} (h : site.Serves files memory)
    (root : engine.root = site.root)
    (few : ∀ db name, HasGivenAtMost 0 (memory.data.contents? db name))
    {requests : List (σ × String)} {statements : List String}
    (panics : .error .panic ∈ engine.outcomes Session.new
      (Served.run engine.perform files requests).2.data statements) :
    Table.idLimit ≤ requests.length + statements.length := by
  obtain ⟨last, served, fewLater⟩ := h.hasGivenAtMost_run root few requests
  rw [Nat.zero_add] at fewLater
  have restarted : site.Serves (Served.start (Served.run engine.perform files requests).2.data :
      Served Unit Tree) _ := served.restart
  have bound := restarted.idLimit_le_of_panic root fewLater panics
  rwa [List.length_map] at bound

theorem mem_zipWith_replyTo {statements : List String} {outcomes : List (Result Response)}
    {text : String} (h : text ∈ List.zipWith replyTo statements outcomes) :
    ∃ statement ∈ statements, ∃ outcome ∈ outcomes, text = replyTo statement outcome := by
  rw [← List.map_uncurry_zip_eq_zipWith] at h
  obtain ⟨⟨statement, outcome⟩, mem, rfl⟩ := List.mem_map.mp h
  obtain ⟨left, right⟩ := List.of_mem_zip mem
  exact ⟨statement, left, outcome, right, rfl⟩

/-- Each statement of an input gets one reply, in order, up to one that panics, which takes as many
statements as there are ids. As long as the root is not written with a mark, a mark is nowhere but
at the end of a reply, and the output is cut behind its marks into the replies, whatever statements,
literals and messages hold. -/
theorem replies_framed {σ : Type} [DecidableEq σ] {root : Path} {start : Tree}
    (opened : openAt root start = (.ok engine, tree)) (empty : tree.IsEmptyAt root)
    (requests : List (σ × String)) (input : ByteArray) :
    let reached := (Served.run engine.perform (.start tree) requests).2.data
    let statements := statementsOf (inputLines input)
    let outcomes := answered (engine.outcomes Session.new reached statements)
    let transcript := engine.converse reached input
    transcript.output = String.join transcript.replies ∧
      transcript.replies = List.zipWith replyTo statements outcomes ∧
      (outcomes.length = statements.length ∨
        transcript.interruption = some .panic ∧
          Table.idLimit ≤ requests.length + statements.length) ∧
      (∀ text ∈ transcript.replies, IsReply text) ∧
      (¬ mark <:+: root.text.toList →
        (∀ text ∈ transcript.replies, ∀ front rest,
          text.toList = front ++ mark ++ rest → rest = []) ∧
        frames transcript.output.toList = transcript.replies.map String.toList) := by
  intro reached statements outcomes transcript
  have replies : transcript.replies = List.zipWith replyTo statements outcomes :=
    replies_answer (inputLines input)
  obtain ⟨site, same, serves⟩ := @exists_serves σ _ _ _ _ opened empty
  refine ⟨rfl, replies, ?_, fun text mem => ?_, fun unmarked => ?_⟩
  · refine (interruption_answer (inputLines input)).imp_right fun ⟨interrupted, panics⟩ => ?_
    exact ⟨interrupted, idLimit_le_of_panic_mem_outcomes serves same (fun _ _ => nofun) panics⟩
  · rw [replies] at mem
    obtain ⟨statement, -, outcome, -, rfl⟩ := mem_zipWith_replyTo mem
    exact isReply_replyTo
  · obtain ⟨last, served⟩ := serves.run same requests
    have areLines : ∀ statement ∈ statements, IsLine statement := fun statement =>
      isLine_of_mem_statementsOf fun line => isLine_of_mem_inputLines
    have ends := endsShown_outcomes served same areLines
    rw [root_eq_of_openAt opened] at ends
    have isFrame : ∀ text ∈ transcript.replies, IsFrame text.toList := by
      intro text mem
      rw [replies] at mem
      obtain ⟨statement, isStatement, outcome, ended, rfl⟩ := mem_zipWith_replyTo mem
      exact isFrame_replyTo unmarked (areLines statement isStatement)
        (ends _ (ofResult_mem_of_mem_answered ended))
    refine ⟨fun text mem front rest whole => (isFrame text mem).eq_nil whole, ?_⟩
    have joined : transcript.output.toList = (transcript.replies.map String.toList).flatten := by
      rw [Transcript.output, String.toList_join, List.flatMap_def]
    rw [joined]
    refine Text.frames_flatten fun chars mem => ?_
    obtain ⟨text, isText, rfl⟩ := List.mem_map.mp mem
    exact isFrame text isText

/-- A cell and a statement hold the character of a mark. -/
theorem replies_framed_of_shown_character :
    let requests : List (Nat × String) :=
      [(0, "CREATE DATABASE a;"), (0, "USE a;"), (0, "CREATE TABLE t (x);"),
        (0, "INSERT INTO t VALUES ('\x04');")]
    let lines := ["USE a;", "", "SELECT x FROM t;", "\x04;"]
    let reached := (Served.run (perform ⟨⟨"db"⟩⟩) (.start (.ofDirectory "db")) requests).2.data
    openAt ⟨"db"⟩ .empty = (.ok ⟨⟨"db"⟩⟩, .ofDirectory "db") ∧
      (Tree.ofDirectory "db").IsEmptyAt ⟨"db"⟩ ∧
      ¬ mark <:+: "db".toList ∧
      frames ((mk ⟨"db"⟩).converse reached (Text.unlines lines).toUTF8).output.toList =
        ["[OK] Processed: USE a;\n\n\x04\n",
          "[OK] Processed: SELECT x FROM t;\nx\n'\x04'\n\n\x04\n",
          "[ERROR] Unknown command: \x04\n\x04\n"].map String.toList := by
  intro requests lines reached
  have isFileName : IsFileName "db" := by constructor <;> decide
  have short : "db".utf8ByteSize ≤ Tree.nameLimit := by decide
  have opened := openAt_mk isFileName short
  have empty := Tree.isEmptyAt_ofDirectory isFileName short
  have read : inputLines (Text.unlines lines).toUTF8 = lines.map .text :=
    inputLines_unlines (by decide)
  have unmarked : ¬ mark <:+: "db".toList := by decide
  obtain ⟨-, replies, -, -, framed⟩ :=
    replies_framed opened empty requests (Text.unlines lines).toUTF8
  refine ⟨opened, empty, unmarked, (framed unmarked).2.trans ?_⟩
  rw [replies, read]
  decide +kernel

/-! ## Roots in messages -/

/-- A name that is too long for a directory is refused with the path that it would have. -/
theorem perform_long_name {root : Path} (empty : tree.IsEmptyAt root) {name : String}
    (clause : IsClauseName name) (long : Tree.nameLimit < name.utf8ByteSize) :
    (mk root).perform tree session (Statement.database (.create name)).source =
      (.error (.error (.fileFailure ("creating " ++ (root.join name).text) .nameTooLong)),
        tree) := by
  obtain ⟨site, rfl, represents⟩ := exists_site empty
  have sound : site.IsSoundStore ∅ := .start
  have readable : (Statement.database (.create name)).IsReadable := clause
  have parsed : Statement.parse (Statement.database (.create name)).source =
      .ok (.database (.create name)) := by
    rw [Statement.parse, Statement.ofText_source readable, ok_bind]
    dsimp only
    rw [Token.tokenize_intercalate (Statement.isSolid_clause readable), ok_bind]
    exact Statement.ofTokens_clause readable
  have created := represents.createDatabase_of_not_fits sound clause.isName
    (AList.notMem_empty name) fun fits => Nat.not_lt.mpr fits.2 long
  rw [perform_of_prepare (prepare_database parsed)]
  unfold execute runDatabase
  dsimp only
  rw [created]
  rfl

theorem replies_long_name {root : Path} (empty : tree.IsEmptyAt root) {name : String}
    (clause : IsClauseName name) (long : Tree.nameLimit < name.utf8ByteSize) :
    ((mk root).converse tree (Text.unlines ["CREATE DATABASE " ++ name ++ ";"]).toUTF8).replies =
      [reply ("CREATE DATABASE " ++ name ++ ";")
        (.error (.fileFailure ("creating " ++ (root.join name).text) .nameTooLong))] := by
  have source : (Statement.database (.create name)).source = "CREATE DATABASE " ++ name ++ ";" := by
    rw [← String.toList_inj]
    simp [Statement.source, Statement.clause, Statement.list?, Token.display, Keyword.word]
  have performed := @perform_long_name Session.new tree root empty name clause long
  rw [source] at performed
  have line : IsLine ("CREATE DATABASE " ++ name ++ ";") :=
    Text.isLine_append.mpr ⟨Text.isLine_append.mpr ⟨by decide, clause.isName.isLine⟩, by decide⟩
  have statements : statementsOf [.text ("CREATE DATABASE " ++ name ++ ";")] =
      ["CREATE DATABASE " ++ name ++ ";"] := by
    have trimmed : Text.trim ("CREATE DATABASE " ++ name ++ ";").toList =
        ("CREATE DATABASE " ++ name ++ ";").toList := by
      refine Text.trim_of_ends (fun c first => ?_) fun c last => ?_
      · have isFirst : 'C' = c := by simpa using first
        rw [← isFirst]
        decide
      · rw [String.toList_append, List.getLast?_append_of_ne_nil _ (by decide)] at last
        have isLast : ';' = c := by simpa using last
        rw [← isLast]
        decide
    rw [statementsOf, trimmed, String.ofList_toList]
    simp [statementsOf]
  rw [converse, inputLines_unlines (by simpa using line), replies_answer, List.map_singleton,
    statements, outcomes_cons, performed]
  rfl

/-- A root that is written with a mark gives one in the middle of a reply. -/
theorem split_long_name {root : Path} (empty : tree.IsEmptyAt root) {front rest : List Char}
    (first : IsFrame (front ++ mark)) (marked : root.text.toList = front ++ mark ++ rest)
    {name : String} (clause : IsClauseName name) (long : Tree.nameLimit < name.utf8ByteSize) :
    let input := (Text.unlines ["CREATE DATABASE " ++ name ++ ";"]).toUTF8
    let transcript := (mk root).converse tree input
    (∃ text ∈ transcript.replies, ∃ front rest,
      text.toList = front ++ mark ++ rest ∧ rest ≠ []) ∧
    frames transcript.output.toList ≠ transcript.replies.map String.toList := by
  intro input transcript
  obtain ⟨text, replies, more, cut, some⟩ : ∃ text, transcript.replies = [text] ∧ ∃ more,
      text.toList = "[ERROR] creating ".toList ++ front ++ mark ++ more ∧ more ≠ [] := by
    refine ⟨_, replies_long_name empty clause long, ?_⟩
    obtain ⟨separator, -, path⟩ := root.exists_join_text clause.isName.isFileName
    refine ⟨rest ++ (separator ++ name ++ ": " ++ FileError.nameTooLong.message).toList ++ mark,
      ?_, by simp [mark]⟩
    show ("[ERROR] " ++ ("creating " ++ (root.join name).text ++ ": " ++
      FileError.nameTooLong.message) ++ "\n" ++ endOfTransmission ++ "\n").toList = _
    rw [path]
    simp [marked, mark, endOfTransmission]
  have isFrame : IsFrame ("[ERROR] creating ".toList ++ front ++ mark) := by
    rw [List.append_assoc]
    exact first.append_line (by decide)
  rw [Transcript.output, replies, String.toList_join, List.flatMap_singleton]
  refine ⟨⟨text, List.mem_singleton_self _, _, more, cut, some⟩, ?_⟩
  rw [List.map_singleton, cut]
  exact isFrame.frames_ne some

theorem isClauseName_replicate {n : Nat} (many : 8 < n) :
    IsClauseName (String.ofList (List.replicate n 'n')) := by
  have chars : (String.ofList (List.replicate n 'n')).toList = List.replicate n 'n' :=
    String.toList_ofList
  have isName : IsName (String.ofList (List.replicate n 'n')) := by
    refine validateName_eq_ok.mpr ⟨?_, ?_, ?_⟩
    · refine isReserved_of_length ?_
      rwa [chars, List.length_replicate]
    · rw [endsAlphanumeric, chars, List.getLast?_replicate, if_neg (by omega)]
      decide
    · intro c mem
      rw [chars] at mem
      rw [List.eq_of_mem_replicate mem]
      decide
  refine ⟨isName, fun mem => ?_⟩
  rw [chars] at mem
  exact absurd (List.eq_of_mem_replicate mem) (by decide)

theorem utf8ByteSize_replicate (n : Nat) :
    (String.ofList (List.replicate n 'n')).utf8ByteSize = n := by
  rw [String.utf8ByteSize_ofList]
  induction n with
  | zero => rfl
  | succ n ih =>
    rw [List.replicate_succ, String.utf8Len_cons, ih]
    rfl

/-- The root is one directory whose name holds a mark. -/
theorem not_replies_framed :
    let input := (Text.unlines
      ["CREATE DATABASE " ++ String.ofList (List.replicate 300 'n') ++ ";"]).toUTF8
    let transcript := (mk ⟨"r\n\x04\ns"⟩).converse (.ofDirectory "r\n\x04\ns") input
    openAt ⟨"r\n\x04\ns"⟩ .empty = (.ok ⟨⟨"r\n\x04\ns"⟩⟩, .ofDirectory "r\n\x04\ns") ∧
      (Tree.ofDirectory "r\n\x04\ns").IsEmptyAt ⟨"r\n\x04\ns"⟩ ∧
      (∃ text ∈ transcript.replies, ∃ front rest,
        text.toList = front ++ mark ++ rest ∧ rest ≠ []) ∧
      frames transcript.output.toList ≠ transcript.replies.map String.toList := by
  have isFileName : IsFileName "r\n\x04\ns" := by constructor <;> decide
  have short : "r\n\x04\ns".utf8ByteSize ≤ Tree.nameLimit := by decide
  have opened := openAt_mk isFileName short
  have empty := Tree.isEmptyAt_ofDirectory isFileName short
  have clause := @isClauseName_replicate 300 (by decide)
  have long : Tree.nameLimit < (String.ofList (List.replicate 300 'n')).utf8ByteSize := by
    rw [utf8ByteSize_replicate]
    decide
  have first : IsFrame ("r".toList ++ mark) := ⟨"r".toList, rfl, by decide⟩
  have marked : "r\n\x04\ns".toList = "r".toList ++ mark ++ "s".toList := by decide
  exact ⟨opened, empty, split_long_name empty first marked clause long⟩

end Engine

end TabStore
