import TabStore.Proofs.Engine.Isolated
import TabStore.Proofs.Memory.Listed
import TabStore.Proofs.Table.Repeated

/-!
# Statements that are repeated

An UPDATE or a DELETE that has succeeded is run again in the same session. It stores the table that
is stored already, or fails before anything is stored, so the files stay as they are.

Results:
1. `Represents.persist_stored`, `Represents.persist_again`: storing a table that is stored already
   changes nothing;
2. `Represents.run_again`: a change that is run on the table it has made;
3. `Engine.perform_again`: the same for statements of a session after any run.
-/

namespace TabStore

/-! ## Files -/

namespace Represents

variable {site : Site} {tree : Tree} {store : Store} {db name : String}
  {tables : Tables}

/-- A table of the store is stored in the files that hold it. -/
theorem persist_stored (h : Represents site tree store) (sound : site.IsSoundStore store)
    (found : store.lookup db = some tables) {table : Table} (named : table.name = name)
    (placed : table.directory = site.root.join db)
    (present : tables.lookup name = some (.ofTable table)) : table.persist tree = (.ok (), tree) := by
  have isSound := sound.tables db tables found name _ present
  subst named
  have files : ∀ part : Part, tree.find? (site.file db part table.name) =
      some (.file (.text (part.text (.ofTable table)))) := by
    intro part
    rw [h.files db tables found, present]
    rfl
  rw [(h.offers sound found).persist isSound.isName placed (isSound.fits .schema),
    Site.putTable_of_files files]

end Represents

/-! ## Table statements -/

namespace TableStatement

/-- A change that succeeds loads a table, makes another one of it and stores that one. -/
theorem exists_change {tree next : Tree} {home : Database} {name : String}
    {statement : TableStatement} {change : Table → Result Table}
    (onFiles : statement.effect tree home = do
      let table ← home.load tree name
      .store <$> change table)
    {text : Option String} (ran : statement.run tree home = (.ok text, next)) :
    ∃ table after, home.load tree name = .ok table ∧ change table = .ok after ∧
      after.persist tree = (.ok (), next) ∧ text = none := by
  cases loaded : home.load tree name with
  | error e =>
    rw [loaded, error_bind] at onFiles
    cases (run_of_error onFiles).symm.trans ran
  | ok table =>
    rw [loaded, ok_bind] at onFiles
    cases changed : change table with
    | error e =>
      rw [changed, map_error] at onFiles
      cases (run_of_error onFiles).symm.trans ran
    | ok after =>
      rw [changed, map_ok] at onFiles
      rw [run_of_effect onFiles, perform] at ran
      cases persisted : after.persist tree with
      | mk outcome stored =>
        rw [persisted] at ran
        cases outcome with
        | error e => cases ran
        | ok done =>
          cases ran
          exact ⟨table, after, rfl, changed, persisted, rfl⟩

end TableStatement

namespace Represents

variable {site : Site} {tree next : Tree} {store : Store} {db name : String} {tables : Tables}

/-- A table that is stored is loaded again, and storing it once more changes nothing. -/
theorem persist_again (h : Represents site tree store) (sound : site.IsSoundStore store)
    (found : store.lookup db = some tables) (isName : IsName name) {table : Table}
    (named : table.name = name) (placed : table.directory = site.root.join db)
    (isSound : table.IsSound)
    (fits : Tree.EntryFits (site.root.join db) (Part.temporary (Part.schema.fileName name)))
    (persisted : table.persist tree = (.ok (), next)) :
    (Database.under site.root db).load next name = .ok table ∧
      table.persist next = (.ok (), next) ∧ next.isDirectory (site.root.join db) = true := by
  obtain ⟨_, same, represents, soundNext⟩ :=
    h.exists_persist sound found isName named placed isSound fits
  cases persisted.symm.trans same
  have foundNext := @AList.lookup_insert _ _ _ db (tables.insert name (.ofTable table)) store
  have present := @AList.lookup_insert _ _ _ name (Contents.ofTable table) tables
  refine ⟨?_, represents.persist_stored soundNext foundNext named placed present, ?_⟩
  · rw [represents.load soundNext foundNext isName, Memory.load, present]
    dsimp only
    rw [ofTable_eq named placed]
  · exact (represents.isPresent soundNext (sound.isName db (mem_of_lookup found))).1.trans
      (decide_eq_true ((AList.mem_insert _).mpr (.inl rfl)))

/-- A change that has succeeded is run again on the table that it has made. -/
theorem run_again (h : Represents site tree store) (sound : site.IsSoundStore store)
    (found : store.lookup db = some tables) (isName : IsName name) {statement : TableStatement}
    (change : Table → Result Table)
    (onFiles : ∀ tree, statement.effect tree (Database.under site.root db) = do
      let table ← (Database.under site.root db).load tree name
      .store <$> change table)
    (follows : ∀ table after, table.IsSound → change table = .ok after →
      after.Follows table table.lastId ∧ TableStatement.Again change after)
    {text : Option String}
    (ran : statement.run tree (Database.under site.root db) = (.ok text, next)) :
    text = none ∧ next.isDirectory (site.root.join db) = true ∧
      (statement.run next (Database.under site.root db) = (.ok none, next) ∨
        ∃ fault, statement.run next (Database.under site.root db) = (.error (.error fault), next) ∧
          fault.IsOperandFault) := by
  obtain ⟨table, after, loaded, changed, persisted, rfl⟩ :=
    TableStatement.exists_change (onFiles tree) ran
  rw [h.load sound found isName] at loaded
  obtain ⟨-, fits, isSound, named, placed⟩ := follows_load sound found loaded
  obtain ⟨kept, again⟩ := follows table after isSound changed
  have namedAfter := kept.name_eq.trans named
  have placedAfter := kept.directory_eq.trans placed
  obtain ⟨loadedNext, stored, directory⟩ := h.persist_again sound found isName namedAfter
    placedAfter kept.sound fits persisted
  refine ⟨rfl, directory, ?_⟩
  -- The change is run on the table that it has made.
  have effect := onFiles next
  rw [loadedNext, ok_bind] at effect
  rcases again with same | ⟨fault, failed, typed⟩
  · left
    rw [same, map_ok] at effect
    rw [TableStatement.run_of_effect effect, TableStatement.perform, stored]
    rfl
  · rw [failed, map_error] at effect
    exact .inr ⟨fault, TableStatement.run_of_error effect, typed⟩

end Represents

namespace TableStatement

/-- UPDATE and DELETE load a table and store what they make of it, and they do nothing else when
they are run again. -/
theorem exists_again {statement : TableStatement}
    (readable : (Statement.table statement).IsReadable)
    (changes : (Statement.table statement).verb = .update ∨
      (Statement.table statement).verb = .delete) :
    ∃ (name : String) (change : Table → Result Table), IsName name ∧
      (∀ tree home, statement.effect tree home = do
        let table ← home.load tree name
        .store <$> change table) ∧
      ∀ table after, table.IsSound → change table = .ok after →
        after.Follows table table.lastId ∧ Again change after := by
  cases statement with
  | update name assignments condition =>
    obtain ⟨clause, assigns, -, _, compiled⟩ := readable
    have literals := fun a mem => (assigns.sound a mem).isLiteral
    refine ⟨name, (updateTable · assignments condition), clause.isName, fun _ _ => rfl, ?_⟩
    intro table after sound updated
    exact ⟨follows_updateTable sound literals updated,
      updateTable_again sound (Condition.check_of_compile compiled) literals assigns.nodup updated⟩
  | delete name condition =>
    obtain ⟨clause, _, compiled⟩ := readable
    refine ⟨name, (deleteRows · condition), clause.isName, fun _ _ => rfl, ?_⟩
    intro table after sound deleted
    exact ⟨follows_deleteRows sound deleted,
      deleteRows_again sound (Condition.check_of_compile compiled) deleted⟩
  | create | drop | alter | insert | select | join => rcases changes with verb | verb <;> cases verb

end TableStatement

/-! ## Statements of a session -/

namespace Engine

variable {σ : Type} {engine : Engine} {root : Path} {start tree : Tree}

/-- A statement that changes rows is performed again in the session that it has left. -/
theorem performed_again {site : Site} {next : Tree} {store : Store}
    {session : Session} {text : String} {statement : Statement} {response : Response}
    (represents : Represents site tree store) (sound : site.IsSoundStore store)
    (same : engine.root = site.root) (valid : session.IsValid)
    (parsed : Statement.parse text = .ok statement)
    (changes : statement.verb = .update ∨ statement.verb = .delete)
    (done : engine.perform tree session text = (.ok response, next)) :
    response = ⟨none, session⟩ ∧ (engine.perform next session text = (.ok response, next) ∨
      ∃ fault, engine.perform next session text = (.error (.error fault), next) ∧
        fault.IsOperandFault) := by
  cases statement with
  | database statement => cases statement <;> rcases changes with verb | verb <;> cases verb
  | table statement =>
    obtain ⟨name, change, isName, onFiles, follows⟩ :=
      TableStatement.exists_again (Statement.isReadable_of_parse parsed) changes
    cases working : session.workingDatabase with
    | none => cases (perform_of_error (prepare_of_no_database parsed working)).symm.trans done
    | some db =>
      have present := (represents.isPresent sound (valid db working)).1
      cases found : store.lookup db with
      | none =>
        rw [decide_eq_false (AList.lookup_eq_none.mp found), ← same] at present
        cases (perform_of_not_isDirectory working parsed present).symm.trans done
      | some tables =>
        rw [decide_eq_true (Represents.mem_of_lookup found), ← same] at present
        rw [perform_of_isDirectory working parsed present] at done
        cases ran : statement.run tree (Database.under engine.root db) with
        | mk outcome after =>
          rw [ran] at done
          cases outcome with
          | error e => cases done
          | ok text =>
            cases done
            rw [same] at ran
            obtain ⟨rfl, directory, again⟩ := represents.run_again sound found isName change
              (fun tree => onFiles tree _) follows ran
            rw [← same] at again directory
            rw [perform_of_isDirectory working parsed directory]
            refine ⟨rfl, ?_⟩
            rcases again with again | ⟨fault, again, typed⟩
            · rw [again]
              exact .inl rfl
            · rw [again]
              exact .inr ⟨fault, rfl, typed⟩

/-- An UPDATE or a DELETE that succeeds after a run is run again in the same session. All files stay
as they are, whether it succeeds once more or fails, and it can only fail because a cell that it
compares is of another type now. -/
theorem perform_again [DecidableEq σ] (opened : openAt root start = (.ok engine, tree))
    (empty : tree.IsEmptyAt root) (requests : List (σ × String)) (who : σ) {text : String}
    {statement : Statement} (parsed : Statement.parse text = .ok statement)
    (changes : statement.verb = .update ∨ statement.verb = .delete) :
    let served := (Served.run engine.perform (.start tree) requests).2
    ∀ response next, engine.perform served.data (served.sessions who) text = (.ok response, next) →
      response = ⟨none, served.sessions who⟩ ∧
      (engine.perform next response.session text).2 = next ∧
      ((engine.perform next response.session text).1 = .ok response ∨
        ∃ fault, (engine.perform next response.session text).1 = .error (.error fault) ∧
          fault.IsOperandFault) := by
  intro served response next done
  obtain ⟨site, same, serves⟩ := @exists_serves σ _ _ _ _ opened empty
  obtain ⟨last, represents, sound, sessions, valid⟩ := serves.run same requests
  have isValid := valid who
  rw [← sessions] at isValid
  obtain ⟨rfl, again⟩ := performed_again represents sound same isValid parsed changes done
  refine ⟨rfl, ?_⟩
  rcases again with again | ⟨fault, again, typed⟩
  · rw [again]
    exact ⟨rfl, .inl rfl⟩
  · rw [again]
    exact ⟨rfl, .inr ⟨fault, rfl, typed⟩⟩

/-- The first run writes a text where its condition compares numbers, and the second one fails. -/
theorem perform_again_of_other_type :
    let requests : List (Nat × String) :=
      [(0, "CREATE DATABASE a;"), (0, "USE a;"), (0, "CREATE TABLE t (x);"),
        (0, "INSERT INTO t VALUES (7);")]
    let served := (Served.run (perform ⟨⟨"db"⟩⟩) (.start (.ofDirectory "db")) requests).2
    let first := perform ⟨⟨"db"⟩⟩ served.data (served.sessions 0) "UPDATE t SET x='u' WHERE x>3;"
    let second := perform ⟨⟨"db"⟩⟩ first.2 ⟨some "a"⟩ "UPDATE t SET x='u' WHERE x>3;"
    openAt ⟨"db"⟩ .empty = (.ok ⟨⟨"db"⟩⟩, .ofDirectory "db") ∧
      (Tree.ofDirectory "db").IsEmptyAt ⟨"db"⟩ ∧
      first.1 = .ok ⟨none, ⟨some "a"⟩⟩ ∧ second.1 = .error (.error (.nonNumericOperand "'u'")) ∧
      second.2 = first.2 := by
  intro requests
  dsimp only
  have isFileName : IsFileName "db" := by constructor <;> decide
  have short : "db".utf8ByteSize ≤ Tree.nameLimit := by decide
  have opened := openAt_mk isFileName short
  have empty := Tree.isEmptyAt_ofDirectory isFileName short
  have read : Statement.parse "UPDATE t SET x='u' WHERE x>3;" = .ok (.table (.update "t"
      [⟨"x", "'u'"⟩] ⟨[.operand "x", .operand "3", .operator .greater]⟩)) := by
    decide +kernel
  have twice := perform_again opened empty requests 0 read (.inl rfl)
  dsimp only at twice
  have ended :
      let served := (Served.run (perform ⟨⟨"db"⟩⟩) (.start (.ofDirectory "db")) requests).2
      let first := perform ⟨⟨"db"⟩⟩ served.data (served.sessions 0) "UPDATE t SET x='u' WHERE x>3;"
      first.1 = .ok ⟨none, ⟨some "a"⟩⟩ ∧
        (perform ⟨⟨"db"⟩⟩ first.2 ⟨some "a"⟩ "UPDATE t SET x='u' WHERE x>3;").1 =
          .error (.error (.nonNumericOperand "'u'")) := by
    decide +kernel
  dsimp only at ended
  generalize (Served.run (perform ⟨⟨"db"⟩⟩) (.start (.ofDirectory "db")) requests).2 = served
    at twice ended ⊢
  generalize perform ⟨⟨"db"⟩⟩ served.data (served.sessions 0) "UPDATE t SET x='u' WHERE x>3;" = first
    at twice ended ⊢
  obtain ⟨outcome, next⟩ := first
  obtain ⟨rfl, failed⟩ := ended
  obtain ⟨-, same, -⟩ := twice ⟨none, ⟨some "a"⟩⟩ next rfl
  exact ⟨opened, empty, rfl, failed, same⟩

end Engine

end TabStore
