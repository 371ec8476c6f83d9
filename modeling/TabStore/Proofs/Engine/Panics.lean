import TabStore.Proofs.Engine.Isolated
import TabStore.Proofs.Memory.Numbering

/-!
# Statements that panic

Only the id of a new row can overflow, so only an INSERT panics, and only into a table that has
given the last id. No request raises a last id by more than one, so there are as many requests
before a panic as there are ids.

Results:
1. `TableStatement.effect_eq_panic`, `Engine.perform_eq_panic`: what panics, on every tree;
2. `Site.Serves.hasGivenAtMost_run`, `Site.Serves.idLimit_le_of_panic`: how many ids a table has
   given after a run, and how long a run is in which a request panics.
-/

namespace TabStore

/-! ## Statements -/

namespace TableStatement

variable {tree : Tree} {home : Database} {statement : TableStatement}

theorem effect_eq_panic (computed : statement.effect tree home = .ok .panic) :
    ∃ name values table, statement = .insert name values ∧ home.load tree name = .ok table ∧
      Table.idLimit ≤ table.lastId + 1 := by
  cases statement with
  | insert name values =>
    obtain ⟨table, loaded, ⟨_, _, -, ⟨⟩⟩ | ⟨full, -⟩⟩ := effect_insert_eq_ok.mp computed
    exact ⟨name, values, table, rfl, loaded, (Table.insert_eq_none.mp full).2.2⟩
  | create name names =>
    obtain ⟨_, -, ⟨⟩⟩ := map_eq_ok.mp computed
  | drop name => cases computed
  | alter | update | delete | select =>
    obtain ⟨_, -, computed⟩ := bind_eq_ok.mp computed
    obtain ⟨_, -, ⟨⟩⟩ := map_eq_ok.mp computed
  | join primary secondary =>
    obtain ⟨_, -, computed⟩ := bind_eq_ok.mp computed
    obtain ⟨_, -, computed⟩ := bind_eq_ok.mp computed
    obtain ⟨_, -, ⟨⟩⟩ := map_eq_ok.mp computed

theorem silently_ne_panic (step : Result Unit × Tree) :
    (perform.silently step).1 ≠ .error .panic := by
  intro failed
  obtain ⟨_, ⟨⟩, -⟩ := Outcome.ofResult_eq_error.mp failed

/-- A statement does not panic once it has been found out what it is to do. -/
theorem run_eq_panic (h : (statement.run tree home).1 = .error .panic) :
    statement.effect tree home = .ok .panic := by
  unfold run at h
  split at h
  · next effect computed =>
    cases effect with
    | panic => exact computed
    | answer text => cases h
    | store table | create table | remove table =>
      rw [perform] at h
      exact absurd h (silently_ne_panic _)
  · cases h

end TableStatement

/-- Only an INSERT panics, and only where its table has given the last id. -/
theorem Engine.perform_eq_panic {engine : Engine} {tree : Tree} {session : Session} {text : String}
    (h : (engine.perform tree session text).1 = .error .panic) :
    ∃ db name values table, session.workingDatabase = some db ∧
      Statement.parse text = .ok (.table (.insert name values)) ∧
      (Database.under engine.root db).load tree name = .ok table ∧
      Table.idLimit ≤ table.lastId + 1 := by
  cases parsed : Statement.parse text with
  | error e =>
    have refused : engine.prepare tree session text = .error e := by
      rw [prepare, parsed, error_bind]
    rw [perform_of_error refused] at h
    cases h
  | ok statement =>
    cases statement with
    | database statement =>
      rw [perform_of_prepare (prepare_database parsed)] at h
      obtain ⟨_, ⟨⟩, -⟩ := Outcome.ofResult_eq_error.mp h
    | table statement =>
      cases working : session.workingDatabase with
      | none =>
        rw [perform_of_error (prepare_of_no_database parsed working)] at h
        cases h
      | some db =>
        cases present : tree.isDirectory (Database.under engine.root db).path with
        | false =>
          rw [perform_of_not_isDirectory working parsed present] at h
          cases h
        | true =>
          rw [perform_of_isDirectory working parsed present] at h
          obtain ⟨name, values, table, rfl, loaded, full⟩ := TableStatement.effect_eq_panic
            (TableStatement.run_eq_panic (except_map_eq_error.mp h))
          exact ⟨db, name, values, table, rfl, rfl, loaded, full⟩

/-! ## Runs -/

/-- A table that is held has given at most `count` ids. -/
def HasGivenAtMost (count : Nat) (held : Option Contents) : Prop :=
  ∀ contents ∈ held, contents.lastId ≤ count

theorem Deed.Turns.hasGivenAtMost {deed : Deed} {count : Nat} {held next : Option Contents}
    (turns : deed.Turns held next) (few : HasGivenAtMost count held) :
    HasGivenAtMost (count + 1) next := by
  rintro after ⟨⟩
  cases turns with
  | create _ lastId => exact lastId ▸ Nat.zero_le _
  | insert => exact Nat.succ_le_succ (few _ rfl)
  | edit lastId _ => exact lastId ▸ Nat.le_succ_of_le (few _ rfl)
  | @delete contents _ _ => exact Nat.le_succ_of_le (few contents rfl)
  | other => exact Nat.le_succ_of_le (few _ rfl)

theorem Descends.hasGivenAtMost {deeds : List Deed} {count : Nat} {held last : Option Contents}
    (h : Descends deeds held last) (few : HasGivenAtMost count held) :
    HasGivenAtMost (count + deeds.length) last := by
  induction h generalizing count with
  | nil => exact few
  | cons turns _ ih =>
    rw [List.length_cons, Nat.add_comm _ 1, ← Nat.add_assoc]
    exact ih (turns.hasGivenAtMost few)

namespace Site.Serves

variable {site : Site} {σ : Type} [DecidableEq σ] {files : Served σ Tree}
  {memory : Served σ Store} {engine : Engine} {count : Nat}

/-- After a run no table has given more ids than there were requests. -/
theorem hasGivenAtMost_run (h : site.Serves files memory) (root : engine.root = site.root)
    (few : ∀ db name, HasGivenAtMost count (memory.data.contents? db name))
    (requests : List (σ × String)) :
    ∃ last, site.Serves (Served.run engine.perform files requests).2 last ∧
      ∀ db name, HasGivenAtMost (count + requests.length) (last.data.contents? db name) := by
  obtain ⟨last, served, descends⟩ := h.descends_run root requests
  refine ⟨last, served, fun db name => ?_⟩
  rw [← Served.length_deeds engine.perform db name files requests]
  exact (descends db name).hasGivenAtMost (few db name)

/-- Before a request panics there have been as many requests as there are ids. -/
theorem idLimit_le_of_panic (h : site.Serves files memory) (root : engine.root = site.root)
    (few : ∀ db name, HasGivenAtMost count (memory.data.contents? db name))
    {requests : List (σ × String)}
    (panics : .error .panic ∈ (Served.run engine.perform files requests).1) :
    Table.idLimit ≤ count + requests.length := by
  induction requests generalizing files memory count with
  | nil => cases panics
  | cons request rest ih =>
    rw [Served.run_cons] at panics
    rcases List.mem_cons.mp panics with here | later
    · rw [Served.step_fst] at here
      obtain ⟨db, name, values, table, working, parsed, loaded, full⟩ :=
        Engine.perform_eq_panic here.symm
      have isDatabase := h.valid request.1 db (h.sessions ▸ working)
      have isName := (Statement.isReadable_of_parse parsed).1.isName
      rw [root] at loaded
      obtain ⟨contents, held, rfl⟩ :=
        h.represents.contents?_of_load h.sound isDatabase isName loaded
      have bound : contents.lastId ≤ count := few db name contents held
      replace full : Table.idLimit ≤ contents.lastId + 1 := full
      rw [List.length_cons]
      omega
    · obtain ⟨next, serves, turns⟩ := h.turn root request
      have bound := ih serves (fun db name => (turns db name).hasGivenAtMost (few db name)) later
      rw [List.length_cons]
      omega

end Site.Serves

end TabStore
