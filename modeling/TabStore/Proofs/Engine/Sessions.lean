import Mathlib.Data.List.Induction
import TabStore.Conversation
import TabStore.Proofs.Engine.Faults
import TabStore.Proofs.Memory.Deeds

/-!
# Sessions and their working databases

The working database of a session is told by the session's own events alone: it is the one that was
selected last, unless the session has dropped it since. What other sessions do, and what fails, does
not change it, even if the database itself is gone.

Results:
1. `selects_concat`: what one more event makes of the selected database;
2. `Served.workingDatabase_step`, `Served.workingDatabase_run`: every session goes from event to
   event as if it were alone;
3. `Engine.sessions_isolated`: the working databases after any run, and which statements fail for
   want of one.
-/

namespace TabStore

/-! ## Events of one session -/

/-- The database that an event selects: that of a USE that succeeded. -/
def Event.used? (event : Event) : Option String :=
  match event.outcome, Statement.parse event.text with
  | .ok _, .ok (.database (.use name)) => some name
  | _, _ => none

/-- The database that an event drops: that of a DROP DATABASE that succeeded. -/
def Event.dropped? (event : Event) : Option String :=
  match event.outcome, Statement.parse event.text with
  | .ok _, .ok (.database (.drop name)) => some name
  | _, _ => none

/-- A database was selected, and since then no other one was selected and it was not dropped. -/
def Selects (events : List Event) (db : String) : Prop :=
  ∃ before event after, events = before ++ event :: after ∧ event.used? = some db ∧
    ∀ later ∈ after, later.used? = none ∧ later.dropped? ≠ some db

/-- The working database after an event. -/
def Event.next (working : Option String) (event : Event) : Option String :=
  match event.used? with
  | some name => some name
  | none => if event.dropped? = working then none else working

theorem Event.next_of_error {session : Session} {text : String} {failure : Failure}
    (working : Option String) : Event.next working ⟨session, text, .error failure⟩ = working := by
  show (if none = working then none else working) = working
  split
  · next same => exact same
  · rfl

theorem not_selects_nil {db : String} : ¬ Selects [] db := by
  rintro ⟨before, event, after, same, -⟩
  exact List.append_ne_nil_of_right_ne_nil before (List.cons_ne_nil event after) same.symm

theorem selects_concat {events : List Event} {event : Event} {db : String} :
    Selects (events ++ [event]) db ↔ event.used? = some db ∨
      event.used? = none ∧ event.dropped? ≠ some db ∧ Selects events db := by
  constructor
  · rintro ⟨before, chosen, after, same, used, since⟩
    rcases List.eq_nil_or_concat after with rfl | ⟨others, last, rfl⟩
    · obtain ⟨rfl, ⟨⟩⟩ := List.append_inj' same rfl
      exact .inl used
    · rw [List.concat_eq_append, ← List.cons_append, ← List.append_assoc] at same
      obtain ⟨rfl, ⟨⟩⟩ := List.append_inj' same rfl
      rw [List.concat_eq_append] at since
      rw [List.forall_mem_append, List.forall_mem_singleton] at since
      exact .inr ⟨since.2.1, since.2.2, before, chosen, others, rfl, used, since.1⟩
  · rintro (used | ⟨unused, kept, before, chosen, after, rfl, used, since⟩)
    · exact ⟨events, event, [], rfl, used, List.forall_mem_nil _⟩
    · refine ⟨before, chosen, after ++ [event], by simp, used, ?_⟩
      rw [List.forall_mem_append, List.forall_mem_singleton]
      exact ⟨since, unused, kept⟩

/-- Going from event to event ends at the selected database. -/
theorem foldl_next_eq_some_iff {events : List Event} {db : String} :
    events.foldl Event.next none = some db ↔ Selects events db := by
  induction events using List.reverseRecOn with
  | nil => exact iff_of_false nofun not_selects_nil
  | append_singleton events event ih =>
    rw [List.foldl_append, List.foldl_cons, List.foldl_nil, selects_concat, ← ih]
    unfold Event.next
    cases event.used? with
    | some name => simp
    | none =>
      dsimp only
      split
      · next same => rw [same]; simp
      · next other => grind

/-! ## Steps and runs -/

/-- A statement that succeeds leaves its session with the working database that the event tells. -/
theorem Engine.workingDatabase_of_perform {engine : Engine} {tree : Tree} {session : Session}
    {text : String} {response : Response}
    (h : (engine.perform tree session text).1 = .ok response) :
    response.session.workingDatabase =
      Event.next session.workingDatabase ⟨session, text, .ok response⟩ := by
  cases parsed : Statement.parse text with
  | error fault =>
    have refused : engine.prepare tree session text = .error fault := by
      rw [prepare, parsed, error_bind]
    rw [perform_of_error refused] at h
    cases h
  | ok statement =>
    unfold Event.next Event.used? Event.dropped?
    rw [parsed]
    cases statement with
    | database statement =>
      rw [perform_of_prepare (prepare_database parsed)] at h
      replace h : (engine.runDatabase tree session statement).1 = .ok response :=
        Outcome.ofResult_eq_ok.mp h
      cases statement with
      | use name =>
        obtain ⟨database, -, rfl⟩ := except_map_eq_ok.mp h
        rfl
      | create name =>
        obtain ⟨_, -, rfl⟩ := except_map_eq_ok.mp h
        dsimp only
        split
        · next same => exact same.symm
        · rfl
      | drop name =>
        unfold runDatabase at h
        dsimp only at h
        split at h
        · cases h
        · obtain ⟨_, -, rfl⟩ := except_map_eq_ok.mp h
          dsimp only
          unfold afterDrop
          split
          · next same => rw [if_pos same.symm]
          · next other => rw [if_neg (Ne.symm other)]
    | table statement =>
      have kept : response.session = session := by
        cases working : session.workingDatabase with
        | none =>
          rw [perform_of_error (prepare_of_no_database parsed working)] at h
          cases h
        | some db =>
          cases present : tree.isDirectory (Database.under engine.root db).path with
          | false =>
            rw [perform_of_not_isDirectory working parsed present] at h
            cases h
          | true =>
            rw [perform_of_isDirectory working parsed present] at h
            obtain ⟨_, -, rfl⟩ := except_map_eq_ok.mp h
            rfl
      rw [kept]
      dsimp only
      split
      · next same => exact same.symm
      · rfl

namespace Served

variable {σ : Type} [DecidableEq σ] {engine : Engine} {served : Served σ Tree}
  {perform : Tree → Session → String → Outcome Response × Tree} {request : σ × String} {who : σ}

/-- The events of one session in a run. -/
def eventsOf (perform : Tree → Session → String → Outcome Response × Tree) (who : σ)
    (served : Served σ Tree) (requests : List (σ × String)) : List Event :=
  ((requests.zip (events perform served requests)).filter fun entry => entry.1.1 = who).map Prod.snd

theorem sessions_step_of_ne (other : who ≠ request.1) :
    (step perform served request).2.sessions who = served.sessions who := by
  unfold step
  dsimp only
  split
  · exact if_neg other
  · rfl

theorem sessions_step_of_error {failure : Failure}
    (failed : (step perform served request).1 = .error failure) :
    (step perform served request).2.sessions = served.sessions := by
  unfold step at failed ⊢
  dsimp only at failed ⊢
  split
  · next found =>
    rw [found] at failed
    cases failed
  · rfl

theorem workingDatabase_step :
    ((step engine.perform served request).2.sessions request.1).workingDatabase =
      Event.next (served.sessions request.1).workingDatabase
        ⟨served.sessions request.1, request.2, (step engine.perform served request).1⟩ := by
  cases ended : (step engine.perform served request).1 with
  | error e => rw [sessions_step_of_error ended, Event.next_of_error]
  | ok response =>
    rw [step_fst] at ended
    rw [step_of_ok (Prod.ext ended rfl)]
    dsimp only
    rw [if_pos rfl]
    exact Engine.workingDatabase_of_perform ended

theorem eventsOf_cons (rest : List (σ × String)) :
    eventsOf perform who served (request :: rest) =
      if request.1 = who then
        ⟨served.sessions request.1, request.2, (step perform served request).1⟩ ::
          eventsOf perform who (step perform served request).2 rest
      else eventsOf perform who (step perform served request).2 rest := by
  unfold eventsOf
  rw [events, List.zip_cons_cons, List.filter_cons]
  dsimp only
  split
  · next own => rw [if_pos (of_decide_eq_true own), List.map_cons]
  · next other => rw [if_neg fun own => other (decide_eq_true own)]

/-- A session goes from one of its own events to the next. -/
theorem workingDatabase_run (served : Served σ Tree) (requests : List (σ × String)) (who : σ) :
    ((run engine.perform served requests).2.sessions who).workingDatabase =
      (eventsOf engine.perform who served requests).foldl Event.next
        (served.sessions who).workingDatabase := by
  induction requests generalizing served with
  | nil => rfl
  | cons request rest ih =>
    rw [run, eventsOf_cons]
    dsimp only
    rw [ih]
    split
    · next own => rw [List.foldl_cons, ← own, workingDatabase_step]
    · next other => rw [sessions_step_of_ne (Ne.symm other)]

end Served

/-! ## Isolation -/

namespace Engine

variable {σ : Type} [DecidableEq σ]

/-- A line of a conversation is a request of its session, unless it is blank. -/
theorem exchange_eq_step (engine : Engine) (served : Served σ Tree) (who : σ) (line : String) :
    let statement := String.ofList (Text.trim line.toList)
    let outcome := (Served.step engine.perform served (who, statement)).1
    let next := (Served.step engine.perform served (who, statement)).2
    engine.exchange (served.sessions who) served.data line =
      if statement.isEmpty then ⟨.blank, served.sessions who, served.data⟩
      else ⟨.ofOutcome statement outcome, next.sessions who, next.data⟩ := by
  generalize same : String.ofList (Text.trim line.toList) = statement
  unfold exchange
  rw [same]
  dsimp only
  split
  · rfl
  · generalize performed : engine.perform served.data (served.sessions who) statement = ran
    obtain ⟨outcome, after⟩ := ran
    cases outcome with
    | ok response =>
      have stepped :=
        @Served.step_of_ok σ Tree _ engine.perform served (who, statement) _ _ performed
      rw [stepped]
      dsimp only
      rw [if_pos rfl]
    | error failure =>
      have stepped :=
        @Served.step_of_error σ Tree _ engine.perform served (who, statement) _ _ performed
      rw [stepped]

/-- The working database of a session is its own affair. After any run of requests of any number
of sessions, it is the database that the session selected last and has not dropped since. The next
request leaves every other session as it is, and its own session too if it fails. A statement on
tables fails for want of a working database exactly if its session has none, and for want of the
database of a name exactly if that is its working database and has no directory then. Each line of
a conversation that is not blank is such a request. -/
theorem sessions_isolated (engine : Engine) (tree : Tree) (requests : List (σ × String)) :
    let reached := (Served.run engine.perform (.start tree) requests).2
    (∀ who db, (reached.sessions who).workingDatabase = some db ↔
      Selects (Served.eventsOf engine.perform who (.start tree) requests) db) ∧
    (∀ request : σ × String,
      let outcome := (Served.step engine.perform reached request).1
      let next := (Served.step engine.perform reached request).2
      let working := (reached.sessions request.1).workingDatabase
      (∀ who, who ≠ request.1 → next.sessions who = reached.sessions who) ∧
      (∀ failure, outcome = .error failure → next.sessions = reached.sessions) ∧
      (outcome = .error (.error .noWorkingDatabase) ↔
        (∃ statement, Statement.parse request.2 = .ok (.table statement)) ∧ working = none) ∧
      ((∀ statement, Statement.parse request.2 ≠ .ok (.database statement)) → ∀ name,
        outcome = .error (.error (.databaseNotFound name)) ↔
          (∃ statement, Statement.parse request.2 = .ok (.table statement)) ∧ working = some name ∧
            (Database.under engine.root name).isPresent reached.data = false)) ∧
    ∀ who line,
      let statement := String.ofList (Text.trim line.toList)
      let outcome := (Served.step engine.perform reached (who, statement)).1
      let next := (Served.step engine.perform reached (who, statement)).2
      engine.exchange (reached.sessions who) reached.data line =
        if statement.isEmpty then ⟨.blank, reached.sessions who, reached.data⟩
        else ⟨.ofOutcome statement outcome, next.sessions who, next.data⟩ := by
  intro reached
  refine ⟨fun who db => ?_, fun request => ⟨fun who => Served.sessions_step_of_ne,
    fun _ => Served.sessions_step_of_error, ?_, fun other name => ?_⟩, fun who line => ?_⟩
  · rw [Served.workingDatabase_run]
    exact foldl_next_eq_some_iff
  · rw [Served.step_fst]
    exact perform_eq_noWorkingDatabase_iff
  · rw [Served.step_fst]
    exact perform_eq_databaseNotFound_iff other
  · exact exchange_eq_step engine reached who line

/-- A session keeps a working database that another session has dropped. -/
theorem sessions_isolated_of_dropped :
    let requests : List (Nat × String) :=
      [(0, "CREATE DATABASE a;"), (0, "USE a;"), (1, "USE a;"), (1, "DROP DATABASE a;")]
    let reached := (Served.run (perform ⟨⟨"db"⟩⟩) (.start (.ofDirectory "db")) requests).2
    Selects (Served.eventsOf (perform ⟨⟨"db"⟩⟩) 0 (.start (.ofDirectory "db")) requests) "a" ∧
      ¬ Selects (Served.eventsOf (perform ⟨⟨"db"⟩⟩) 1 (.start (.ofDirectory "db")) requests) "a" ∧
      (Served.step (perform ⟨⟨"db"⟩⟩) reached (0, "DROP TABLE t;")).1 =
        .error (.error (.databaseNotFound "a")) ∧
      (Served.step (perform ⟨⟨"db"⟩⟩) reached (1, "DROP TABLE t;")).1 =
        .error (.error .noWorkingDatabase) := by
  intro requests
  have isolated := sessions_isolated ⟨⟨"db"⟩⟩ (.ofDirectory "db") requests
  have ran : let reached := (Served.run (perform ⟨⟨"db"⟩⟩) (.start (.ofDirectory "db")) requests).2
      (reached.sessions 0).workingDatabase = some "a" ∧
        (reached.sessions 1).workingDatabase = none ∧
        (Database.under ⟨"db"⟩ "a").isPresent reached.data = false := by decide +kernel
  generalize (Served.run (perform ⟨⟨"db"⟩⟩) (.start (.ofDirectory "db")) requests).2 = reached
    at isolated ran ⊢
  obtain ⟨kept, left, gone⟩ := ran
  obtain ⟨selected, next, -⟩ := isolated
  obtain ⟨-, -, -, missing⟩ := next (0, "DROP TABLE t;")
  obtain ⟨-, -, unselected, -⟩ := next (1, "DROP TABLE t;")
  have parsed : Statement.parse "DROP TABLE t;" = .ok (.table (.drop "t")) := by decide +kernel
  have noDatabase : ∀ statement, Statement.parse "DROP TABLE t;" ≠ .ok (.database statement) := by
    intro statement same
    rw [parsed] at same
    cases same
  refine ⟨(selected 0 "a").mp kept, fun still => ?_, ?_, ?_⟩
  · have working := (selected 1 "a").mpr still
    rw [left] at working
    cases working
  · exact (missing noDatabase "a").mpr ⟨⟨_, parsed⟩, kept, gone⟩
  · exact unselected.mpr ⟨⟨_, parsed⟩, left⟩

end Engine

end TabStore
