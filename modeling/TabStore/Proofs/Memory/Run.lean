import TabStore.Proofs.Memory.Step
import TabStore.Proofs.Table.Footprint

/-!
# Runs on files and in memory

Requests of any number of sessions, answered in turn on files and in memory.

Results:
1. `Represents.meets_perform`: one statement of a session;
2. `Site.Serves.step`, `Site.Serves.run`: after every run the tree represents some store;
3. `Site.Serves.run_eq`: with room for all files, that store is the one in memory and every outcome
   is the same.
-/

namespace TabStore

open TabStore.Tree (EntryFits)

/-! ## One statement -/

namespace Engine

variable {engine : Engine} {tree : Tree} {session : Session} {text : String}

theorem perform_of_prepare {command : Command}
    (h : engine.prepare tree session text = .ok command) :
    engine.perform tree session text = engine.execute tree session command := by
  rw [perform, h]

theorem perform_of_error {e : Error} (h : engine.prepare tree session text = .error e) :
    engine.perform tree session text = (.error (.error e), tree) := by
  rw [perform, h]

theorem prepare_database {statement : DatabaseStatement}
    (parsed : Statement.parse text = .ok (.database statement)) :
    engine.prepare tree session text = .ok (.database statement) := by
  rw [prepare, parsed, ok_bind]
  rfl

theorem prepare_table {statement : TableStatement} {db : String}
    (parsed : Statement.parse text = .ok (.table statement))
    (working : session.workingDatabase = some db) :
    engine.prepare tree session text = (do
      let home ← Database.find tree engine.root db
      return .table home statement) := by
  rw [prepare, parsed, ok_bind]
  dsimp only
  rw [working]

theorem prepare_of_no_database {statement : TableStatement}
    (parsed : Statement.parse text = .ok (.table statement))
    (working : session.workingDatabase = none) :
    engine.prepare tree session text = .error .noWorkingDatabase := by
  rw [prepare, parsed, ok_bind]
  dsimp only
  rw [working]

end Engine

namespace Represents

variable {site : Site} {tree : Tree} {store : Store} {engine : Engine} {session : Session}
  {text : String}

theorem temporary_mem_paths {db name : String} (isDatabase : IsName db) (isName : IsName name) :
    (site.root.join db).join (Part.temporary (Part.schema.fileName name)) ∈
      ((Database.under site.root db).table name).paths := by
  have same : (((Database.under site.root db).table name).partPath .schema).addExtension
      Table.temporaryExtension =
        (site.root.join db).join (Part.temporary (Part.schema.fileName name)) :=
    Path.addExtension_join isDatabase.isFileName (Part.schema.isFileName isName)
  rw [← same]
  exact Table.temporary_mem_paths .schema

theorem isName_of_readable {statement : DatabaseStatement}
    (readable : (Statement.database statement).IsReadable) : IsName statement.name := by
  cases statement with
  | use name | create name | drop name => exact readable.isName

/-- A table statement that has been prepared ends on files as it does in memory. -/
theorem meets_execute (h : Represents site tree store) (sound : site.IsSoundStore store)
    {db : String} {tables : Tables} (found : store.lookup db = some tables)
    {statement : TableStatement} (readable : (Statement.table statement).IsReadable) {room : Prop}
    (fits : room → ∀ name ∈ statement.tables,
      EntryFits (site.root.join db) (Part.temporary (Part.schema.fileName name))) :
    site.Meets tree room
      (engine.execute tree session (.table (Database.under site.root db) statement))
      (do
        let (text, tables) ← Memory.runTable (Database.under site.root db) tables statement
        return (⟨text, session⟩, store.insert db tables)) := by
  have ran := (h.meets_run sound found readable fits).map fun text => (⟨text, session⟩ : Response)
  cases ended : Memory.runTable (Database.under site.root db) tables statement with
  | error e =>
    rw [ended] at ran
    exact ran
  | ok next =>
    rw [ended] at ran
    exact ran

/-- There is room for the files of every table that a statement with room names. -/
theorem fits_of_hasRoom (root : engine.root = site.root) {db : String} (isDatabase : IsName db)
    (working : session.workingDatabase = some db) {statement : TableStatement}
    (parsed : Statement.parse text = .ok (.table statement)) (room : engine.HasRoom session text) :
    ∀ name ∈ statement.tables,
      EntryFits (site.root.join db) (Part.temporary (Part.schema.fileName name)) := by
  intro name mem
  have isName := TableStatement.isName_of_mem_tables (Statement.isReadable_of_parse parsed) name mem
  have isTemporary := Part.isFileName_temporary (Part.schema.isFileName isName)
  refine Path.Fits.entry isTemporary (room _ parsed _ ?_)
  rw [Engine.footprint, working, root]
  refine List.mem_cons_of_mem _ (List.mem_flatMap.mpr ⟨name, mem, ?_⟩)
  exact temporary_mem_paths isDatabase isName

/-- Every statement of a session ends on files as it does in memory. -/
theorem meets_perform (h : Represents site tree store) (sound : site.IsSoundStore store)
    (root : engine.root = site.root) (valid : session.IsValid) :
    site.Meets tree (engine.HasRoom session text) (engine.perform tree session text)
      (Memory.perform engine.root store session text) := by
  unfold Memory.perform
  cases parsed : Statement.parse text with
  | error e =>
    have refused : engine.prepare tree session text = .error e := by
      rw [Engine.prepare, parsed, error_bind]
    rw [Engine.perform_of_error refused]
    exact .failed
  | ok statement =>
    have readable := Statement.isReadable_of_parse parsed
    rw [Outcome.ofResult_ok, ok_bind]
    cases statement with
    | database statement =>
      rw [Engine.perform_of_prepare (Engine.prepare_database parsed)]
      have isName := isName_of_readable readable
      refine (h.meets_runDatabase sound root isName fun room => ?_).ofResult
      refine Path.Fits.entry isName.isFileName (room _ parsed _ ?_)
      rw [← root]
      exact List.mem_singleton_self _
    | table statement =>
      dsimp only
      cases working : session.workingDatabase with
      | none =>
        rw [Engine.perform_of_error (Engine.prepare_of_no_database parsed working)]
        exact .failed
      | some db =>
        -- The working database may have been dropped by another session.
        have isDatabase := valid db working
        have prepared := @Engine.prepare_table engine tree session text statement db parsed working
        rw [root, h.find sound isDatabase] at prepared
        dsimp only
        cases lookup : store.lookup db with
        | none =>
          rw [if_neg (AList.lookup_eq_none.mp lookup), error_bind] at prepared
          rw [Engine.perform_of_error prepared]
          exact .failed
        | some tables =>
          rw [if_pos (mem_of_lookup lookup), ok_bind] at prepared
          rw [Engine.perform_of_prepare prepared, root]
          exact h.meets_execute sound lookup readable
            (fits_of_hasRoom root isDatabase working parsed)

end Represents

/-- A session that starts with a valid working database is left with one. -/
theorem Memory.isValid_of_perform {root : Path} {store next : Store} {session : Session}
    {text : String} {response : Response} (valid : session.IsValid)
    (h : perform root store session text = .ok (response, next)) : response.session.IsValid := by
  obtain ⟨statement, parsed, h⟩ := bind_eq_ok.mp h
  have readable := Statement.isReadable_of_parse (Outcome.ofResult_eq_ok.mp parsed)
  cases statement with
  | database statement =>
    replace h := Outcome.ofResult_eq_ok.mp h
    cases statement with
    | use name =>
      replace h : (if name ∈ store then _ else _) = _ := h
      split at h
      · cases h
        rintro db ⟨⟩
        exact readable.isName
      · cases h
    | create name =>
      replace h : (if name ∈ store then _ else _) = _ := h
      split at h
      · cases h
      · cases h
        exact valid
    | drop name =>
      replace h : (if name ∈ store then _ else _) = _ := h
      split at h
      · cases h
        show (Engine.afterDrop session name).IsValid
        unfold Engine.afterDrop
        split
        · exact nofun
        · exact valid
      · cases h
  | table statement =>
    dsimp only at h
    split at h
    · cases h
    · split at h
      · cases h
      · obtain ⟨result, -, h⟩ := bind_eq_ok.mp h
        cases h
        exact valid

/-! ## Runs -/

/-- Sessions that are served on files and in memory. -/
structure Site.Serves (site : Site) {σ : Type} (files : Served σ Tree)
    (memory : Served σ Store) : Prop where
  represents : Represents site files.data memory.data
  sound : site.IsSoundStore memory.data
  sessions : files.sessions = memory.sessions
  valid : ∀ who, (memory.sessions who).IsValid

/-- New sessions are served on what others have left. -/
theorem Site.Serves.restart {site : Site} {σ τ : Type} {files : Served σ Tree}
    {memory : Served σ Store} (h : site.Serves files memory) :
    site.Serves (Served.start files.data : Served τ Tree) (Served.start memory.data) :=
  ⟨h.represents, h.sound, rfl, fun _ => nofun⟩

namespace Served

variable {σ δ : Type} [DecidableEq σ]

variable {perform : δ → Session → String → Outcome Response × δ} {served : Served σ δ}
  {request : σ × String} {data : δ}

theorem step_fst : (step perform served request).1 =
    (perform served.data (served.sessions request.1) request.2).1 := by
  unfold step
  dsimp only
  split <;> rfl

theorem run_cons (rest : List (σ × String)) : run perform served (request :: rest) =
    ((step perform served request).1 :: (run perform (step perform served request).2 rest).1,
      (run perform (step perform served request).2 rest).2) := rfl

theorem step_of_ok {response : Response}
    (h : perform served.data (served.sessions request.1) request.2 = (.ok response, data)) :
    step perform served request = (.ok response,
      ⟨data, fun who => if who = request.1 then response.session else served.sessions who⟩) := by
  rw [step, h]

theorem step_of_error {failure : Failure}
    (h : perform served.data (served.sessions request.1) request.2 = (.error failure, data)) :
    step perform served request = (.error failure, ⟨data, served.sessions⟩) := by
  rw [step, h]

/-- Each request meets a condition on the session that it comes from. -/
def Throughout (perform : δ → Session → String → Outcome Response × δ)
    (condition : Session → String → Prop) : Served σ δ → List (σ × String) → Prop
  | _, [] => True
  | served, request :: rest =>
    condition (served.sessions request.1) request.2 ∧
      Throughout perform condition (step perform served request).2 rest

instance decidableThroughout {condition : Session → String → Prop}
    [∀ session text, Decidable (condition session text)] : (served : Served σ δ) →
      (requests : List (σ × String)) → Decidable (served.Throughout perform condition requests)
  | _, [] => isTrue trivial
  | served, request :: rest =>
    have : Decidable (Throughout perform condition (step perform served request).2 rest) :=
      decidableThroughout _ rest
    inferInstanceAs (Decidable (_ ∧ _))

theorem Throughout.of_isPrefix {condition : Session → String → Prop}
    {requests first : List (σ × String)} (h : served.Throughout perform condition requests)
    (isPrefix : first <+: requests) : served.Throughout perform condition first := by
  induction first generalizing served requests with
  | nil => trivial
  | cons request rest ih =>
    obtain ⟨more, same⟩ := isPrefix
    subst same
    exact ⟨h.1, ih h.2 (List.prefix_append rest more)⟩

end Served

namespace Site.Serves

variable {site : Site} {σ : Type} [DecidableEq σ] {files : Served σ Tree}
  {memory : Served σ Store} {engine : Engine}

/-- One request. Without room for its files it may fail on files only, and then it changes neither
side. -/
theorem step (h : site.Serves files memory) (root : engine.root = site.root)
    (request : σ × String) :
    ∃ next, site.Serves (Served.step engine.perform files request).2 next ∧
      (Served.step (Memory.step engine.root) memory request =
          ((Served.step engine.perform files request).1, next) ∨
        ¬ engine.HasRoom (files.sessions request.1) request.2 ∧ next = memory ∧
          ∃ failure, (Served.step engine.perform files request).1 = .error failure) := by
  have valid := h.valid request.1
  rw [← h.sessions] at valid
  have meets : site.Meets files.data
      (engine.HasRoom (files.sessions request.1) request.2)
      (engine.perform files.data (files.sessions request.1) request.2)
      (Memory.perform engine.root memory.data (files.sessions request.1) request.2) :=
    h.represents.meets_perform h.sound root valid
  -- A request that fails leaves everything as it was.
  have unchanged : site.Serves ⟨files.data, files.sessions⟩ memory :=
    ⟨h.represents, h.sound, h.sessions, h.valid⟩
  generalize onFiles : engine.perform files.data (files.sessions request.1) request.2 = ran at meets
  generalize inMemory :
    Memory.perform engine.root memory.data (files.sessions request.1) request.2 = result at meets
  cases meets with
  | noRoom long =>
    rw [Served.step_of_error onFiles]
    exact ⟨memory, unchanged, .inr ⟨long, rfl, _, rfl⟩⟩
  | failed =>
    rw [Served.step_of_error onFiles]
    refine ⟨memory, unchanged, .inl ?_⟩
    rw [Served.step_of_error]
    rw [Memory.step, ← h.sessions, inMemory]
  | @done response after store represents sound =>
    rw [Served.step_of_ok onFiles]
    refine ⟨⟨store, fun who => if who = request.1 then response.session else memory.sessions who⟩,
      ⟨represents, sound, ?_, fun who => ?_⟩, .inl ?_⟩
    · rw [h.sessions]
    · dsimp only
      split
      · exact Memory.isValid_of_perform valid inMemory
      · exact h.valid who
    · rw [Served.step_of_ok]
      rw [Memory.step, ← h.sessions, inMemory]

/-- After any run the tree represents some store. -/
theorem run (h : site.Serves files memory) (root : engine.root = site.root)
    (requests : List (σ × String)) :
    ∃ last, site.Serves (Served.run engine.perform files requests).2 last := by
  -- The store need not be that of a run in memory: a request without room changes neither.
  induction requests generalizing files memory with
  | nil => exact ⟨memory, h⟩
  | cons request rest ih =>
    obtain ⟨next, serves, -⟩ := h.step root request
    exact ih serves

/-- With room for all files, a run on files is the run in memory. -/
theorem run_eq (h : site.Serves files memory) (root : engine.root = site.root)
    (requests : List (σ × String))
    (room : files.Throughout engine.perform engine.HasRoom requests) :
    (Served.run engine.perform files requests).1 =
        (Served.run (Memory.step engine.root) memory requests).1 ∧
      site.Serves (Served.run engine.perform files requests).2
        (Served.run (Memory.step engine.root) memory requests).2 := by
  induction requests generalizing files memory with
  | nil => exact ⟨rfl, h⟩
  | cons request rest ih =>
    obtain ⟨next, serves, same⟩ := h.step root request
    obtain ⟨outcomes, serves⟩ := ih serves room.2
    have stepped := same.resolve_right fun noRoom => noRoom.1 room.1
    rw [Served.run, Served.run, stepped]
    exact ⟨congrArg _ outcomes, serves⟩

end Site.Serves

end TabStore
