import TabStore.Proofs.Engine.Refused
import TabStore.Proofs.Table.Footprint
import TabStore.Proofs.Table.Ids
import TabStore.Proofs.Table.Reread

/-!
# Isolated statements

A statement on tables changes the files of at most one table, and what it does depends on nothing
but the files of the tables that it names. This holds on every tree and for all names: a name may
well look like the name of a file of another table.

Results:
1. `TableStatement.table_of_effect`: a statement changes no table but its target;
2. `TableStatement.differsAt_run`, `TableStatement.endAlike_run`: a statement is seen at the paths
   of its target and depends on the paths of its tables;
3. `Engine.perform_isolated`: so no statement touches another table, another database or anything
   outside its database, and it ends alike in all trees with the same tables.
-/

namespace TabStore

open TabStore.Tree (AgreeOn EndAlike IsLocal exists_enters_of_isDirectory)

namespace Table

variable {table after next : Table}

/-- Another state of the same table. -/
structure SamePlace (after table : Table) : Prop where
  directory_eq : after.directory = table.directory
  name_eq : after.name = table.name

theorem SamePlace.trans (h : after.SamePlace next) (h' : next.SamePlace table) :
    after.SamePlace table :=
  ⟨h.directory_eq.trans h'.directory_eq, h.name_eq.trans h'.name_eq⟩

theorem samePlace_insert {values : List String} {id : Nat}
    (h : table.insert values = .ok (some (id, after))) : after.SamePlace table := by
  obtain ⟨-, -, -, -, rfl⟩ := insert_eq_some.mp h
  exact ⟨rfl, rfl⟩

theorem samePlace_update (mask : List Bool) (assignments : List Assignment) :
    (table.update mask assignments).2.SamePlace table := by
  unfold update
  split <;> exact ⟨rfl, rfl⟩

theorem samePlace_appendAttribute {name : String} (h : table.appendAttribute name = .ok after) :
    after.SamePlace table := by
  unfold appendAttribute at h
  split at h
  · cases h
  · cases h
    exact ⟨rfl, rfl⟩

theorem samePlace_removeAttribute (name : String) :
    (table.removeAttribute name).2.SamePlace table := by
  unfold removeAttribute
  split
  · exact ⟨rfl, rfl⟩
  · split <;> exact ⟨rfl, rfl⟩

end Table

namespace TableStatement

variable {tree left right : Tree} {home : Database} {statement : TableStatement}
  {table after : Table} {effect : Effect}

theorem samePlace_withAttributes {names : List String}
    (h : withAttributes table names = .ok after) : after.SamePlace table := by
  induction names generalizing table with
  | nil =>
    cases h
    exact ⟨rfl, rfl⟩
  | cons name rest ih =>
    obtain ⟨next, appended, h⟩ := bind_eq_ok.mp h
    exact (ih h).trans (Table.samePlace_appendAttribute appended)

theorem samePlace_alterTable {change : SchemaChange} (h : alterTable table change = .ok after) :
    after.SamePlace table := by
  cases change with
  | add name => exact Table.samePlace_appendAttribute h
  | drop name =>
    obtain ⟨⟨⟩, removed⟩ := changed_ok h
    have place := table.samePlace_removeAttribute name
    rwa [removed] at place

theorem samePlace_updateTable {assignments : List Assignment} {condition : Condition}
    (h : updateTable table assignments condition = .ok after) : after.SamePlace table := by
  obtain ⟨mask, -, h⟩ := bind_eq_ok.mp h
  obtain ⟨count, updated⟩ := changed_ok h
  have place := table.samePlace_update mask assignments
  rwa [updated] at place

theorem samePlace_deleteRows {condition : Condition} (h : deleteRows table condition = .ok after) :
    after.SamePlace table := by
  obtain ⟨mask, -, h⟩ := bind_eq_ok.mp h
  cases h
  exact ⟨rfl, rfl⟩

/-! ## What a statement may change -/

/-- The table that a statement creates, removes or changes. -/
def target? : TableStatement → Option String
  | .create table _ | .drop table | .alter table _ | .insert table _ | .update table ..
  | .delete table _ => some table
  | .select .. | .join .. => none

/-- The table that is stored, created or removed. -/
def Effect.table? : Effect → Option Table
  | .answer _ | .panic => none
  | .store table | .create table | .remove table => some table

def Effect.paths (effect : Effect) : List Path :=
  match effect.table? with
  | none => []
  | some table => table.paths

/-- The paths of the table that a statement creates, removes or changes. -/
def targetPaths (home : Database) (statement : TableStatement) : List Path :=
  match statement.target? with
  | none => []
  | some name => (home.table name).paths

/-- The paths of all tables that a statement names. -/
def namedPaths (home : Database) (statement : TableStatement) : List Path :=
  statement.tables.flatMap fun name => (home.table name).paths

theorem target_mem_tables {name : String} (h : statement.target? = some name) :
    name ∈ statement.tables := by
  cases statement <;> cases h <;> exact List.mem_singleton_self name

theorem targetPaths_subset (home : Database) (statement : TableStatement) :
    statement.targetPaths home ⊆ statement.namedPaths home := by
  intro path mem
  unfold targetPaths at mem
  split at mem
  · cases mem
  · next name target => exact List.mem_flatMap.mpr ⟨name, target_mem_tables target, mem⟩

theorem table_of_effect (computed : statement.effect tree home = .ok effect)
    (changes : effect.table? = some table) :
    ∃ name, statement.target? = some name ∧ table.SamePlace (home.table name) := by
  have loaded : ∀ {name : String} {before : Table}, home.load tree name = .ok before →
      before.SamePlace (home.table name) := fun load =>
    ⟨(Table.load_eq_ok.mp load).1, (Table.load_eq_ok.mp load).2.1⟩
  cases statement with
  | create name attributes =>
    obtain ⟨after, added, rfl⟩ := map_eq_ok.mp computed
    cases changes
    exact ⟨name, rfl, samePlace_withAttributes added⟩
  | drop name =>
    cases computed
    cases changes
    exact ⟨name, rfl, rfl, rfl⟩
  | alter name change =>
    obtain ⟨before, load, computed⟩ := bind_eq_ok.mp computed
    obtain ⟨after, altered, rfl⟩ := map_eq_ok.mp computed
    cases changes
    exact ⟨name, rfl, (samePlace_alterTable altered).trans (loaded load)⟩
  | insert name values =>
    obtain ⟨before, load, ⟨id, after, inserted, rfl⟩ | ⟨-, rfl⟩⟩ := effect_insert_eq_ok.mp computed
    · cases changes
      exact ⟨name, rfl, (Table.samePlace_insert inserted).trans (loaded load)⟩
    · cases changes
  | select name columns condition =>
    obtain ⟨before, load, computed⟩ := bind_eq_ok.mp computed
    obtain ⟨text, -, rfl⟩ := map_eq_ok.mp computed
    cases changes
  | update name assignments condition =>
    obtain ⟨before, load, computed⟩ := bind_eq_ok.mp computed
    obtain ⟨after, updated, rfl⟩ := map_eq_ok.mp computed
    cases changes
    exact ⟨name, rfl, (samePlace_updateTable updated).trans (loaded load)⟩
  | delete name condition =>
    obtain ⟨before, load, computed⟩ := bind_eq_ok.mp computed
    obtain ⟨after, deleted, rfl⟩ := map_eq_ok.mp computed
    cases changes
    exact ⟨name, rfl, (samePlace_deleteRows deleted).trans (loaded load)⟩
  | join primary secondary =>
    obtain ⟨before, load, computed⟩ := bind_eq_ok.mp computed
    obtain ⟨other, load', computed⟩ := bind_eq_ok.mp computed
    obtain ⟨text, -, rfl⟩ := map_eq_ok.mp computed
    cases changes

theorem paths_of_effect (computed : statement.effect tree home = .ok effect) :
    effect.paths ⊆ statement.targetPaths home := by
  unfold Effect.paths
  cases changes : effect.table? with
  | none => exact List.nil_subset _
  | some table =>
    obtain ⟨name, target, place⟩ := table_of_effect computed changes
    have samePaths : table.paths = (Table.new table.directory table.name).paths := rfl
    dsimp only
    rw [targetPaths, target, samePaths, place.directory_eq, place.name_eq]
    exact List.Subset.refl _

/-! ## What a statement does -/

/-- What a statement is to do is found out from the paths of the tables that it names. -/
theorem effect_eq (agree : AgreeOn (statement.namedPaths home) left right) :
    statement.effect left home = statement.effect right home := by
  have load : ∀ name ∈ statement.tables, home.load left name = home.load right name :=
    fun name mem => Table.load_eq (agree.mono fun path here => List.mem_flatMap.mpr ⟨name, mem, here⟩)
  cases statement with
  | create | drop => rfl
  | alter name _ | insert name _ | select name _ _ | update name _ _ | delete name _ =>
    simp only [effect, load name List.mem_cons_self]
  | join primary secondary =>
    have memSecondary : secondary.table ∈ (join primary secondary).tables :=
      List.mem_cons_of_mem _ List.mem_cons_self
    simp only [effect, load primary.table List.mem_cons_self, load secondary.table memSecondary]

theorem isLocal_silently {paths : List Path} {step : Tree → Result Unit × Tree}
    (h : IsLocal paths step) : IsLocal paths fun tree => perform.silently (step tree) :=
  h.map fun outcome => Outcome.ofResult (outcome.map fun _ => none)

theorem isLocal_perform (effect : Effect) :
    IsLocal effect.paths fun tree => perform tree effect := by
  cases effect with
  | answer text => exact .same [] _
  | store table =>
    simp only [perform]
    exact isLocal_silently table.isLocal_persist
  | create table =>
    simp only [perform]
    exact isLocal_silently table.isLocal_create
  | remove table =>
    simp only [perform]
    exact isLocal_silently table.isLocal_removeFiles
  | panic => exact .same [] _

/-- A statement is seen at the paths of its target only. -/
theorem differsAt_run (tree : Tree) (home : Database) (statement : TableStatement) :
    tree.DiffersAt (run tree home statement).2 (statement.targetPaths home) := by
  unfold run
  split
  · next effect computed =>
    exact ((isLocal_perform effect).differsAt tree).mono (paths_of_effect computed)
  · exact .refl tree _

/-- A statement does the same in trees that agree on the paths of the tables that it names. -/
theorem endAlike_run (agree : AgreeOn (statement.namedPaths home) left right) :
    EndAlike (statement.namedPaths home) (run left home statement) (run right home statement) := by
  unfold run
  rw [effect_eq agree]
  cases computed : statement.effect right home with
  | error e => exact ⟨rfl, agree⟩
  | ok effect =>
    exact (isLocal_perform effect).endAlike
      (List.Subset.trans (paths_of_effect computed) (targetPaths_subset home statement)) agree

end TableStatement

/-! ## Sessions -/

namespace Engine

open TableStatement

variable {engine : Engine} {tree other : Tree} {session : Session} {text db : String}
  {statement : TableStatement}

/-- A session runs statements on the tables of its working database. -/
theorem perform_of_isDirectory (working : session.workingDatabase = some db)
    (parsed : Statement.parse text = .ok (.table statement))
    (present : tree.isDirectory (Database.under engine.root db).path = true) :
    engine.perform tree session text =
      ((statement.run tree (Database.under engine.root db)).1.map fun text => ⟨text, session⟩,
        (statement.run tree (Database.under engine.root db)).2) := by
  have prepared : engine.prepare tree session text =
      .ok (.table (Database.under engine.root db) statement) := by
    rw [prepare, parsed, ok_bind]
    dsimp only
    rw [working]
    dsimp only
    rw [Database.find, Database.isPresent, if_pos present, ok_bind, pure_eq_ok]
  rw [perform, prepared]
  rfl

theorem perform_of_not_isDirectory (working : session.workingDatabase = some db)
    (parsed : Statement.parse text = .ok (.table statement))
    (absent : tree.isDirectory (Database.under engine.root db).path = false) :
    engine.perform tree session text = (.error (.error (.databaseNotFound db)), tree) := by
  have failed : engine.prepare tree session text = .error (.databaseNotFound db) := by
    rw [prepare, parsed, ok_bind]
    dsimp only
    rw [working]
    dsimp only
    rw [Database.find, Database.isPresent, absent, if_neg Bool.false_ne_true, error_bind]
  rw [perform, failed]

theorem exists_target_of_mem {home : Database} {path : Path}
    (mem : path ∈ statement.targetPaths home) :
    ∃ name, statement.target? = some name ∧ path ∈ (home.table name).paths := by
  unfold targetPaths at mem
  split at mem
  · cases mem
  · next name target => exact ⟨name, target, mem⟩

/-- A table statement is seen at the paths of its target only, also where it fails. -/
theorem differsAt_perform (working : session.workingDatabase = some db)
    (parsed : Statement.parse text = .ok (.table statement)) :
    tree.DiffersAt (engine.perform tree session text).2
      (statement.targetPaths (Database.under engine.root db)) := by
  cases present : tree.isDirectory (Database.under engine.root db).path with
  | false =>
    rw [perform_of_not_isDirectory working parsed present]
    exact .refl tree _
  | true =>
    rw [perform_of_isDirectory working parsed present]
    exact differsAt_run tree _ statement

/-- A statement on tables is isolated. What is found under a path changes only if the path leads
where one of the six paths of its target leads, and nothing changes outside the directory of its
database. The paths of any other table, in this database or in another one, are different paths and
keep what is found there. In all trees that agree on whether the database exists and on what is
found under the paths of the tables that it names, it ends alike and leaves the same there. -/
theorem perform_isolated (working : session.workingDatabase = some db)
    (parsed : Statement.parse text = .ok (.table statement)) :
    (∀ path, (engine.perform tree session text).2.found? path ≠ tree.found? path →
      ∃ own ∈ statement.targetPaths (Database.under engine.root db), tree.LeadAlike path own) ∧
    (∀ home, tree.resolve (Database.under engine.root db).path = .ok home →
      tree.AgreesOutside home (engine.perform tree session text).2) ∧
    (IsName db → ∀ db' name', IsName db' → IsName name' →
      db ≠ db' ∨ statement.target? ≠ some name' →
      ∀ path ∈ ((Database.under engine.root db').table name').paths,
        path ∉ statement.targetPaths (Database.under engine.root db) ∧
        (engine.perform tree session text).2.found? path = tree.found? path) ∧
    ∀ other : Tree, other.isDirectory (Database.under engine.root db).path =
        tree.isDirectory (Database.under engine.root db).path →
      (∀ path ∈ statement.namedPaths (Database.under engine.root db),
        other.found? path = tree.found? path) →
      (engine.perform other session text).1 = (engine.perform tree session text).1 ∧
      ∀ path ∈ statement.namedPaths (Database.under engine.root db),
        (engine.perform other session text).2.found? path =
          (engine.perform tree session text).2.found? path := by
  have isName := isName_of_mem_tables (Statement.isReadable_of_parse parsed)
  have differs : tree.DiffersAt (engine.perform tree session text).2
      (statement.targetPaths (Database.under engine.root db)) := differsAt_perform working parsed
  refine ⟨fun path => differs.alike_of_ne, fun home resolved place outside => ?_,
    fun isDatabase db' name' isDatabase' isName' apart path mem => ?_,
    fun other sameDirectory same => ?_⟩
  · cases present : tree.isDirectory (Database.under engine.root db).path with
    | false => rw [perform_of_not_isDirectory working parsed present]
    | true =>
      obtain ⟨home', resolved', enters⟩ := exists_enters_of_isDirectory present
      cases resolved.symm.trans resolved'
      by_contra changed
      obtain ⟨path, mem, resolvedPath⟩ := differs.places place changed
      obtain ⟨name, target, mem⟩ := exists_target_of_mem mem
      obtain ⟨entry, rfl⟩ := Table.exists_entry_of_mem_paths
        (isName name (target_mem_tables target)) enters mem resolvedPath
      exact outside Location.isAbove_child
  · have others : ∀ own ∈ statement.targetPaths (Database.under engine.root db),
        own ≠ path ∧ ∀ tree : Tree, ¬ tree.LeadAlike own path := by
      intro own memOwn
      obtain ⟨name, target, memOwn⟩ := exists_target_of_mem memOwn
      refine Table.apart_of_mem_paths isDatabase isDatabase'
        (isName name (target_mem_tables target)) isName' (apart.imp_right ?_) memOwn mem
      rintro otherTarget rfl
      exact otherTarget target
    refine ⟨fun own => (others path own).1 rfl, ?_⟩
    by_contra changed
    obtain ⟨own, memOwn, location, resolved, resolvedOwn⟩ := differs.alike_of_ne changed
    exact (others own memOwn).2 tree ⟨location, resolvedOwn, resolved⟩
  · cases present : tree.isDirectory (Database.under engine.root db).path with
    | false =>
      rw [perform_of_not_isDirectory working parsed present,
        perform_of_not_isDirectory working parsed (sameDirectory.trans present)]
      exact ⟨rfl, same⟩
    | true =>
      have presentOther := sameDirectory.trans present
      obtain ⟨home, -, enters⟩ := exists_enters_of_isDirectory present
      obtain ⟨home', -, entersOther⟩ := exists_enters_of_isDirectory presentOther
      cases enters.unique entersOther
      have ended := endAlike_run (Table.agreeOn_of_enters isName entersOther enters same)
      rw [perform_of_isDirectory working parsed present,
        perform_of_isDirectory working parsed presentOther]
      refine ⟨congrArg (Except.map _) ended.outcome, fun path mem => ?_⟩
      exact congrArg Except.toOption (ended.agree.entry_eq mem)

/-- A database `x` with the tables `t` and `t.txt`, both without rows. -/
def lookalikeTables : Tree :=
  let database := ((Location.start (.above 0)).child "d").child "x"
  ⟨[((Location.start (.above 0)).child "d", .directory), (database, .directory),
    (database.child "t.txt", .file (.text "id\nn\n")),
    (database.child "t.tsv", .file (.text "")),
    (database.child "t.txt.txt", .file (.text "id\n")),
    (database.child "t.txt.tsv", .file (.text ""))]⟩

/-- A row is added to `t`; of the table that is named like its schema file, nothing changes. -/
theorem perform_isolated_lookalike :
    (perform ⟨⟨"d"⟩⟩ lookalikeTables ⟨some "x"⟩ "INSERT INTO t VALUES (7);").2.readText
      ⟨"d/x/t.tsv"⟩ = .ok "1\t7\n" ∧
    ∀ path ∈ ((Database.under ⟨"d"⟩ "x").table "t.txt").paths,
      (perform ⟨⟨"d"⟩⟩ lookalikeTables ⟨some "x"⟩ "INSERT INTO t VALUES (7);").2.found? path =
        lookalikeTables.found? path := by
  have parsed : Statement.parse "INSERT INTO t VALUES (7);" =
      .ok (.table (.insert "t" ["7"])) := by
    decide +kernel
  have isName : ∀ name ∈ ["x", "t.txt"], IsName name := by
    intro name mem
    rcases List.mem_cons.mp mem with rfl | mem
    · rfl
    · rw [List.mem_singleton.mp mem]
      rfl
  refine ⟨by decide +kernel, fun path mem => ?_⟩
  have isolated := @perform_isolated ⟨⟨"d"⟩⟩ lookalikeTables ⟨some "x"⟩ "INSERT INTO t VALUES (7);"
    "x" (.insert "t" ["7"]) rfl parsed
  exact (isolated.2.2.1 (isName _ (by simp)) "x" "t.txt" (isName _ (by simp)) (isName _ (by simp))
    (.inr (by decide)) path mem).2

end Engine

end TabStore
