import TabStore.Proofs.Engine.Isolated
import TabStore.Proofs.Memory.Listed
import TabStore.Proofs.Statement.Where
import TabStore.Proofs.Table.Selected

/-!
# Selections on files

A condition selects the same rows of a stored table for SELECT, DELETE and UPDATE, and what SELECT
shows of them is read back from its text.

Results:
1. `Database.Holds.exists_text`, `Database.Holds.run_change`: statements on a table that is held;
2. `Engine.perform_shown`, `Engine.perform_changed`: the same for a text of which the condition may
   not have been read;
3. `Engine.fields_shown`: the text of a selection is read back as what it is to show;
4. `Engine.selections_agree`: SELECT, DELETE and UPDATE on a table that is listed after a run.
-/

namespace TabStore

/-! ## Statements on one table -/

namespace Database.Holds

variable {home : Database} {tree : Tree} {name : String} {table : Table}
  (held : home.Holds tree name table)

include held

theorem run_select (columns : Projection) (condition : Option Condition) :
    TableStatement.run tree home (.select name columns condition) =
      (.ofResult ((TableStatement.selectText table columns condition).map some), tree) := by
  have effect : (TableStatement.select name columns condition).effect tree home =
      .answer <$> TableStatement.selectText table columns condition := by
    rw [TableStatement.effect, held.loaded, ok_bind]
  cases shown : TableStatement.selectText table columns condition with
  | error e =>
    rw [shown, map_error] at effect
    exact TableStatement.run_of_error effect
  | ok text =>
    rw [shown, map_ok] at effect
    exact TableStatement.run_of_effect effect

/-- The fields of the text that a selection answers with are what it is to show. -/
theorem exists_text {columns : Projection} {condition : Option Condition}
    (admits : table.Admits columns condition) : ∃ text,
      TableStatement.run tree home (.select name columns condition) = (.ok (some text), tree) ∧
      (Text.fields text).map (·.map some) = table.shown columns condition ++ [[some ""]] := by
  obtain ⟨text, found, fields⟩ := TableStatement.fields_selectText held.sound admits
  refine ⟨text, ?_, fields⟩
  rw [held.run_select, found]
  rfl

/-- A statement that fails to change a table, and one that changes it. -/
theorem run_change {statement : TableStatement} (change : Table → Result Table)
    (onFiles : statement.effect tree home = do
      let table ← home.load tree name
      .store <$> change table)
    (follows : ∀ after, change table = .ok after → after.Follows table table.lastId) :
    (∀ e, change table = .error e → statement.run tree home = (.error (.error e), tree)) ∧
    ∀ after, change table = .ok after →
      ∃ next, statement.run tree home = (.ok none, next) ∧ home.Stores next name after := by
  rw [held.loaded, ok_bind] at onFiles
  refine ⟨fun e failed => ?_, fun after changed => ?_⟩
  · rw [failed, map_error] at onFiles
    exact TableStatement.run_of_error onFiles
  · rw [changed, map_ok] at onFiles
    obtain ⟨next, persisted, stores⟩ := held.persists after (follows after changed)
    refine ⟨next, ?_, stores⟩
    rw [TableStatement.run_of_effect onFiles, TableStatement.perform, persisted]
    rfl

end Database.Holds

/-! ## Statements of a session -/

namespace Engine

variable {σ : Type} {engine : Engine} {root : Path} {start tree : Tree} {db name : String}

section Read

variable {text : String} {table : Table} {read : Result Condition}

/-- A selection shows what it shows of the table with the condition that was read. -/
theorem perform_shown (held : (Database.under engine.root db).Holds tree name table)
    (parsed : Statement.parse text =
      read.map fun condition => .table (.select name .all (some condition))) :
    engine.perform tree ⟨some db⟩ text =
      (.ofResult ((do TableStatement.selectText table .all (some (← read))).map
        fun shown => ⟨some shown, ⟨some db⟩⟩), tree) := by
  cases read with
  | error e => exact perform_of_error (by rw [prepare, parsed]; rfl)
  | ok condition =>
    rw [perform_of_isDirectory rfl parsed held.isDirectory, held.run_select, ok_bind]
    cases TableStatement.selectText table .all (some condition) <;> rfl

/-- A change stores what it makes of the table with the condition that was read. -/
theorem perform_changed (held : (Database.under engine.root db).Holds tree name table)
    {make : Condition → TableStatement} (change : Condition → Table → Result Table)
    (parsed : Statement.parse text = read.map fun condition => .table (make condition))
    (onFiles : ∀ condition, (make condition).effect tree (Database.under engine.root db) = do
      let table ← (Database.under engine.root db).load tree name
      .store <$> change condition table)
    (follows : ∀ condition after, change condition table = .ok after →
      after.Follows table table.lastId) :
    (∀ e, (do change (← read) table) = .error e →
      engine.perform tree ⟨some db⟩ text = (.error (.error e), tree)) ∧
    ∀ after, (do change (← read) table) = .ok after →
      ∃ next, engine.perform tree ⟨some db⟩ text = (.ok ⟨none, ⟨some db⟩⟩, next) ∧
        (Database.under engine.root db).Stores next name after := by
  cases read with
  | error e =>
    refine ⟨?_, nofun⟩
    rintro _ ⟨⟩
    exact perform_of_error (by rw [prepare, parsed]; rfl)
  | ok condition =>
    obtain ⟨fails, stores⟩ := held.run_change (change condition) (onFiles condition)
      (follows condition)
    rw [perform_of_isDirectory rfl parsed held.isDirectory]
    refine ⟨fun e failed => ?_, fun after changed => ?_⟩
    · rw [fails e failed]
      rfl
    · obtain ⟨next, ran, stored⟩ := stores after changed
      rw [ran]
      exact ⟨next, rfl, stored⟩

end Read

/-- The text of a selection from a table that is listed after a run is read back: its fields are the
names of the attributes that were asked for, in that order, and then line by line the cells under
these names of each row that satisfies the condition. So selections with the same text, now or after
any other run, show the same names and the same cells of as many rows. -/
theorem fields_shown [DecidableEq σ] (opened : openAt root start = (.ok engine, tree))
    (empty : tree.IsEmptyAt root) (requests : List (σ × String)) :
    let reached := fun requests : List (σ × String) =>
      (Served.run engine.perform (.start tree) requests).2.data
    let select := fun (tree : Tree) db name columns condition =>
      TableStatement.run tree (Database.under root db) (.select name columns condition)
    (∀ db name, (reached requests).ListsTable root db name → ∃ table : Table,
      (Database.under root db).load (reached requests) name = .ok table ∧
      ∀ columns condition, table.Admits columns condition → ∃ text,
        select (reached requests) db name columns condition = (.ok (some text), reached requests) ∧
        (Text.fields text).map (·.map some) = table.shown columns condition ++ [[some ""]] ∧
        ∀ statement, Statement.parse statement = .ok (.table (.select name columns condition)) →
          engine.perform (reached requests) ⟨some db⟩ statement =
            (.ok ⟨some text, ⟨some db⟩⟩, reached requests)) ∧
    ∀ (others : List (σ × String)) db name db' name',
      (reached requests).ListsTable root db name → (reached others).ListsTable root db' name' →
      ∀ table table' : Table, (Database.under root db).load (reached requests) name = .ok table →
        (Database.under root db').load (reached others) name' = .ok table' →
        ∀ columns columns' condition condition', table.Admits columns condition →
          table'.Admits columns' condition' →
          (select (reached requests) db name columns condition).1 =
            (select (reached others) db' name' columns' condition').1 →
          table.shown columns condition = table'.shown columns' condition' := by
  have holds := @exists_holds σ _ engine root start tree opened empty
  have rootEq := root_eq_of_openAt opened
  subst rootEq
  intro reached select
  refine ⟨fun db name lists => ?_, ?_⟩
  · obtain ⟨-, table, held⟩ := holds requests lists
    refine ⟨table, held.loaded, fun columns condition admits => ?_⟩
    obtain ⟨text, ran, fields⟩ := held.exists_text admits
    refine ⟨text, ran, fields, fun statement parsed => ?_⟩
    rw [perform_of_isDirectory rfl parsed held.isDirectory, ran]
    rfl
  · intro others db name db' name' lists lists' table table' loaded loaded' columns columns'
      condition condition' admits admits' same
    obtain ⟨-, first, held⟩ := holds requests lists
    obtain ⟨-, second, held'⟩ := holds others lists'
    cases held.loaded.symm.trans loaded
    cases held'.loaded.symm.trans loaded'
    obtain ⟨text, ran, fields⟩ := held.exists_text admits
    obtain ⟨text', ran', fields'⟩ := held'.exists_text admits'
    have sameText : text = text' := by
      have outcomes := (congrArg Prod.fst ran).symm.trans (same.trans (congrArg Prod.fst ran'))
      exact Option.some.inj (Except.ok.inj outcomes)
    subst sameText
    exact List.append_cancel_right (fields.symm.trans fields')

/-- One column is asked for twice, and a cell has been filled in. -/
theorem fields_shown_of_repeated_column :
    let requests : List (Nat × String) :=
      [(0, "CREATE DATABASE a;"), (0, "USE a;"), (0, "CREATE TABLE t (x);"),
        (0, "INSERT INTO t VALUES ('u v');"), (0, "ALTER TABLE t ADD y;")]
    let reached := (Served.run (perform ⟨⟨"db"⟩⟩) (.start (.ofDirectory "db")) requests).2.data
    openAt ⟨"db"⟩ .empty = (.ok ⟨⟨"db"⟩⟩, .ofDirectory "db") ∧
      (Tree.ofDirectory "db").IsEmptyAt ⟨"db"⟩ ∧
      reached.ListsTable ⟨"db"⟩ "a" "t" ∧ ∃ text,
        TableStatement.run reached (Database.under ⟨"db"⟩ "a")
          (.select "t" (.columns ["y", "x", "y"]) none) = (.ok (some text), reached) ∧
        (Text.fields text).map (·.map some) =
          [[some "y", some "x", some "y"], [some "''", some "'u v'", some "''"], [some ""]] := by
  intro requests
  dsimp only
  have isFileName : IsFileName "db" := by constructor <;> decide
  have short : "db".utf8ByteSize ≤ Tree.nameLimit := by decide
  have opened := openAt_mk isFileName short
  have empty := Tree.isEmptyAt_ofDirectory isFileName short
  have decoded := (fields_shown opened empty requests).1
  dsimp only at decoded
  let table : Table := ⟨"t", Path.join ⟨"db"⟩ "a", ["id", "x", "y"], [⟨["1", "'u v'", "''"]⟩], 1⟩
  have listed : (Served.run (perform ⟨⟨"db"⟩⟩) (.start (.ofDirectory "db")) requests).2.data.list
        ⟨"db"⟩ = .ok ["a"] ∧
      (Database.under ⟨"db"⟩ "a").tables
        (Served.run (perform ⟨⟨"db"⟩⟩) (.start (.ofDirectory "db")) requests).2.data = .ok ["t"] ∧
      (Database.under ⟨"db"⟩ "a").load
        (Served.run (perform ⟨⟨"db"⟩⟩) (.start (.ofDirectory "db")) requests).2.data "t" =
          .ok table := by decide +kernel
  generalize (Served.run (perform ⟨⟨"db"⟩⟩) (.start (.ofDirectory "db")) requests).2.data =
    reached at decoded listed ⊢
  obtain ⟨databases, tables, loaded⟩ := listed
  have lists : reached.ListsTable ⟨"db"⟩ "a" "t" :=
    ⟨⟨["a"], databases, List.mem_singleton_self _⟩, ⟨["t"], tables, List.mem_singleton_self _⟩⟩
  have admits : table.Admits (.columns ["y", "x", "y"]) none := ⟨by decide, by decide, nofun⟩
  obtain ⟨_, isTable, shows⟩ := decoded "a" "t" lists
  cases loaded.symm.trans isTable
  obtain ⟨text, ran, fields, -⟩ := shows _ none admits
  exact ⟨opened, empty, lists, text, ran, fields⟩

/-- SELECT, DELETE and UPDATE with the same condition agree on a table that is listed after a run.
Where SELECT fails, the others fail with the same error. Otherwise there is one choice of rows:
SELECT shows the chosen rows, DELETE leaves the other ones, and an UPDATE that succeeds assigns its
values in the chosen rows and leaves everything else as it is. -/
theorem selections_agree [DecidableEq σ] (opened : openAt root start = (.ok engine, tree))
    (empty : tree.IsEmptyAt root) (requests : List (σ × String))
    (lists : (Served.run engine.perform (.start tree) requests).2.data.ListsTable root db name)
    (condition : String) :
    let reached := (Served.run engine.perform (.start tree) requests).2.data
    let home := Database.under root db
    let select := engine.perform reached ⟨some db⟩ (Statement.selectWhere name condition)
    let delete := engine.perform reached ⟨some db⟩ (Statement.deleteWhere name condition)
    let update := fun assignments =>
      engine.perform reached ⟨some db⟩ (Statement.updateWhere name assignments condition)
    (∀ e, select.1 = .error e → delete.1 = .error e ∧ ∀ assignments,
      Statement.IsClauseAssignments assignments → (update assignments).1 = .error e) ∧
    ∀ response, select.1 = .ok response → ∃ (table : Table) (chosen : Row → Bool),
      home.load reached name = .ok table ∧
      response = ⟨some (Text.unlines ("\t".intercalate table.attributes ::
        (table.rows.filter chosen).map Row.line)), ⟨some db⟩⟩ ∧
      (delete.1 = .ok ⟨none, ⟨some db⟩⟩ ∧ home.Stores delete.2 name { table with
        rows := table.rows.filter fun row => !chosen row }) ∧
      ∀ assignments, Statement.IsClauseAssignments assignments →
        ∀ done, (update assignments).1 = .ok done →
          (∀ a ∈ assignments, a.target ∈ table.attributes) ∧
          home.Stores (update assignments).2 name { table with
            rows := table.rows.map fun row =>
              if chosen row then row.assigned table.attributes assignments else row } := by
  obtain ⟨isClauseName, table, held⟩ := exists_holds opened empty requests lists
  have rootEq := root_eq_of_openAt opened
  subst rootEq
  clear lists
  generalize (Served.run engine.perform (.start tree) requests).2.data = reached at held ⊢
  intro _ home select delete update
  obtain ⟨read, selected, deleted, updated⟩ := Statement.exists_parse_where isClauseName condition
  have shown : select = _ := perform_shown held selected
  obtain ⟨notDeleted, isDeleted⟩ := perform_changed held (fun condition table =>
    TableStatement.deleteRows table condition) deleted (fun _ => rfl)
    fun _ _ => TableStatement.follows_deleteRows held.sound
  have updates := fun assignments (clause : Statement.IsClauseAssignments assignments) =>
    perform_changed held (fun condition table =>
      TableStatement.updateTable table assignments condition) (updated assignments clause)
      (fun _ => rfl) fun _ _ => TableStatement.follows_updateTable held.sound fun a mem =>
        (clause.sound a mem).isLiteral
  rcases TableStatement.fail_or_choose held.sound read with
    ⟨e, notShown, notLeft, notAssigned⟩ | ⟨chosen, shows, leaves, assigns⟩
  · rw [notShown] at shown
    rw [shown]
    refine ⟨?_, nofun⟩
    rintro _ ⟨⟩
    refine ⟨congrArg Prod.fst (notDeleted e notLeft), fun assignments clause => ?_⟩
    exact congrArg Prod.fst ((updates assignments clause).1 e (notAssigned assignments))
  · rw [shows] at shown
    rw [shown]
    refine ⟨nofun, ?_⟩
    rintro _ ⟨⟩
    refine ⟨table, chosen, held.loaded, rfl, ?_, fun assignments clause done ok => ?_⟩
    · obtain ⟨next, ran, stores⟩ := isDeleted _ leaves
      rw [show delete = _ from ran]
      exact ⟨rfl, stores⟩
    · obtain ⟨fails, stored⟩ := updates assignments clause
      cases changed : (do TableStatement.updateTable table assignments (← read)) with
      | error e =>
        rw [show update assignments = _ from fails e changed] at ok
        cases ok
      | ok after =>
        obtain ⟨next, ran, stores⟩ := stored after changed
        obtain ⟨present, rfl⟩ := assigns assignments after clause.nodup changed
        rw [show update assignments = _ from ran]
        exact ⟨present, stores⟩

/-- A condition selects the second of two rows. -/
theorem selections_agree_of_two_rows :
    let requests : List (Nat × String) :=
      [(0, "CREATE DATABASE a;"), (0, "USE a;"), (0, "CREATE TABLE t (x,y);"),
        (0, "INSERT INTO t VALUES (7,'v');"), (0, "INSERT INTO t VALUES (8,'w');")]
    let reached := (Served.run (perform ⟨⟨"db"⟩⟩) (.start (.ofDirectory "db")) requests).2.data
    let home := Database.under ⟨"db"⟩ "a"
    let delete := perform ⟨⟨"db"⟩⟩ reached ⟨some "a"⟩ (Statement.deleteWhere "t" "(x>7)and(y='w')")
    let update := fun assignments =>
      perform ⟨⟨"db"⟩⟩ reached ⟨some "a"⟩ (Statement.updateWhere "t" assignments "(x>7)and(y='w')")
    openAt ⟨"db"⟩ .empty = (.ok ⟨⟨"db"⟩⟩, .ofDirectory "db") ∧
      (Tree.ofDirectory "db").IsEmptyAt ⟨"db"⟩ ∧
      reached.ListsTable ⟨"db"⟩ "a" "t" ∧
      ∃ (table : Table) (chosen : Row → Bool), home.load reached "t" = .ok table ∧
        (⟨some "id\tx\ty\n2\t8\t'w'\n", ⟨some "a"⟩⟩ : Response) =
          ⟨some (Text.unlines ("\t".intercalate table.attributes ::
            (table.rows.filter chosen).map Row.line)), ⟨some "a"⟩⟩ ∧
        (delete.1 = .ok ⟨none, ⟨some "a"⟩⟩ ∧ home.Stores delete.2 "t" { table with
          rows := table.rows.filter fun row => !chosen row }) ∧
        ∀ assignments, Statement.IsClauseAssignments assignments →
          ∀ done, (update assignments).1 = .ok done →
            (∀ a ∈ assignments, a.target ∈ table.attributes) ∧
            home.Stores (update assignments).2 "t" { table with
              rows := table.rows.map fun row =>
                if chosen row then row.assigned table.attributes assignments else row } := by
  intro requests
  dsimp only
  have isFileName : IsFileName "db" := by constructor <;> decide
  have short : "db".utf8ByteSize ≤ Tree.nameLimit := by decide
  have opened := openAt_mk isFileName short
  have empty := Tree.isEmptyAt_ofDirectory isFileName short
  have listed : (Served.run (perform ⟨⟨"db"⟩⟩) (.start (.ofDirectory "db")) requests).2.data.list
        ⟨"db"⟩ = .ok ["a"] ∧
      (Database.under ⟨"db"⟩ "a").tables
        (Served.run (perform ⟨⟨"db"⟩⟩) (.start (.ofDirectory "db")) requests).2.data = .ok ["t"] ∧
      (perform ⟨⟨"db"⟩⟩
        (Served.run (perform ⟨⟨"db"⟩⟩) (.start (.ofDirectory "db")) requests).2.data ⟨some "a"⟩
        (Statement.selectWhere "t" "(x>7)and(y='w')")).1 =
          .ok ⟨some "id\tx\ty\n2\t8\t'w'\n", ⟨some "a"⟩⟩ := by decide +kernel
  obtain ⟨databases, tables, answered⟩ := listed
  have lists : Tree.ListsTable
      (Served.run (perform ⟨⟨"db"⟩⟩) (.start (.ofDirectory "db")) requests).2.data ⟨"db"⟩ "a" "t" :=
    ⟨⟨["a"], databases, List.mem_singleton_self _⟩, ⟨["t"], tables, List.mem_singleton_self _⟩⟩
  have agree := selections_agree opened empty requests lists "(x>7)and(y='w')"
  exact ⟨opened, empty, lists, agree.2 _ answered⟩

end Engine

end TabStore
