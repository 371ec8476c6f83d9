import TabStore.Proofs.Engine.Isolated
import TabStore.Proofs.Memory.Run
import TabStore.Proofs.Table.Messages

/-!
# Messages of statements

A statement on one line fails, if it does, with a message of one line, but for the root in the paths
of files. This holds on every tree, also where other programs have written to the files of tables.

Results:
1. `TableStatement.ends_effect`, `TableStatement.failsWoven_run`: statements on tables;
2. `Engine.failsWoven_runDatabase`: statements on databases;
3. `Engine.failsWoven_perform`: any text on one line.
-/

namespace TabStore

open Error (isPlain_of_nil isPlain_of_singleton isWoven_of_isPlain)
open Text (IsLine isLine_append)

variable {root : Path} {tree : Tree} {db name : String}

/-! ## Tables -/

namespace Table

variable {table : Table}

theorem paths_of_mem_persistChanges {change : Change} (mem : change ∈ table.persistChanges) :
    change.paths ⊆ table.paths := by
  rw [persistChanges_eq] at mem
  obtain ⟨part, -, mem⟩ := List.mem_flatMap.mp mem
  have file := @partPath_mem_paths table part
  have temporary := @temporary_mem_paths table part
  rcases List.mem_cons.mp mem with rfl | mem
  · exact List.cons_subset.mpr ⟨temporary, List.nil_subset _⟩
  · rw [List.mem_singleton.mp mem]
    exact List.cons_subset.mpr ⟨temporary, List.cons_subset.mpr ⟨file, List.nil_subset _⟩⟩

theorem failsWoven_persist (table : Table) (below : ∀ path ∈ table.paths, path.Extends root)
    (tree : Tree) :
    FailsWoven root (table.persist tree) :=
  Change.failsWoven_applyAll (fun _ mem path inside =>
    below path (paths_of_mem_persistChanges mem inside)) tree

theorem failsWoven_create (table : Table) (named : IsLine table.name)
    (below : ∀ path ∈ table.paths, path.Extends root) (tree : Tree) :
    FailsWoven root (table.create tree) := by
  unfold create
  split
  · exact .error (isWoven_of_isPlain (isPlain_of_singleton rfl named))
  · exact table.failsWoven_persist below tree

theorem failsWoven_removeFiles (table : Table) (named : IsLine table.name)
    (below : ∀ path ∈ table.paths, path.Extends root) (tree : Tree) :
    FailsWoven root (table.removeFiles tree) := by
  have belowFiles : ∀ path ∈ table.files, path.Extends root := fun path mem =>
    below path (List.mem_append_right _ mem)
  unfold removeFiles
  split
  · exact failsWoven_removeEach belowFiles tree
  · exact .error (isWoven_of_isPlain (isPlain_of_singleton rfl named))

end Table

namespace TableStatement

open Table

variable {table : Table} {statement : TableStatement} {effect : Effect}

theorem endsPlain_changed {α : Type} {outcome : Result α × Table}
    (h : EndsPlain (fun _ => True) outcome.1) : EndsPlain (fun _ => True) (changed outcome) := by
  unfold changed
  split
  · trivial
  · exact h

theorem endsPlain_withAttributes {names : List String} (lines : ∀ name ∈ names, IsLine name) :
    EndsPlain (fun _ => True) (withAttributes table names) := by
  induction names generalizing table with
  | nil => trivial
  | cons name rest ih =>
    rw [List.forall_mem_cons] at lines
    exact (endsPlain_appendAttribute lines.1).bind fun _ _ _ => ih lines.2

theorem endsPlain_alterTable (named : IsLine table.name) {change : SchemaChange}
    (line : IsLine change.name) : EndsPlain (fun _ => True) (alterTable table change) := by
  cases change with
  | add name => exact endsPlain_appendAttribute line
  | drop name => exact endsPlain_changed (endsPlain_removeAttribute named line)

theorem ends_selectText (shown : table.IsShown root) {columns : Projection}
    (lines : ∀ name ∈ columns.names, IsLine name) {condition : Option Condition}
    (compiled : ∀ c, condition = some c → c.IsCompiled) :
    EndsWoven root (fun _ => True) (selectText table columns condition) := by
  refine (endsPlain_projectionIndices shown.name lines).endsWoven.bind fun indices _ _ => ?_
  cases condition with
  | none => trivial
  | some c =>
    have filters := Condition.ends_filter (compiled c rfl) shown
    refine (filters.map fun _ _ _ => trivial : EndsWoven root (fun _ => True) _).bind ?_
    exact fun _ _ _ => trivial

theorem ends_updateTable (shown : table.IsShown root) {assignments : List Assignment}
    (lines : ∀ a ∈ assignments, IsLine a.target) {condition : Condition}
    (compiled : condition.IsCompiled) :
    EndsWoven root (fun _ => True) (updateTable table assignments condition) :=
  (Condition.ends_filter compiled shown).bind fun _ _ _ =>
    (endsPlain_changed (endsPlain_update shown.name lines)).endsWoven

/-- What a statement is to do is found out or fails with such a message. -/
theorem ends_effect (isDatabase : IsName db) (made : (Statement.table statement).IsMadeOf IsName) :
    EndsWoven root (fun _ => True) (statement.effect tree (Database.under root db)) := by
  have load : ∀ {name}, IsName name →
      EndsWoven root (IsShown root) ((Database.under root db).load tree name) :=
    fun isName => ends_load isDatabase isName
  cases statement with
  | create name names =>
    have lines : ∀ name ∈ names, IsLine name := by
      intro name mem
      rcases made.2 with rfl | valid
      · cases mem
      · exact (valid.isName name mem).isLine
    exact (endsPlain_withAttributes lines).endsWoven.map fun _ _ _ => trivial
  | drop name => trivial
  | alter name change =>
    refine (load made.1).bind fun table _ shown => ?_
    exact (endsPlain_alterTable shown.name made.2.isLine).endsWoven.map fun _ _ _ => trivial
  | insert name values =>
    refine (load made.1).bind fun table _ shown => ?_
    have lines : ∀ raw ∈ values, IsLine raw := fun raw mem => Value.isLine (made.2.2 raw mem)
    refine (endsPlain_insert lines).endsWoven.bind fun added _ _ => ?_
    cases added <;> trivial
  | select name columns condition =>
    refine (load made.1).bind fun table _ shown => ?_
    refine (ends_selectText shown (fun name mem => ?_) made.2.2).map fun _ _ _ => trivial
    cases columns with
    | all => cases mem
    | columns names => exact (made.2.1.2 name mem).isLine
  | update name assignments condition =>
    refine (load made.1).bind fun table _ shown => ?_
    have lines : ∀ a ∈ assignments, IsLine a.target := fun a mem => (made.2.2.1 a mem).isLine
    exact (ends_updateTable shown lines made.2.2.2).map fun _ _ _ => trivial
  | delete name condition =>
    refine (load made.1).bind fun table _ shown => ?_
    refine (?_ : EndsWoven root (fun _ => True) (deleteRows table condition)).map fun _ _ _ => trivial
    exact (Condition.ends_filter made.2 shown).bind fun _ _ _ => trivial
  | join primary secondary =>
    obtain ⟨isPrimary, isOn, isSecondary, isOther⟩ := made
    refine (load isPrimary).bind fun left _ shown => ?_
    refine (load isSecondary).bind fun right _ shownRight => ?_
    have joins : EndsWoven root (fun _ => True) (left.join primary.on right secondary.on) :=
      (endsPlain_join shown.name shownRight.name isOn.isLine isOther.isLine).endsWoven
    refine (?_ : EndsWoven root (fun _ => True) (joinText left right _ _)).map fun _ _ _ => trivial
    exact joins.bind fun _ _ _ => trivial

theorem failsWoven_silently {step : Result Unit × Tree} (h : FailsWoven root step) :
    FailsWith (Failure.IsWoven root) (perform.silently step) :=
  (h.map fun _ => (none : Option String)).ofResult

theorem failsWoven_perform (shown : ∀ table, effect.table? = some table →
      IsLine table.name ∧ ∀ path ∈ table.paths, path.Extends root) (tree : Tree) :
    FailsWith (Failure.IsWoven root) (perform tree effect) := by
  cases effect with
  | answer text => exact .ok (some text)
  | store table =>
    obtain ⟨-, below⟩ := shown table rfl
    rw [perform]
    exact failsWoven_silently (table.failsWoven_persist below tree)
  | create table =>
    obtain ⟨named, below⟩ := shown table rfl
    rw [perform]
    exact failsWoven_silently (table.failsWoven_create named below tree)
  | remove table =>
    obtain ⟨named, below⟩ := shown table rfl
    rw [perform]
    exact failsWoven_silently (table.failsWoven_removeFiles named below tree)
  | panic => exact .error trivial

theorem failsWoven_run (isDatabase : IsName db)
    (made : (Statement.table statement).IsMadeOf IsName)
    (isName : ∀ name ∈ statement.tables, IsName name) (tree : Tree) :
    FailsWith (Failure.IsWoven root) (statement.run tree (Database.under root db)) := by
  have finds := @ends_effect root tree db statement isDatabase made
  unfold run
  split
  · next effect computed =>
    refine failsWoven_perform (fun table changes => ?_) tree
    obtain ⟨name, target, place⟩ := table_of_effect computed changes
    have isName := isName name (target_mem_tables target)
    refine ⟨place.name_eq ▸ isName.isLine, fun path mem => ?_⟩
    have samePaths : table.paths = (Table.new table.directory table.name).paths := rfl
    rw [samePaths, place.directory_eq, place.name_eq] at mem
    exact extends_of_mem_paths isDatabase isName mem
  · next e failed => exact .error (finds.error failed)

end TableStatement

/-! ## Databases -/

namespace Database

theorem endsPlain_find (line : IsLine name) :
    EndsPlain (fun database => database = under root name) (find tree root name) := by
  unfold find
  dsimp only
  split
  · exact rfl
  · exact isPlain_of_singleton rfl line

theorem extends_path (isName : IsName name) : (under root name).path.Extends root :=
  (Path.Extends.refl root).join isName.isFileName isName.isLine

theorem failsWoven_create (isName : IsName name) (tree : Tree) :
    FailsWoven root ((under root name).create tree) := by
  have below := @extends_path root name isName
  unfold create
  split
  · exact .error (isWoven_of_isPlain (isPlain_of_singleton rfl isName.isLine))
  · exact Change.failsWoven_applyAll (by simpa [Change.paths] using below) tree

theorem failsWoven_remove (isName : IsName name) (tree : Tree) :
    FailsWoven root ((under root name).remove tree) := by
  have below := @extends_path root name isName
  unfold remove
  split
  · exact Change.failsWoven_applyAll (by simpa [Change.paths] using below) tree
  · exact .error (isWoven_of_isPlain (isPlain_of_singleton rfl isName.isLine))

end Database

namespace Engine

variable {engine : Engine} {session : Session} {text : String}

theorem ends_dropTarget (isName : IsName name) :
    EndsWoven root (fun database => database = Database.under root name)
      (runDatabase.dropTarget tree root name) := by
  refine (Database.endsPlain_find isName.isLine).endsWoven.bind fun database _ same => ?_
  rw [same]
  have lists := @Tree.ends_list tree (Database.under root name).path
  have tables : EndsWoven root (fun _ => True) ((Database.under root name).tables tree) := by
    unfold Database.tables
    split
    · next cause failed =>
      exact Error.isWoven_fileFailure (Database.extends_path isName) (by decide)
        (lists.error failed)
    · trivial
  exact tables.bind fun _ _ _ => rfl

theorem failsWoven_runDatabase {statement : DatabaseStatement} (isName : IsName statement.name)
    (tree : Tree) : FailsWoven engine.root (engine.runDatabase tree session statement) := by
  cases statement with
  | use name =>
    have found : EndsWoven engine.root (fun _ => True) (Database.find tree engine.root name) :=
      (Database.endsPlain_find isName.isLine).endsWoven.imp fun _ _ _ => trivial
    exact (FailsWith.of_ends found).map _
  | create name =>
    have created := (@Database.failsWoven_create engine.root name isName tree).map
      fun _ => (⟨none, session⟩ : Response)
    exact created
  | drop name =>
    have target := @ends_dropTarget engine.root tree name isName
    unfold runDatabase
    dsimp only
    split
    · next e failed => exact .error (target.error failed)
    · next database found =>
      rw [target.ok found]
      have removed := (@Database.failsWoven_remove engine.root name isName tree).map
        fun _ => (⟨none, afterDrop session name⟩ : Response)
      exact removed

/-- A statement on one line ends well or with a message of one line, but for the root in paths. -/
theorem failsWoven_perform (line : IsLine text) (valid : session.IsValid) (tree : Tree) :
    FailsWith (Failure.IsWoven engine.root) (engine.perform tree session text) := by
  have parses := Statement.endsPlain_parse line
  cases parsed : Statement.parse text with
  | error e =>
    rw [perform, prepare, parsed, error_bind]
    exact .error (isWoven_of_isPlain (parses.error parsed))
  | ok statement =>
    have readable := Statement.isReadable_of_parse parsed
    cases statement with
    | database statement =>
      rw [perform_of_prepare (prepare_database parsed)]
      exact (failsWoven_runDatabase (Represents.isName_of_readable readable) tree).ofResult
    | table statement =>
      cases working : session.workingDatabase with
      | none =>
        rw [perform_of_error (prepare_of_no_database parsed working)]
        exact .error (isWoven_of_isPlain (isPlain_of_nil rfl))
      | some db =>
        have isDatabase := valid db working
        cases present : tree.isDirectory (Database.under engine.root db).path with
        | false =>
          rw [perform_of_not_isDirectory working parsed present]
          exact .error (isWoven_of_isPlain (isPlain_of_singleton rfl isDatabase.isLine))
        | true =>
          have ran : FailsWith (Failure.IsWoven engine.root)
              (statement.run tree (Database.under engine.root db)) :=
            TableStatement.failsWoven_run isDatabase (Statement.isMadeOf_of_parse parsed)
              (TableStatement.isName_of_mem_tables readable) tree
          rw [perform_of_isDirectory working parsed present]
          exact ran.map fun text => (⟨text, session⟩ : Response)

end Engine

end TabStore
