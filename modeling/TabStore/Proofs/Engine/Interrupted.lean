import TabStore.Proofs.Engine.Panics
import TabStore.Proofs.Engine.Refused
import TabStore.Proofs.Statement.Reader
import TabStore.Proofs.Table.Rewritten
import TabStore.Proofs.Table.Stored

/-!
# Interrupted statements

Storing a table replaces its schema, its rows and its record of the last id, one file after the
other, and may stop anywhere in between. After a statement on rows the schema is the same, so the
table is the old one until its rows are replaced, and the new one from then on. Its last id is then
found although it is not recorded yet: the old record still holds, or the new row has the id. A row
whose id would overflow is never stored: the statement panics first.

Results:
1. `Table.IsStorable.insert`, `Table.IsStorable.update`, `Table.IsStorable.delete`: what statements
   on rows make of a table that was loaded;
2. `Table.RowsChanged.load_of_stopsIn`: what is loaded wherever storing such a table stops;
3. `TableStatement.load_interrupted`: for every statement on rows that does not panic, what is
   loaded is the table before it or the table after it.
-/

namespace TabStore

open Text

namespace Row.IsStorable

variable {width last next : Nat} {row after : Row}

theorem mono (h : row.IsStorable width last) (le : last ≤ next) : row.IsStorable width next where
  width_eq := h.width_eq
  free := h.free
  numbered := by
    obtain ⟨id, bound, read⟩ := h.numbered
    exact ⟨id, Nat.le_trans bound le, read⟩

theorem set (h : row.IsStorable width last) {index : Nat} (notId : 1 ≤ index) {cell : String}
    (literal : Value.isLiteral cell = true) (set : row.set index cell = .ok after) :
    after.IsStorable width last := by
  have found := set
  unfold Row.set at found
  split at found
  · cases found
    refine ⟨?_, fun other mem => ?_, ?_⟩
    · rw [Row.width, List.length_set]
      exact h.width_eq
    · rcases List.mem_or_eq_of_mem_set mem with old | rfl
      · exact h.free other old
      · exact ⟨Value.no_break literal (by decide), Value.no_break literal (by decide)⟩
    · rw [Row.id_set notId set]
      exact h.numbered
  · cases found

end Row.IsStorable

namespace Table

/-- A table after a statement on rows: it has the same schema as before, and the last id is still
the one before or the id of one of its rows. -/
abbrev RowsChanged (before after : Table) : Prop := before.Becomes after before.lastId

variable {table before after : Table} {tree other stopped finished : Tree}

namespace IsStorable

/-- Other rows with ids that the table has given. -/
theorem withRows (h : table.IsStorable) {rows : List Row}
    (storable : ∀ row ∈ rows, row.IsStorable table.attributes.length table.lastId) :
    table.RowsChanged { table with rows } :=
  ⟨⟨h.head, h.attributes, storable⟩, rfl, rfl, rfl, Nat.le_refl _, .inl rfl⟩

theorem insert (h : table.IsStorable) {values : List String} {id : Nat}
    (inserted : table.insert values = .ok (some (id, after))) : table.RowsChanged after := by
  obtain ⟨width, literals, rfl, fits, rfl⟩ := insert_eq_some.mp inserted
  have read : readId? (toString (table.lastId + 1)).toList = some (table.lastId + 1) :=
    Number.readBelow_toString fits
  refine ⟨⟨h.head, h.attributes, fun row mem => ?_⟩, rfl, rfl, rfl, Nat.le_succ _, .inr ?_⟩
  · rcases List.mem_append.mp mem with old | new
    · exact (h.rows row old).mono (Nat.le_succ _)
    · rw [List.mem_singleton.mp new]
      refine ⟨?_, fun cell present => ?_, _, Nat.le_refl _, read⟩
      · obtain ⟨rest, attributes⟩ := List.head?_eq_some_iff.mp h.head
        rw [attributes, List.length_cons, Nat.add_sub_cancel] at width
        rw [Row.width, List.length_cons, width]
        exact (congrArg List.length attributes).symm
      · rcases List.mem_cons.mp present with rfl | value
        · exact ⟨Number.no_break _ (by decide), Number.no_break _ (by decide)⟩
        · have literal := literals cell value
          exact ⟨Value.no_break literal (by decide), Value.no_break literal (by decide)⟩
  · exact List.mem_filterMap.mpr ⟨_, List.mem_append_right _ (List.mem_singleton_self _), read⟩

theorem update (h : table.IsStorable) {mask : List Bool} {assignments : List Assignment}
    (literals : ∀ a ∈ assignments, Value.isLiteral a.value = true) {count : Nat}
    (updated : table.update mask assignments = (.ok count, after)) : table.RowsChanged after := by
  unfold Table.update at updated
  split at updated
  · cases updated
  · next changes resolved =>
    have valid := resolveAssignments_ok h.head literals resolved
    cases found : setRows changes mask table.rows with
    | mk outcome rows =>
      rw [found] at updated
      cases updated
      refine h.withRows (setRows_keeps (fun row after storable set => ?_) h.rows found)
      refine setCells_keeps (fun change mem between next start set => ?_) storable set
      exact start.set (valid change mem).1 (valid change mem).2 set

theorem delete (h : table.IsStorable) (mask : List Bool) :
    table.RowsChanged (table.delete mask) :=
  h.withRows fun row mem => h.rows row ((unselected_sublist mask table.rows).mem mem)

end IsStorable

/-! ## Loading what is stored -/

/-- Where all ids in use are recorded, the last id is the recorded one. -/
theorem IsReadFrom.lastId_eq {schema rows : String} {recorded : Nat}
    (read : table.IsReadFrom schema rows recorded)
    (highest : ∀ row ∈ table.rows, ∀ id, readId? row.id.toList = some id → id ≤ recorded) :
    table.lastId = recorded := by
  obtain ⟨le, same | used⟩ := read.lastId_cases
  · exact same.symm
  · obtain ⟨row, mem, readId⟩ := List.mem_filterMap.mp used
    exact Nat.le_antisymm (highest row mem _ readId) le

/-- A table that is stored to the end is loaded as it is written and read again. -/
theorem IsStorable.load_of_persist (h : table.IsStorable) (isName : IsName table.name)
    (fits : table.lastId < idLimit) (stored : table.persist tree = (.ok (), finished)) :
    load finished table.directory table.name = .ok table.reread :=
  (isFiledAt_of_isName isName).load_of_persist h fits stored

namespace RowsChanged

/-- Wherever storing the changed table stops, the old table is loaded or the new one. -/
theorem load_of_stopsIn (changed : before.RowsChanged after) (isName : IsName before.name)
    (loaded : load tree before.directory before.name = .ok before)
    (sequence : readSequence tree before.sequencePath = .ok before.lastId)
    (stops : Change.StopsIn after.persistChanges tree stopped) :
    load stopped before.directory before.name = .ok before ∨
      load stopped before.directory before.name = .ok after.reread :=
  Becomes.load_of_stopsIn changed (isFiledAt_of_isName isName) loaded sequence stops

end RowsChanged

end Table

namespace TableStatement

/-- The table to which a statement adds rows, or in which it sets or removes rows. -/
def rowTarget? : TableStatement → Option String
  | .insert table _ | .update table _ _ | .delete table _ => some table
  | _ => none

variable {tree : Tree} {home : Database} {statement : TableStatement} {name : String}
  {before after : Table}

/-- A statement on rows stores other rows, or it is an INSERT that panics. -/
theorem panic_or_rowsChanged {effect : Effect} (readable : (Statement.table statement).IsReadable)
    (target : statement.rowTarget? = some name) (loaded : home.load tree name = .ok before)
    (storable : before.IsStorable) (computed : statement.effect tree home = .ok effect) :
    effect = .panic ∨ IsName name ∧ ∃ after, effect = .store after ∧ before.RowsChanged after := by
  cases statement with
  | insert table values =>
    cases target
    obtain ⟨found, load, stores | ⟨-, rfl⟩⟩ := effect_insert_eq_ok.mp computed
    · obtain ⟨id, after, inserted, rfl⟩ := stores
      cases load.symm.trans loaded
      exact .inr ⟨readable.1.isName, after, rfl, storable.insert inserted⟩
    · exact .inl rfl
  | update table assignments condition =>
    cases target
    obtain ⟨found, load, computed⟩ := bind_eq_ok.mp computed
    cases load.symm.trans loaded
    obtain ⟨after, updated, rfl⟩ := map_eq_ok.mp computed
    obtain ⟨mask, -, updated⟩ := bind_eq_ok.mp updated
    obtain ⟨count, set⟩ := changed_ok updated
    exact .inr ⟨readable.1.isName, after, rfl,
      storable.update (fun a mem => (readable.2.1.sound a mem).isLiteral) set⟩
  | delete table condition =>
    cases target
    obtain ⟨found, load, computed⟩ := bind_eq_ok.mp computed
    cases load.symm.trans loaded
    obtain ⟨after, deleted, rfl⟩ := map_eq_ok.mp computed
    obtain ⟨mask, -, deleted⟩ := bind_eq_ok.mp deleted
    cases deleted
    exact .inr ⟨readable.1.isName, _, rfl, storable.delete mask⟩
  | create | drop | alter | select | join => cases target

/-- A statement on rows is done as a whole or not at all, as far as loading its table can tell.
Where storing the changed table stops, which may be before or after any of its steps, loading gives
the table before the statement or the one that it gives after all steps, wherever they are done. The
one statement that is not refused and stores nothing is an INSERT into a table whose last id is
2^64 - 1: the addition that gives the next id is checked, so it panics, and nothing is changed.

The table need only be one that loads, with a record of the last id that is not behind its rows; a
missing record counts as 0. -/
theorem load_interrupted {text : String} {recorded : Nat} {effect : Effect}
    (parsed : Statement.parse text = .ok (.table statement))
    (target : statement.rowTarget? = some name) (loaded : home.load tree name = .ok before)
    (sequence : Table.readSequence tree before.sequencePath = .ok recorded)
    (highest : ∀ row ∈ before.rows, ∀ id, Table.readId? row.id.toList = some id → id ≤ recorded)
    (computed : statement.effect tree home = .ok effect) :
    (effect = .panic ∧ (∃ values, statement = .insert name values) ∧
      before.lastId + 1 = Table.idLimit ∧ statement.run tree home = (.error .panic, tree)) ∨
    ∃ after, effect = .store after ∧
      Change.StopsIn after.persistChanges tree (statement.run tree home).2 ∧
      (∀ stopped, Change.StopsIn after.persistChanges tree stopped →
        home.load stopped name = .ok before ∨ home.load stopped name = .ok after.reread) ∧
      ∀ other finished, after.persist other = (.ok (), finished) →
        home.load finished name = .ok after.reread := by
  obtain ⟨directory_eq, name_eq, -⟩ := Table.load_eq_ok.mp loaded
  have loads : ∀ tree, home.load tree name = Table.load tree before.directory before.name := by
    intro tree
    rw [Database.load, directory_eq, name_eq]
  have loadedHere := (loads tree).symm.trans loaded
  obtain ⟨-, -, _, _, _, -, -, readRecord, read⟩ := Table.load_eq_ok.mp loadedHere
  cases sequence.symm.trans readRecord
  have recordedLast := read.lastId_eq highest
  have fitsBefore := read.lastId_lt (Table.readSequence_lt sequence)
  rcases panic_or_rowsChanged (Statement.isReadable_of_parse parsed) target loaded read.isStorable
    computed with rfl | ⟨isName, after, rfl, changed⟩
  · left
    obtain ⟨table, values, found, rfl, load, full⟩ := effect_eq_panic computed
    cases target
    cases load.symm.trans loaded
    exact ⟨rfl, ⟨values, rfl⟩, Nat.le_antisymm fitsBefore full, run_of_effect computed⟩
  · right
    have fits := changed.lastId_lt fitsBefore
    rw [← name_eq] at isName
    refine ⟨after, rfl, ?_, fun stopped stops => ?_, fun other finished stored => ?_⟩
    · have ran : (statement.run tree home).2 = (after.persist tree).2 := by
        rw [run_of_effect computed, perform, silently_eq]
      rw [ran]
      exact Change.stopsIn_applyAll _ tree
    · rw [loads]
      rw [← recordedLast] at sequence
      exact changed.load_of_stopsIn isName loadedHere sequence stops
    · rw [loads, ← changed.directory_eq, ← changed.name_eq]
      exact changed.storable.load_of_persist (changed.name_eq ▸ isName) fits stored

/-- A table whose record of the last id cannot be replaced: a directory stands where the new record
has to go. -/
def obstructedTable : Tree :=
  let database := ((Location.start (.above 0)).child "d").child "x"
  ⟨[((Location.start (.above 0)).child "d", .directory), (database, .directory),
    (database.child "t.txt", .file (.text "id\nn\n")),
    (database.child "t.tsv", .file (.text "1\t5\n")),
    (database.child "t.seq", .file (.text "1\n")),
    (database.child "t.seq.tmp", .directory)]⟩

/-- A row is added, but its id is not recorded: the table is the new one all the same. -/
theorem load_interrupted_unrecorded :
    (run obstructedTable ⟨"x", ⟨"d/x"⟩⟩ (.insert "t" ["7"])).1 =
      .error (.error (.fileFailure "writing d/x/t.seq.tmp" .isDirectory)) ∧
    Database.load ⟨"x", ⟨"d/x"⟩⟩ (run obstructedTable ⟨"x", ⟨"d/x"⟩⟩ (.insert "t" ["7"])).2 "t" =
      .ok ⟨"t", ⟨"d/x"⟩, ["id", "n"], [⟨["1", "5"]⟩, ⟨["2", "7"]⟩], 2⟩ := by
  have highest : ∀ row ∈ [Row.mk ["1", "5"]], ∀ id,
      Table.readId? row.id.toList = some id → id ≤ 1 := by
    intro row mem id read
    have one : Table.readId? (Row.mk ["1", "5"]).id.toList = some 1 := by decide +kernel
    rw [List.mem_singleton.mp mem, one] at read
    cases read
    exact Nat.le_refl 1
  have interrupted := @load_interrupted obstructedTable ⟨"x", ⟨"d/x"⟩⟩ (.insert "t" ["7"]) "t"
    ⟨"t", ⟨"d/x"⟩, ["id", "n"], [⟨["1", "5"]⟩], 1⟩ "INSERT INTO t VALUES (7);" 1
    (.store ⟨"t", ⟨"d/x"⟩, ["id", "n"], [⟨["1", "5"]⟩, ⟨["2", "7"]⟩], 2⟩)
    (by decide +kernel) rfl (by decide +kernel) (by decide +kernel) highest (by decide +kernel)
  obtain ⟨⟨⟩, -⟩ | ⟨_, ⟨⟩, stops, loads, -⟩ := interrupted
  refine ⟨by decide +kernel, ?_⟩
  exact (loads _ stops).resolve_left (by decide +kernel)

/-- A table that has given the last id. -/
def fullTable : Tree :=
  let database := ((Location.start (.above 0)).child "d").child "x"
  ⟨[((Location.start (.above 0)).child "d", .directory), (database, .directory),
    (database.child "t.txt", .file (.text "id\nn\n")),
    (database.child "t.tsv", .file (.text "")),
    (database.child "t.seq", .file (.text "18446744073709551615\n"))]⟩

example : run fullTable ⟨"x", ⟨"d/x"⟩⟩ (.insert "t" ["7"]) = (.error .panic, fullTable) := by
  decide +kernel

end TableStatement

end TabStore
