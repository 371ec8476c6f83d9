import TabStore.Footprint
import TabStore.Proofs.Files.Frame
import TabStore.Proofs.Statement.Reader
import TabStore.Proofs.Table.Parts

/-!
# Footprints of tables

A table is stored in, loaded from and removed at six paths: those of its three files and of the
files that replace them. Nothing else matters to it, and no two tables have a path in common.

Results:
1. `Table.isLocal_persist`, `Table.isLocal_create`, `Table.isLocal_removeFiles`, `Table.load_eq`:
   what is done with a table is seen at its paths and depends on them alone;
2. `Table.agreeOn_of_enters`: trees agree on the paths of tables if they have the directory of the
   database and the same is found under these paths;
3. `Table.apart_of_mem_paths`: paths of different tables, of one database or of two, are different
   and lead to different places.
-/

namespace TabStore

open TabStore.Tree (AgreeOn IsLocal)

theorem TableStatement.isName_of_mem_tables {statement : TableStatement}
    (readable : (Statement.table statement).IsReadable) :
    ∀ name ∈ statement.tables, IsName name := by
  cases statement with
  | drop name => exact List.forall_mem_singleton.mpr readable.isName
  | join primary secondary =>
    exact List.forall_mem_cons.mpr
      ⟨readable.1.isName, List.forall_mem_singleton.mpr readable.2.2.1.isName⟩
  | create name _ | alter name _ | insert name _ | select name _ _ | update name _ _
  | delete name _ => exact List.forall_mem_singleton.mpr readable.1.isName

namespace Table

variable {table : Table} {tree left right : Tree} {paths : List Path} {path : Path}

theorem mem_files : path ∈ table.files ↔ ∃ part : Part, table.partPath part = path := by
  constructor
  · intro mem
    rcases List.mem_cons.mp mem with rfl | mem
    · exact ⟨.schema, rfl⟩
    · rcases List.mem_cons.mp mem with rfl | mem
      · exact ⟨.rows, rfl⟩
      · exact ⟨.sequence, (List.mem_singleton.mp mem).symm⟩
  · rintro ⟨part, rfl⟩
    cases part <;> simp [files, partPath, schemaPath, rowsPath, sequencePath, Part.extension]

theorem partPath_mem_paths (part : Part) : table.partPath part ∈ table.paths :=
  List.mem_append_right _ (mem_files.mpr ⟨part, rfl⟩)

theorem temporary_mem_paths (part : Part) :
    (table.partPath part).addExtension temporaryExtension ∈ table.paths :=
  List.mem_append_left _ (List.mem_map_of_mem (mem_files.mpr ⟨part, rfl⟩))

theorem exists_part_of_mem_paths (mem : path ∈ table.paths) : ∃ part : Part,
    path = table.partPath part ∨ path = (table.partPath part).addExtension temporaryExtension := by
  rcases List.mem_append.mp mem with temporary | file
  · obtain ⟨file, known, rfl⟩ := List.mem_map.mp temporary
    obtain ⟨part, rfl⟩ := mem_files.mp known
    exact ⟨part, .inr rfl⟩
  · obtain ⟨part, rfl⟩ := mem_files.mp file
    exact ⟨part, .inl rfl⟩

/-! ## What is done with a table -/

theorem isLocal_replaceParts (table : Table) (parts : List Part) :
    IsLocal table.paths (Change.applyAll (parts.flatMap table.replacePart)) := by
  induction parts with
  | nil => exact .same table.paths _
  | cons part rest ih =>
    rw [List.flatMap_cons]
    refine Tree.isLocal_applyAll_append ((Tree.isLocal_replacement _ _).mono ?_) ih
    exact List.cons_subset.mpr ⟨temporary_mem_paths part,
      List.cons_subset.mpr ⟨partPath_mem_paths part, List.nil_subset _⟩⟩

theorem isLocal_persist (table : Table) : IsLocal table.paths table.persist :=
  table.isLocal_replaceParts [.schema, .rows, .sequence]

theorem contains_eq (agree : AgreeOn paths left right) (mem : path ∈ paths) :
    left.contains path = right.contains path := by
  rw [Tree.contains, Tree.contains, agree.entry_eq mem]

theorem readText_eq (agree : AgreeOn paths left right) (mem : path ∈ paths) :
    left.readText path = right.readText path := by
  rw [Tree.readText, Tree.readText, agree.entry_eq mem]

theorem isStored_eq (agree : AgreeOn table.paths left right) :
    table.isStored left = table.isStored right := by
  have schema : left.contains table.schemaPath = right.contains table.schemaPath :=
    contains_eq agree (partPath_mem_paths .schema)
  have rows : left.contains table.rowsPath = right.contains table.rowsPath :=
    contains_eq agree (partPath_mem_paths .rows)
  rw [isStored, isStored, schema, rows]

theorem isLocal_create (table : Table) : IsLocal table.paths table.create :=
  (IsLocal.same table.paths _).ite table.isLocal_persist isStored_eq

theorem isLocal_removeFiles (table : Table) : IsLocal table.paths table.removeFiles := by
  have removed : IsLocal table.paths (removeEach table.files) :=
    (Tree.isLocal_removeEach table.files).mono (List.subset_append_right _ _)
  exact removed.ite (.same table.paths _) isStored_eq

/-- A table is loaded alike from trees that agree on its paths. -/
theorem load_eq {directory : Path} {name : String}
    (agree : AgreeOn (new directory name).paths left right) :
    load left directory name = load right directory name := by
  let table := new directory name
  have present : left.contains table.schemaPath = right.contains table.schemaPath :=
    contains_eq agree (partPath_mem_paths .schema)
  have schema : left.readText table.schemaPath = right.readText table.schemaPath :=
    readText_eq agree (partPath_mem_paths .schema)
  have rows : left.readText table.rowsPath = right.readText table.rowsPath :=
    readText_eq agree (partPath_mem_paths .rows)
  have sequence : left.readText table.sequencePath = right.readText table.sequencePath :=
    readText_eq agree (partPath_mem_paths .sequence)
  simp only [table] at present schema rows sequence
  simp only [load, readFile, readSequence, present, schema, rows, sequence]

/-! ## Where the paths lead -/

variable {directory root : Path} {home location : Location} {name name' entry db db' : String}

/-- The names of the files of a table and of the files that replace them. -/
def IsEntryOf (name entry : String) : Prop :=
  ∃ part : Part, entry = part.fileName name ∨ entry = Part.temporary (part.fileName name)

theorem IsEntryOf.isFileName (h : IsEntryOf name entry) (isName : IsName name) :
    IsFileName entry := by
  obtain ⟨part, rfl | rfl⟩ := h
  · exact part.isFileName isName
  · exact Part.isFileName_temporary (part.isFileName isName)

theorem IsEntryOf.name_eq (h : IsEntryOf name entry) (h' : IsEntryOf name' entry) :
    name = name' := by
  obtain ⟨part, rfl | rfl⟩ := h <;> obtain ⟨other, same | same⟩ := h'
  · exact (Part.fileName_inj.mp same).2
  · exact absurd same.symm (Part.temporary_ne other part name' name)
  · exact absurd same (Part.temporary_ne part other name name')
  · have known : temporaryExtension ∈ extensions := by decide
    exact (Part.fileName_inj.mp (append_extension_inj known known same).1).2

/-- Each path of a table is that of an entry of its directory. -/
theorem exists_join_of_mem_paths (isName : IsName name) (mem : path ∈ (new directory name).paths) :
    ∃ within entry, path = within.join entry ∧ IsEntryOf name entry ∧
      ∀ (tree : Tree) (home : Location), tree.Enters directory home → tree.Enters within home := by
  obtain ⟨part, rfl | rfl⟩ := exists_part_of_mem_paths mem
  · exact ⟨directory, part.fileName name, rfl, ⟨part, .inl rfl⟩, fun _ _ => id⟩
  · obtain ⟨within, dots, same, names, origin⟩ :=
      @Path.exists_addExtension_join directory _ (part.isFileName isName) temporaryExtension
    exact ⟨within, _, same, ⟨part, .inr rfl⟩, fun _ _ enters => enters.of_dots names origin⟩

/-- A path of a table leads, if anywhere, to an entry of the directory. -/
theorem exists_entry_of_mem_paths (isName : IsName name) (enters : tree.Enters directory home)
    (mem : path ∈ (new directory name).paths) (resolved : tree.resolve path = .ok location) :
    ∃ entry, location = home.child entry := by
  obtain ⟨within, entry, rfl, isEntry, goesOn⟩ := exists_join_of_mem_paths isName mem
  have isFileName := isEntry.isFileName isName
  exact ⟨entry, (goesOn tree home enters).eq_child_of_locate isFileName
    (Tree.locate_of_resolve_join isFileName resolved)⟩

/-- Trees that have the directory agree on the paths of its tables if the same is found there. -/
theorem agreeOn_of_enters {names : List String} (isName : ∀ name ∈ names, IsName name)
    (enters : left.Enters directory home) (entersRight : right.Enters directory home)
    (same : ∀ path ∈ names.flatMap fun name => (new directory name).paths,
      left.found? path = right.found? path) :
    AgreeOn (names.flatMap fun name => (new directory name).paths) left right := by
  intro path mem
  obtain ⟨name, known, mine⟩ := List.mem_flatMap.mp mem
  obtain ⟨within, entry, rfl, isEntry, goesOn⟩ := exists_join_of_mem_paths (isName name known) mine
  have isFileName := isEntry.isFileName (isName name known)
  have entersLeft := goesOn left home enters
  refine ⟨left.resolve (within.join entry), fun other keeps => ?_, fun other keeps => ?_,
    fun location resolved => ?_⟩
  · exact entersLeft.resolve_join_eq (entersLeft.of_keepsDirectories keeps) isFileName
  · exact entersLeft.resolve_join_eq (goesOn other home (entersRight.of_keepsDirectories keeps))
      isFileName
  · have resolvedRight : right.resolve (within.join entry) = .ok location :=
      (entersLeft.resolve_join_eq (goesOn right home entersRight) isFileName).trans resolved
    rw [← Tree.found?_of_resolve resolved, ← Tree.found?_of_resolve resolvedRight, same _ mem]

/-! ## Different tables -/

theorem exists_database_join (isDatabase : IsName db) (isName : IsName name)
    (mem : path ∈ ((Database.under root db).table name).paths) :
    ∃ entry, IsEntryOf name entry ∧ path = (root.join db).join entry := by
  obtain ⟨part, rfl | rfl⟩ := exists_part_of_mem_paths mem
  · exact ⟨part.fileName name, ⟨part, .inl rfl⟩, rfl⟩
  · exact ⟨_, ⟨part, .inr rfl⟩,
      Path.addExtension_join isDatabase.isFileName (part.isFileName isName)⟩

theorem exists_child_of_resolve (isDatabase : IsFileName db) (isFileName : IsFileName entry)
    (resolved : tree.resolve ((root.join db).join entry) = .ok location) :
    ∃ home : Location, location = (home.child db).child entry := by
  have located := Tree.locate_of_resolve_join isFileName resolved
  rw [Path.ofPath_join isDatabase, Path.names_join isDatabase, List.append_assoc,
    List.singleton_append] at located
  obtain ⟨home, goesOn⟩ := Tree.exists_of_locate_append located
  refine ⟨home, ?_⟩
  rw [goesOn, Tree.locate, if_neg isDatabase.ne_dot, if_neg isDatabase.ne_dots] at located
  split at located
  · cases located
  · rw [if_neg (by simp)] at located
    split at located
    · cases located
    · cases located
    · rw [Tree.locate_singleton isFileName] at located
      split at located
      · cases located
      · exact (Except.ok.inj located).symm

/-- No path of a table is one of another table, or leads where one of them leads. -/
theorem apart_of_mem_paths (isDatabase : IsName db) (isDatabase' : IsName db') (isName : IsName name)
    (isName' : IsName name') (apart : db ≠ db' ∨ name ≠ name') {other : Path}
    (mem : path ∈ ((Database.under root db).table name).paths)
    (memOther : other ∈ ((Database.under root db').table name').paths) :
    path ≠ other ∧ ∀ tree : Tree, ¬ tree.LeadAlike path other := by
  obtain ⟨entry, isEntry, rfl⟩ := exists_database_join isDatabase isName mem
  obtain ⟨entry', isEntry', rfl⟩ := exists_database_join isDatabase' isName' memOther
  have isFileName := isEntry.isFileName isName
  have isFileName' := isEntry'.isFileName isName'
  have differ : ¬ (db = db' ∧ entry = entry') := by
    rintro ⟨rfl, rfl⟩
    exact apart.elim (absurd rfl) (absurd (isEntry.name_eq isEntry'))
  refine ⟨fun same => ?_, ?_⟩
  · have names := congrArg Path.names same
    simp only [Path.names_join isFileName, Path.names_join isFileName',
      Path.names_join isDatabase.isFileName, Path.names_join isDatabase'.isFileName,
      List.append_assoc, List.append_cancel_left_eq] at names
    simp at names
    exact differ names
  · rintro tree ⟨location, resolved, resolvedOther⟩
    obtain ⟨home, rfl⟩ := exists_child_of_resolve isDatabase.isFileName isFileName resolved
    obtain ⟨home', same⟩ :=
      exists_child_of_resolve isDatabase'.isFileName isFileName' resolvedOther
    have names := congrArg Location.names same
    simp only [Location.names_child, List.cons.injEq] at names
    exact differ ⟨names.2.1, names.1⟩

end Table

end TabStore
