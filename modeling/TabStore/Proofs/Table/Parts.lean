import TabStore.Proofs.Files.Replacement

/-!
# The files of a table

A table is stored in three files. Each of them is replaced as a whole, one after the other, so where
this stops, some files are the new ones and the others are the old ones.

Results:
1. `Part.fileName_inj`, `Part.temporary_ne`: no two files of tables have the same name;
2. `Table.exists_isFiledAt`: whatever its name, the files of a table are entries of one directory;
3. `Table.IsFiledAt.readText_of_begun`: what is read of the files of a table after the first steps
   of storing it.
-/

namespace TabStore

open TabStore.Tree (EntryFits)

/-- The three files of a table. -/
inductive Part
  | schema
  | rows
  | sequence
deriving DecidableEq, Repr

namespace Part

def extension : Part → String
  | schema => Table.schemaExtension
  | rows => "tsv"
  | sequence => "seq"

def fileName (part : Part) (name : String) : String := name ++ "." ++ part.extension

theorem mem_extensions (part : Part) : part.extension ∈ extensions := by
  cases part <;> decide

theorem fileName_inj {part other : Part} {name name' : String} :
    part.fileName name = other.fileName name' ↔ part = other ∧ name = name' := by
  constructor
  · intro same
    obtain ⟨names, parts⟩ := append_extension_inj part.mem_extensions other.mem_extensions same
    refine ⟨?_, names⟩
    cases part <;> cases other <;> first | rfl | exact absurd parts (by decide)
  · rintro ⟨rfl, rfl⟩
    rfl

theorem isFileName_of_isStem (part : Part) {stem : String} (h : IsStem stem) :
    IsFileName (part.fileName stem) :=
  h.addExtension part.mem_extensions

theorem isFileName (part : Part) {name : String} (h : IsName name) :
    IsFileName (part.fileName name) :=
  part.isFileName_of_isStem h.isFileName.isStem

/-- The name of the file that replaces another one. -/
def temporary (fileName : String) : String := fileName ++ "." ++ Table.temporaryExtension

theorem temporary_ne (part other : Part) (name name' : String) :
    temporary (part.fileName name) ≠ other.fileName name' := by
  intro same
  have known : Table.temporaryExtension ∈ extensions := by decide
  have extensions := (append_extension_inj known other.mem_extensions same).2
  cases other <;> exact absurd extensions (by decide)

theorem isFileName_temporary {fileName : String} (h : IsFileName fileName) :
    IsFileName (temporary fileName) :=
  h.addExtension (by decide)

theorem fits_of_temporary {path : Path} {fileName : String} (h : IsFileName fileName)
    (fits : EntryFits path (temporary fileName)) : EntryFits path fileName := by
  obtain ⟨whole, name⟩ := fits
  have longer : fileName.utf8ByteSize ≤ (temporary fileName).utf8ByteSize := by
    simp only [temporary, String.utf8ByteSize_append]
    omega
  rw [Path.join_eq (isFileName_temporary h)] at whole
  rw [EntryFits, Path.join_eq h]
  split
  · next ends =>
    rw [if_pos ends, String.utf8ByteSize_append] at whole
    rw [String.utf8ByteSize_append]
    exact ⟨by omega, by omega⟩
  · next goesOn =>
    rw [if_neg goesOn, String.utf8ByteSize_append] at whole
    rw [String.utf8ByteSize_append]
    exact ⟨by omega, by omega⟩

end Part

namespace Table

def partPath (table : Table) (part : Part) : Path := table.file part.extension

/-- What a file of a table holds. -/
def partText (table : Table) : Part → String
  | .schema => table.schemaText
  | .rows => table.rowsText
  | .sequence => table.sequenceText

def replacePart (table : Table) (part : Part) : List Change :=
  replacement (table.partPath part) (table.partText part)

theorem persistChanges_eq (table : Table) :
    table.persistChanges = [.schema, .rows, .sequence].flatMap table.replacePart := rfl

variable {table : Table} {path : Path} {stem : String} {tree stopped : Tree} {home : Location}
  {parts : List Part} {done : List Change}

/-- The files of a table are entries of one directory, under names of one stem. -/
structure IsFiledAt (table : Table) (path : Path) (stem : String) : Prop where
  isStem : IsStem stem
  partPath_eq : ∀ part, table.partPath part = path.join (part.fileName stem)

theorem isFiledAt_of_isName (isName : IsName table.name) :
    table.IsFiledAt table.directory table.name :=
  ⟨isName.isFileName.isStem, fun _ => rfl⟩

/-- The name of a table may hold separators; its files then lie in the directory that they lead
to. -/
theorem exists_isFiledAt {text : String} (read : tree.readText table.schemaPath = .ok text) :
    ∃ path stem, table.IsFiledAt path stem := by
  obtain ⟨whole, same⟩ := Path.exists_join_extension table.directory table.name
  obtain ⟨directory, stem, rfl, ends, noSeparator⟩ := Path.exists_directory_append whole
  have noNul : '\x00' ∉ stem.toList := by
    obtain ⟨entry, found, -⟩ := bind_eq_ok.mp read
    obtain ⟨location, resolved, -⟩ := bind_eq_ok.mp found
    unfold Tree.resolve Tree.follow at resolved
    split at resolved
    · cases resolved
    · next valid =>
      have free := (Path.fault?_eq_none_iff.mp valid).1
      rw [schemaPath, file, same] at free
      exact fun found => free (by simp [found])
  refine ⟨⟨directory⟩, stem, ⟨noSeparator, noNul⟩, fun part => ?_⟩
  rw [partPath, file, same, Path.join_eq (part.isFileName_of_isStem ⟨noSeparator, noNul⟩),
    if_pos ends, Part.fileName]
  simp only [String.append_assoc]

namespace IsFiledAt

variable {part : Part}

theorem isFileName (filed : table.IsFiledAt path stem) (part : Part) :
    IsFileName (part.fileName stem) :=
  part.isFileName_of_isStem filed.isStem

theorem exists_enters {text : String} (filed : table.IsFiledAt path stem)
    (read : tree.readText (table.partPath part) = .ok text) : ∃ home, tree.Enters path home := by
  rw [filed.partPath_eq] at read
  exact Tree.exists_enters_of_readText (filed.isFileName part) read

theorem readText_of_write {next : Tree} (filed : table.IsFiledAt path stem)
    (enters : tree.Enters path home)
    (written : (Change.write ((table.partPath part).addExtension temporaryExtension)
      (table.partText part)).apply tree = .ok next) (other : Part) :
    next.readText (table.partPath other) = tree.readText (table.partPath other) := by
  have isFileName := filed.isFileName part
  have isTemporary := Part.isFileName_temporary isFileName
  rw [filed.partPath_eq] at written
  rw [filed.partPath_eq]
  exact enters.readText_of_write isFileName isTemporary written (filed.isFileName other)
    (Part.temporary_ne part other _ _).symm

theorem readText_of_replacePart {next : Tree} (filed : table.IsFiledAt path stem)
    (enters : tree.Enters path home)
    (replaced : Change.applyAll (table.replacePart part) tree = (.ok (), next)) :
    next.Enters path home ∧ ∀ other, next.readText (table.partPath other) =
      if other = part then .ok (table.partText part) else tree.readText (table.partPath other) := by
  have isFileName := filed.isFileName part
  rw [replacePart, filed.partPath_eq] at replaced
  obtain ⟨entersNext, read⟩ :=
    enters.readText_of_replacement isFileName (Part.isFileName_temporary isFileName) replaced
  refine ⟨entersNext, fun other => ?_⟩
  have readOther : next.readText (table.partPath other) =
      if other.fileName stem = part.fileName stem then .ok (table.partText part)
      else tree.readText (table.partPath other) := by
    rw [filed.partPath_eq]
    exact read _ (filed.isFileName other) (Part.temporary_ne part other _ _).symm
  simpa only [Part.fileName_inj, and_true] using readOther

/-- After the first steps of replacing files, those whose two steps are both done are read as the
new ones, and the others as they were before. -/
theorem readText_of_begun (filed : table.IsFiledAt path stem) (enters : tree.Enters path home)
    (begun : done <+: parts.flatMap table.replacePart)
    (ran : Change.applyAll done tree = (.ok (), stopped)) :
    ∀ part, stopped.readText (table.partPath part) =
      if part ∈ parts.take (done.length / 2) then .ok (table.partText part)
      else tree.readText (table.partPath part) := by
  induction parts generalizing tree done with
  | nil =>
    rw [List.flatMap_nil, List.prefix_nil] at begun
    subst begun
    cases ran
    exact fun _ => rfl
  | cons part rest ih =>
    rw [List.flatMap_cons, replacePart, replacement, List.cons_append, List.cons_append,
      List.nil_append] at begun
    match done, begun with
    | [], _ =>
      cases ran
      exact fun _ => rfl
    | [change], begun =>
      rw [List.cons_prefix_cons] at begun
      rw [begun.1] at ran
      obtain ⟨next, written, ran⟩ := Change.applyAll_cons_eq_ok.mp ran
      cases ran
      intro other
      rw [if_neg (by simp)]
      exact filed.readText_of_write enters written other
    | first :: second :: later, begun =>
      rw [List.cons_prefix_cons, List.cons_prefix_cons] at begun
      obtain ⟨rfl, rfl, begun⟩ := begun
      obtain ⟨between, written, ran⟩ := Change.applyAll_cons_eq_ok.mp ran
      obtain ⟨next, renamed, ran⟩ := Change.applyAll_cons_eq_ok.mp ran
      have replaced : Change.applyAll (table.replacePart part) tree = (.ok (), next) :=
        Change.applyAll_cons_eq_ok.mpr ⟨between, written,
          Change.applyAll_cons_eq_ok.mpr ⟨next, renamed, rfl⟩⟩
      obtain ⟨entersNext, readNext⟩ := filed.readText_of_replacePart enters replaced
      intro other
      have count : (later.length + 1 + 1) / 2 = later.length / 2 + 1 := by omega
      rw [ih entersNext begun ran, readNext, List.length_cons, List.length_cons, count,
        List.take_succ_cons]
      rcases eq_or_ne other part with rfl | apart
      · simp
      · simp [apart]

/-- Where storing a table stops, some of its files are the new ones, the first ones. -/
theorem readText_of_stopsIn (filed : table.IsFiledAt path stem) (enters : tree.Enters path home)
    (stops : Change.StopsIn table.persistChanges tree stopped) :
    ∃ count, ∀ part, stopped.readText (table.partPath part) =
      if part ∈ [Part.schema, .rows, .sequence].take count then .ok (table.partText part)
      else tree.readText (table.partPath part) := by
  obtain ⟨done, begun, ran⟩ := stops
  rw [persistChanges_eq] at begun
  exact ⟨_, filed.readText_of_begun enters begun ran⟩

/-- A table that is stored to the end has all its files. -/
theorem readText_of_persist {finished : Tree} (filed : table.IsFiledAt path stem)
    (stored : table.persist tree = (.ok (), finished)) (part : Part) :
    finished.readText (table.partPath part) = .ok (table.partText part) := by
  have isFileName := filed.isFileName .schema
  obtain ⟨next, written, -⟩ := Change.applyAll_cons_eq_ok.mp stored
  obtain ⟨location, resolved, -⟩ := bind_eq_ok.mp written
  have schema := filed.partPath_eq .schema
  rw [show table.schemaPath = _ from schema] at resolved
  obtain ⟨home, enters⟩ := Tree.exists_enters_of_resolve_addExtension isFileName
    (Part.isFileName_temporary isFileName) resolved
  have begun : table.persistChanges <+: [.schema, .rows, .sequence].flatMap table.replacePart :=
    List.prefix_refl _
  refine (filed.readText_of_begun enters begun stored part).trans (if_pos ?_)
  have steps : table.persistChanges.length = 6 := rfl
  rw [steps]
  cases part <;> decide

end IsFiledAt

end Table

end TabStore
