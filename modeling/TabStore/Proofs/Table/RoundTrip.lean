import TabStore.Proofs.Table.Footprint
import TabStore.Proofs.Table.Rewritten
import TabStore.Proofs.Table.Stored

/-!
# Tables stored and loaded

A table of names and literals that is stored in a directory is loaded from there as it is. What the
files held before does not matter, as long as none of the six paths is one of a directory.

Results:
1. `IsOpenTo.replacePart`, `IsOpenTo.replaceParts`: one file is replaced, and all of them are;
2. `load_of_persist_wellFormed`: storing the table succeeds, leaves no temporary file, and loading
   gives the table.
-/

namespace TabStore

/-- A directory in which the files of a table can be replaced: their names and paths are short
enough, and no directory stands where they or their temporary files go. -/
structure Tree.HasPlaceFor (tree : Tree) (table : Table) : Prop where
  isDirectory : tree.isDirectory table.directory = true
  plain : ∀ path ∈ table.paths, tree.isDirectory path = false
  shortPaths : ∀ path ∈ table.paths, path.text.utf8ByteSize ≤ Path.lengthLimit
  shortNames : ∀ part : Part,
    (Part.temporary (part.fileName table.name)).utf8ByteSize ≤ Tree.nameLimit

namespace Table

variable {table : Table} {tree : Tree} {home : Location}

/-- The path of the file that replaces a file of a table. -/
def temporaryPath (table : Table) (part : Part) : Path :=
  (table.partPath part).addExtension temporaryExtension

def fileAt (table : Table) (home : Location) (part : Part) : Location :=
  home.child (part.fileName table.name)

def temporaryAt (table : Table) (home : Location) (part : Part) : Location :=
  home.child (Part.temporary (part.fileName table.name))

/-- The directory of a table is `home`, and no directory in it is in the way of the table. -/
structure IsOpenTo (tree : Tree) (table : Table) (home : Location) : Prop where
  isName : IsName table.name
  valid : ∀ part, (table.partPath part).fault? = none
  validTemporary : ∀ part, (table.temporaryPath part).fault? = none
  short : ∀ part : Part, (Part.temporary (part.fileName table.name)).utf8ByteSize ≤ Tree.nameLimit
  enters : tree.Enters table.directory home
  plain : ∀ part, tree.find? (table.fileAt home part) ≠ some .directory
  plainTemporary : ∀ part, tree.find? (table.temporaryAt home part) ≠ some .directory

theorem resolve_partPath (isName : IsName table.name) (enters : tree.Enters table.directory home)
    {part : Part} (valid : (table.partPath part).fault? = none)
    (short : (Part.temporary (part.fileName table.name)).utf8ByteSize ≤ Tree.nameLimit) :
    tree.resolve (table.partPath part) = .ok (table.fileAt home part) := by
  have shorter : (part.fileName table.name).utf8ByteSize ≤ Tree.nameLimit := by
    rw [Part.temporary, String.utf8ByteSize_append, String.utf8ByteSize_append] at short
    omega
  exact enters.resolve_join (part.isFileName isName) valid shorter

theorem resolve_temporaryPath (isName : IsName table.name)
    (enters : tree.Enters table.directory home) {part : Part}
    (valid : (table.temporaryPath part).fault? = none)
    (short : (Part.temporary (part.fileName table.name)).utf8ByteSize ≤ Tree.nameLimit) :
    tree.resolve (table.temporaryPath part) = .ok (table.temporaryAt home part) :=
  enters.resolve_addExtension (part.isFileName isName)
    (Part.isFileName_temporary (part.isFileName isName)) valid short

theorem exists_isOpenTo (place : tree.HasPlaceFor table) (isName : IsName table.name) :
    ∃ home, IsOpenTo tree table home := by
  obtain ⟨home, resolved, enters⟩ := Tree.exists_enters_of_isDirectory place.isDirectory
  have validDirectory : table.directory.fault? = none := by
    unfold Tree.resolve Tree.follow at resolved
    split at resolved
    · cases resolved
    · next valid => exact valid
  have valid : ∀ part, (table.partPath part).fault? = none := by
    intro part
    have short : (table.directory.join (part.fileName table.name)).text.utf8ByteSize ≤ _ :=
      place.shortPaths _ (partPath_mem_paths part)
    show (table.directory.join (part.fileName table.name)).fault? = none
    rw [Path.fault?_join (part.isFileName isName) validDirectory, if_neg (Nat.not_lt.mpr short)]
  have validTemporary : ∀ part, (table.temporaryPath part).fault? = none := fun part =>
    Path.fault?_addExtension_join (part.isFileName isName)
      (Part.isFileName_temporary (part.isFileName isName)) validDirectory
      (place.shortPaths _ (temporary_mem_paths part))
  refine ⟨home, isName, valid, validTemporary, place.shortNames, enters, fun part => ?_,
    fun part => ?_⟩
  · exact Tree.find?_ne_directory
      (resolve_partPath isName enters (valid part) (place.shortNames part))
      (place.plain _ (partPath_mem_paths part))
  · exact Tree.find?_ne_directory
      (resolve_temporaryPath isName enters (validTemporary part) (place.shortNames part))
      (place.plain _ (temporary_mem_paths part))

namespace IsOpenTo

/-- One file is replaced, its temporary file is gone, and the others can still be replaced. -/
theorem replacePart (isOpen : IsOpenTo tree table home) (part : Part) :
    ∃ next, Change.applyAll (table.replacePart part) tree = (.ok (), next) ∧
      IsOpenTo next table home ∧ ∀ other, next.find? (table.temporaryAt home other) =
        if other = part then none else tree.find? (table.temporaryAt home other) := by
  have isFileName := part.isFileName isOpen.isName
  obtain ⟨next, replaced, enters, found⟩ := isOpen.enters.exists_replacement isFileName
    (Part.isFileName_temporary isFileName) (isOpen.valid part) (isOpen.validTemporary part)
    (isOpen.short part) (isOpen.plain part) (isOpen.plainTemporary part) (table.partText part)
  have foundTemporary : ∀ other, next.find? (table.temporaryAt home other) =
      if other = part then none else tree.find? (table.temporaryAt home other) := by
    intro other
    have same : Part.temporary (other.fileName table.name) =
        part.fileName table.name ++ "." ++ temporaryExtension ↔ other = part := by
      constructor
      · intro same
        have known : temporaryExtension ∈ extensions := by decide
        exact (Part.fileName_inj.mp (append_extension_inj known known same).1).1
      · rintro rfl
        rfl
    rw [temporaryAt, found, if_neg (Part.temporary_ne other part _ _)]
    simp only [same]
  refine ⟨next, replaced, ⟨isOpen.isName, isOpen.valid, isOpen.validTemporary, isOpen.short,
    enters, fun other => ?_, fun other => ?_⟩, foundTemporary⟩
  · rw [fileAt, found]
    split
    · exact nofun
    · split
      · exact nofun
      · exact isOpen.plain other
  · rw [foundTemporary]
    split
    · exact nofun
    · exact isOpen.plainTemporary other

/-- All files are replaced one after the other. -/
theorem replaceParts (isOpen : IsOpenTo tree table home) (parts : List Part) :
    ∃ stored, Change.applyAll (parts.flatMap table.replacePart) tree = (.ok (), stored) ∧
      IsOpenTo stored table home ∧ ∀ part,
        part ∈ parts ∨ tree.find? (table.temporaryAt home part) = none →
          stored.find? (table.temporaryAt home part) = none := by
  induction parts generalizing tree with
  | nil =>
    refine ⟨tree, rfl, isOpen, fun part gone => ?_⟩
    exact gone.resolve_left List.not_mem_nil
  | cons first rest ih =>
    obtain ⟨next, replaced, openNext, found⟩ := isOpen.replacePart first
    obtain ⟨stored, ran, openStored, gone⟩ := ih openNext
    refine ⟨stored, ?_, openStored, fun part cases => gone part ?_⟩
    · rw [List.flatMap_cons, Change.applyAll_append, replaced]
      exact ran
    · rw [found]
      rcases eq_or_ne part first with same | apart
      · exact .inr (if_pos same)
      · rw [if_neg apart]
        exact cases.imp_left fun mem => (List.mem_cons.mp mem).resolve_left apart

end IsOpenTo

/-- A table of names and literals is loaded as it was stored, in any directory that has place for
its files and whatever they held before. -/
theorem load_of_persist_wellFormed (isName : IsName table.name) (wellFormed : table.IsWellFormed)
    (place : tree.HasPlaceFor table) :
    ∃ stored, table.persist tree = (.ok (), stored) ∧
      (∀ file ∈ table.files, stored.contains (file.addExtension temporaryExtension) = false) ∧
      load stored table.directory table.name = .ok table := by
  obtain ⟨home, isOpen⟩ := exists_isOpenTo place isName
  obtain ⟨stored, ran, openStored, gone⟩ := isOpen.replaceParts [.schema, .rows, .sequence]
  have persisted : table.persist tree = (.ok (), stored) := ran
  refine ⟨stored, persisted, fun file mem => ?_, ?_⟩
  · obtain ⟨part, rfl⟩ := mem_files.mp mem
    have resolved := resolve_temporaryPath isName openStored.enters (openStored.validTemporary part)
      (openStored.short part)
    have known : part ∈ [Part.schema, .rows, .sequence] := by cases part <;> decide
    rw [temporaryPath] at resolved
    rw [Tree.contains, Tree.entry_of_resolve resolved, gone part (.inl known)]
    rfl
  · rw [(isFiledAt_of_isName isName).load_of_persist wellFormed.isStorable wellFormed.fits
      persisted, wellFormed.reread_eq]

/-- Ids that fall and repeat, stored over another schema, a record that is no id and a temporary
file that was left behind. -/
theorem load_of_persist_wellFormed_overwriting :
    let rows : List Row := [⟨["7", "'a b'", "-1.5"]⟩, ⟨["2", "True", "''"]⟩, ⟨["2", "0", "1"]⟩]
    let table : Table := ⟨"t", ⟨"d"⟩, ["id", "n", "n"], rows, 7⟩
    let tree := directoryOf [("t.txt", "id\na\n"), ("t.seq", "x"), ("t.tsv.tmp", "1\t2\n")]
    ∃ stored, table.persist tree = (.ok (), stored) ∧
      (∀ file ∈ table.files, stored.contains (file.addExtension temporaryExtension) = false) ∧
      load stored ⟨"d"⟩ "t" = .ok table := by
  intro rows table tree
  have isName : ∀ name ∈ "t" :: table.attributes, validateName name = .ok () := by decide +kernel
  have sound : ∀ row ∈ table.rows, row.width = 3 ∧
      (∀ cell ∈ row.cells.tail, Value.isLiteral cell = true) ∧ ∃ n ≤ 7, row.id = toString n := by
    decide +kernel
  have wellFormed : table.IsWellFormed :=
    ⟨rfl, (List.forall_mem_cons.mp isName).2,
      fun row mem => ⟨(sound row mem).1, (sound row mem).2.1⟩,
      fun row mem => (sound row mem).2.2, by decide⟩
  have place : tree.HasPlaceFor table :=
    ⟨by decide +kernel, by decide +kernel, by decide +kernel, fun part => by cases part <;> decide⟩
  exact load_of_persist_wellFormed (List.forall_mem_cons.mp isName).1 wellFormed place

end Table

end TabStore
