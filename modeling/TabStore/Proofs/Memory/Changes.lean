import TabStore.Proofs.Memory.Represents

/-!
# Changes of the files of a store

What storing and removing tables and databases do to a tree in which a database has its place, and
which store the tree represents afterwards.

Results:
1. `Site.Offers.persist`: storing a table sets its three files, or does nothing at all;
2. `Site.Offers.removeFiles`: removing a table erases its files;
3. `Represents.putTable`, `Represents.dropTable`, `Represents.putDatabase`,
   `Represents.dropDatabase`: the tree still represents a store, the one with the same change.
-/

namespace TabStore

open TabStore.Tree (EntryFits LeadsTo DistinctBelow)

namespace Site

variable {site : Site} {tree : Tree} {db name : String} {contents : Contents} {location : Location}

/-- A tree in which the files of a database can be replaced one by one. -/
structure Offers (site : Site) (tree : Tree) (db : String) : Prop where
  isName : IsName db
  fits : EntryFits site.root db
  outside : site.origin.AgreesOutside site.home tree
  directory : tree.find? (site.database db) = some .directory
  plain : ∀ part name, tree.find? (site.file db part name) ≠ some .directory
  settled : ∀ entry ∈ tree.entries, ∀ part name, entry.1 ≠ site.temporary db part name

/-- The tree with the files of a table. -/
def putTable (site : Site) (tree : Tree) (db name : String) (contents : Contents) : Tree :=
  let put (tree : Tree) (part : Part) : Tree :=
    tree.insert (site.file db part name) (.file (.text (part.text contents)))
  put (put (put tree .schema) .rows) .sequence

/-- The tree without the files of a table. -/
def dropTable (site : Site) (tree : Tree) (db name : String) : Tree :=
  ((tree.erase (site.file db .schema name)).erase (site.file db .rows name)).erase
    (site.file db .sequence name)

theorem file_names_ne_nil {part : Part} : (site.file db part name).names ≠ [] :=
  List.cons_ne_nil _ _

theorem find?_putTable_self (part : Part) :
    (site.putTable tree db name contents).find? (site.file db part name) =
      some (.file (.text (part.text contents))) := by
  have apart : ∀ {one other : Part}, one ≠ other →
      site.file db one name ≠ site.file db other name := fun ne same => ne (file_inj.mp same).2.1
  unfold putTable
  cases part with
  | schema =>
    rw [Tree.find?_insert_of_ne _ (apart (by decide)),
      Tree.find?_insert_of_ne _ (apart (by decide)), Tree.find?_insert_self _ file_names_ne_nil]
  | rows =>
    rw [Tree.find?_insert_of_ne _ (apart (by decide)), Tree.find?_insert_self _ file_names_ne_nil]
  | sequence => rw [Tree.find?_insert_self _ file_names_ne_nil]

theorem find?_putTable_of_ne (apart : ∀ part, location ≠ site.file db part name) :
    (site.putTable tree db name contents).find? location = tree.find? location := by
  unfold putTable
  rw [Tree.find?_insert_of_ne _ (apart _), Tree.find?_insert_of_ne _ (apart _),
    Tree.find?_insert_of_ne _ (apart _)]

theorem mem_putTable {entry : Location × Entry}
    (mem : entry ∈ (site.putTable tree db name contents).entries) :
    (∃ part, entry.1 = site.file db part name) ∨ entry ∈ tree.entries := by
  rcases Tree.mem_insert mem with new | mem
  · exact .inl ⟨_, new⟩
  rcases Tree.mem_insert mem with new | mem
  · exact .inl ⟨_, new⟩
  rcases Tree.mem_insert mem with new | mem
  · exact .inl ⟨_, new⟩
  exact .inr mem

/-- The files of a table that hold its contents stay as they are. -/
theorem putTable_of_files (files : ∀ part : Part,
    tree.find? (site.file db part name) = some (.file (.text (part.text contents)))) :
    site.putTable tree db name contents = tree := by
  unfold putTable
  dsimp only
  rw [Tree.insert_of_find? file_names_ne_nil (files .schema),
    Tree.insert_of_find? file_names_ne_nil (files .rows),
    Tree.insert_of_find? file_names_ne_nil (files .sequence)]

theorem find?_dropTable_self (part : Part) :
    (site.dropTable tree db name).find? (site.file db part name) = none := by
  have apart : ∀ {one other : Part}, one ≠ other →
      site.file db one name ≠ site.file db other name := fun ne same => ne (file_inj.mp same).2.1
  unfold dropTable
  cases part with
  | schema =>
    rw [Tree.find?_erase_of_ne _ (apart (by decide)), Tree.find?_erase_of_ne _ (apart (by decide)),
      Tree.find?_erase_self _ file_names_ne_nil]
  | rows =>
    rw [Tree.find?_erase_of_ne _ (apart (by decide)), Tree.find?_erase_self _ file_names_ne_nil]
  | sequence => rw [Tree.find?_erase_self _ file_names_ne_nil]

theorem find?_dropTable_of_ne (apart : ∀ part, location ≠ site.file db part name) :
    (site.dropTable tree db name).find? location = tree.find? location := by
  unfold dropTable
  rw [Tree.find?_erase_of_ne _ (apart _), Tree.find?_erase_of_ne _ (apart _),
    Tree.find?_erase_of_ne _ (apart _)]

theorem mem_of_mem_dropTable {entry : Location × Entry}
    (mem : entry ∈ (site.dropTable tree db name).entries) : entry ∈ tree.entries := by
  simp only [dropTable, Tree.erase, List.mem_filter] at mem
  exact mem.1.1.1

theorem covers_database {other : String} :
    (site.database db).covers (site.database other) = decide (db = other) := by
  rw [Bool.eq_iff_iff, Tree.covers_iff, decide_eq_true_iff]
  constructor
  · rintro ⟨-, rest, same⟩
    have sameAppend : [] ++ (other :: site.home.names) = rest ++ (db :: site.home.names) := same
    exact (List.cons.inj (List.append_inj_right' sameAppend rfl)).1.symm
  · rintro rfl
    exact ⟨rfl, [], rfl⟩

theorem covers_file {other : String} {part : Part} :
    (site.database db).covers (site.file other part name) = decide (db = other) := by
  rw [Bool.eq_iff_iff, Tree.covers_iff, decide_eq_true_iff]
  constructor
  · rintro ⟨-, rest, same⟩
    have sameAppend : [part.fileName name] ++ (other :: site.home.names) =
        rest ++ (db :: site.home.names) := same
    exact (List.cons.inj (List.append_inj_right' sameAppend rfl)).1.symm
  · rintro rfl
    exact ⟨rfl, [part.fileName name], rfl⟩

/-! ### Steps of a change -/

namespace Offers

variable {part : Part} {text : String}

theorem leads (h : site.Offers tree db) : tree.LeadsTo (site.root.join db) (site.database db) :=
  (site.anchored tree h.outside).1.child h.isName.isFileName h.fits h.directory

/-- Setting a file keeps the place of the database. -/
theorem insert (h : site.Offers tree db) (part : Part) (name text : String) :
    site.Offers (tree.insert (site.file db part name) (.file (.text text))) db where
  isName := h.isName
  fits := h.fits
  outside := h.outside.insert isAbove_file _
  directory := by
    have apart : site.database db ≠ site.file db part name := database_ne_child
    rw [Tree.find?_insert_of_ne _ apart]
    exact h.directory
  plain := by
    intro other otherName
    by_cases same : site.file db other otherName = site.file db part name
    · rw [same, Tree.find?_insert_self _ file_names_ne_nil]
      exact fun contra => Entry.noConfusion (Option.some.inj contra)
    · rw [Tree.find?_insert_of_ne _ same]
      exact h.plain other otherName
  settled := by
    intro entry mem other otherName same
    rcases Tree.mem_insert mem with new | old
    · exact temporary_ne_file (same.symm.trans new)
    · exact h.settled entry old other otherName same

theorem erase (h : site.Offers tree db) (part : Part) (name : String) :
    site.Offers (tree.erase (site.file db part name)) db where
  isName := h.isName
  fits := h.fits
  outside := h.outside.erase isAbove_file
  directory := by
    have apart : site.database db ≠ site.file db part name := database_ne_child
    rw [Tree.find?_erase_of_ne _ apart]
    exact h.directory
  plain := by
    intro other otherName
    by_cases same : site.file db other otherName = site.file db part name
    · rw [same, Tree.find?_erase_self _ file_names_ne_nil]
      exact nofun
    · rw [Tree.find?_erase_of_ne _ same]
      exact h.plain other otherName
  settled := fun entry mem => h.settled entry (List.mem_filter.mp mem).1

theorem path_temporary (h : site.Offers tree db) (isName : IsName name) :
    ((site.root.join db).join (part.fileName name)).addExtension Table.temporaryExtension =
      (site.root.join db).join (Part.temporary (part.fileName name)) :=
  Path.addExtension_join h.isName.isFileName (part.isFileName isName)

/-- A file is replaced and the file that was written first is gone. -/
theorem replace (h : site.Offers tree db) (isName : IsName name)
    (fits : EntryFits (site.root.join db) (Part.temporary (part.fileName name)))
    (rest : List Change) :
    Change.applyAll (Table.replacement ((site.root.join db).join (part.fileName name)) text ++ rest)
        tree =
      Change.applyAll rest (tree.insert (site.file db part name) (.file (.text text))) := by
  have isFileName := part.isFileName isName
  have isTemporary := Part.isFileName_temporary isFileName
  have absent : ∀ entry ∈ tree.entries, entry.1 ≠ site.temporary db part name :=
    fun entry mem => h.settled entry mem part name
  have free := Tree.find?_eq_none_of_not_mem (List.cons_ne_nil _ _) absent
  have written := h.leads.write_join isTemporary fits (by rw [← temporary, free]; exact nofun) text
  -- The directory is still there when the new file stands beside the old one.
  have kept : site.database db ≠ site.temporary db part name := database_ne_child
  have apart : site.file db part name ≠ site.temporary db part name :=
    fun same => temporary_ne_file same.symm
  have leads : (tree.insert (site.temporary db part name) (.file (.text text))).LeadsTo
      (site.root.join db) (site.database db) := by
    refine (site.anchored _ (h.outside.insert isAbove_temporary _)).1.child h.isName.isFileName
      h.fits ?_
    exact (Tree.find?_insert_of_ne _ kept _).trans h.directory
  have found := @Tree.find?_insert_self tree (site.temporary db part name) (List.cons_ne_nil _ _)
    (.file (.text text))
  have plain : (tree.insert (site.temporary db part name) (.file (.text text))).find?
      (site.file db part name) ≠ some .directory := by
    rw [Tree.find?_insert_of_ne _ apart]
    exact h.plain part name
  have renamed := leads.rename_join isTemporary isFileName fits
    (Part.fits_of_temporary isFileName fits) found plain
  rw [← temporary, Tree.erase_insert, Tree.erase_of_not_mem absent] at renamed
  rw [Table.replacement, h.path_temporary isName, List.cons_append, Change.applyAll, written]
  dsimp only
  rw [← temporary, List.cons_append, Change.applyAll, renamed]
  rfl

/-- Without room for the new file nothing is written. -/
theorem replace_of_not_fits (h : site.Offers tree db) (isName : IsName name)
    (long : ¬ EntryFits (site.root.join db) (Part.temporary (part.fileName name)))
    (rest : List Change) :
    ∃ e, Change.applyAll
      (Table.replacement ((site.root.join db).join (part.fileName name)) text ++ rest) tree =
        (.error e, tree) := by
  have isTemporary := Part.isFileName_temporary (part.isFileName isName)
  have failed := h.leads.write_join_of_not_fits isTemporary long text
  rw [Table.replacement, h.path_temporary isName, List.cons_append, Change.applyAll, failed]
  exact ⟨_, rfl⟩

/-- All files of a table have room, or none of them has. -/
theorem fits_temporary_iff (isName : IsName name) {path : Path} (part other : Part) :
    EntryFits path (Part.temporary (part.fileName name)) ↔
      EntryFits path (Part.temporary (other.fileName name)) := by
  have size : ∀ part : Part, (Part.temporary (part.fileName name)).utf8ByteSize =
      name.utf8ByteSize + 8 := by
    intro part
    have extension : part.extension.utf8ByteSize = 3 := by cases part <;> rfl
    have temporary : Table.temporaryExtension.utf8ByteSize = 3 := rfl
    have dot : ".".utf8ByteSize = 1 := rfl
    simp only [Part.temporary, Part.fileName, String.utf8ByteSize_append]
    omega
  have isFileName := Part.isFileName_temporary (part.isFileName isName)
  have isFileNameOther := Part.isFileName_temporary (other.isFileName isName)
  rw [EntryFits, EntryFits, Path.join_eq isFileName, Path.join_eq isFileNameOther]
  split
  · simp only [String.utf8ByteSize_append, size]
  · simp only [String.utf8ByteSize_append, size]

variable {table : Table}

/-- Storing a table sets its three files. -/
theorem persist (h : site.Offers tree db) (isName : IsName table.name)
    (placed : table.directory = site.root.join db)
    (fits : EntryFits (site.root.join db) (Part.temporary (Part.schema.fileName table.name))) :
    table.persist tree = (.ok (), site.putTable tree db table.name (.ofTable table)) := by
  have room : ∀ part : Part,
      EntryFits (site.root.join db) (Part.temporary (part.fileName table.name)) :=
    fun part => (fits_temporary_iff isName part .schema).mpr fits
  have files : table.persistChanges =
      Table.replacement ((site.root.join db).join (Part.schema.fileName table.name))
          (Part.schema.text (.ofTable table)) ++
        (Table.replacement ((site.root.join db).join (Part.rows.fileName table.name))
            (Part.rows.text (.ofTable table)) ++
          (Table.replacement ((site.root.join db).join (Part.sequence.fileName table.name))
            (Part.sequence.text (.ofTable table)) ++ [])) := by
    rw [← placed, List.append_nil, ← List.append_assoc]
    rfl
  have first := h.insert .schema table.name (Part.schema.text (.ofTable table))
  have second := first.insert .rows table.name (Part.rows.text (.ofTable table))
  -- Each file is replaced in the tree that the one before it has left.
  rw [Table.persist, files, h.replace isName (room .schema), first.replace isName (room .rows),
    second.replace isName (room .sequence)]
  rfl

theorem persist_of_not_fits (h : site.Offers tree db) (isName : IsName table.name)
    (placed : table.directory = site.root.join db)
    (long : ¬ EntryFits (site.root.join db) (Part.temporary (Part.schema.fileName table.name))) :
    ∃ e, table.persist tree = (.error e, tree) := by
  have files : ∃ rest, table.persistChanges =
      Table.replacement ((site.root.join db).join (Part.schema.fileName table.name))
        (Part.schema.text (.ofTable table)) ++ rest := by
    rw [← placed]
    exact ⟨_, List.append_assoc _ _ _⟩
  obtain ⟨rest, files⟩ := files
  rw [Table.persist, files]
  exact h.replace_of_not_fits isName long rest

/-- Removing a table erases its files. -/
theorem removeEach (h : site.Offers tree db) (isName : IsName name)
    (fits : ∀ part : Part, EntryFits (site.root.join db) (part.fileName name))
    (present : ∀ part, ∃ content, tree.find? (site.file db part name) = some (.file content)) :
    Table.removeEach [(site.root.join db).join (Part.schema.fileName name),
      (site.root.join db).join (Part.rows.fileName name),
      (site.root.join db).join (Part.sequence.fileName name)] tree =
        (.ok (), site.dropTable tree db name) := by
  obtain ⟨schema, foundSchema⟩ := present .schema
  obtain ⟨rows, foundRows⟩ := present .rows
  obtain ⟨sequence, foundSequence⟩ := present .sequence
  have apart : ∀ one other : Part, one ≠ other →
      site.file db one name ≠ site.file db other name :=
    fun _ _ ne same => ne (file_inj.mp same).2.1
  have first := h.erase .schema name
  have second := first.erase .rows name
  rw [← Tree.find?_erase_of_ne _ (apart .rows .schema (by decide))] at foundRows
  rw [← Tree.find?_erase_of_ne tree (apart .sequence .schema (by decide)),
    ← Tree.find?_erase_of_ne _ (apart .sequence .rows (by decide))] at foundSequence
  have removeSchema := h.leads.remove_join (Part.schema.isFileName isName) (fits .schema)
    foundSchema
  have removeRows := first.leads.remove_join (Part.rows.isFileName isName) (fits .rows) foundRows
  have removeSequence := second.leads.remove_join (Part.sequence.isFileName isName) (fits .sequence)
    foundSequence
  rw [← file] at removeSchema removeRows removeSequence
  rw [Table.removeEach, removeSchema]
  dsimp only
  rw [Table.removeEach, removeRows]
  dsimp only
  rw [Table.removeEach, removeSequence]
  rfl

end Offers

end Site

/-! ## The store after a change -/

namespace Represents

variable {site : Site} {tree : Tree} {store : Store} {db name : String}
  {tables : Tables} {location : Location}

theorem offers (h : Represents site tree store) (sound : site.IsSoundStore store)
    (found : store.lookup db = some tables) : site.Offers tree db where
  isName := sound.isName db (mem_of_lookup found)
  fits := sound.fits db (mem_of_lookup found)
  outside := h.outside
  directory := (h.databases db).trans (if_pos (mem_of_lookup found))
  plain := by
    intro part name
    rw [h.files db tables found part name]
    cases tables.lookup name with
    | none => exact nofun
    | some contents => exact nofun
  settled := by
    rintro ⟨location, entry⟩ mem part name same
    dsimp only at same
    have below : site.home.IsAbove location := same ▸ Site.isAbove_temporary
    have held := h.located _ mem below
    dsimp only at held
    cases held with
    | database _ => exact Site.database_ne_child same
    | file _ _ _ => exact Site.temporary_ne_file same.symm

/-- What is held away from a changed table is still held. -/
theorem holds_change (found : store.lookup db = some tables) {changed : Tables}
    (others : ∀ other, other ≠ name → changed.lookup other = tables.lookup other)
    (apart : ∀ part, location ≠ site.file db part name) (held : site.Holds store location) :
    site.Holds (store.insert db changed) location := by
  cases held with
  | database present => exact .database ((AList.mem_insert _).mpr (.inr present))
  | @file other otherName otherTables part foundOther present =>
    by_cases same : other = db
    · subst same
      rw [found] at foundOther
      cases foundOther
      have ne : otherName ≠ name := by
        rintro rfl
        exact apart part rfl
      refine .file part (AList.lookup_insert _) (AList.lookup_isSome.mp ?_)
      rw [others otherName ne]
      exact AList.lookup_isSome.mpr present
    · exact .file part ((AList.lookup_insert_ne same).trans foundOther) present

/-- A tree in which only the files of one table have changed. -/
theorem changeTable (h : Represents site tree store) (name : String)
    (found : store.lookup db = some tables) {after : Tree} {changed : Tables}
    (outside : site.origin.AgreesOutside site.home after) (distinct : DistinctBelow site.home after)
    (mem_after : ∀ entry ∈ after.entries, entry ∈ tree.entries ∨
      ∃ part, entry.1 = site.file db part name)
    (unchanged : ∀ location, (∀ part, location ≠ site.file db part name) →
      after.find? location = tree.find? location)
    (files : ∀ part, after.find? (site.file db part name) =
      (changed.lookup name).map fun contents => .file (.text (part.text contents)))
    (others : ∀ other, other ≠ name → changed.lookup other = tables.lookup other) :
    Represents site after (store.insert db changed) where
  outside := outside
  distinct := distinct
  located := by
    intro entry mem below
    by_cases here : ∃ part, entry.1 = site.file db part name
    · obtain ⟨part, same⟩ := here
      -- An entry at a file of the table is there because the table is.
      have some := Tree.find?_eq_some_of_mem Site.file_names_ne_nil ⟨entry, mem, same⟩
      rw [files part, Option.isSome_map] at some
      rw [same]
      exact .file part (AList.lookup_insert _) (AList.lookup_isSome.mp some)
    · have old := (mem_after entry mem).resolve_right here
      have apart := fun part same => here ⟨part, same⟩
      exact holds_change found others apart (h.located entry old below)
  databases := by
    intro other
    have present : other ∈ store.insert db changed ↔ other ∈ store := by
      rw [AList.mem_insert]
      constructor
      · rintro (rfl | mem)
        · exact mem_of_lookup found
        · exact mem
      · exact .inr
    rw [unchanged _ fun part => Site.database_ne_child, h.databases other]
    simp only [present]
  files := by
    intro other otherTables foundOther part otherName
    by_cases here : other = db ∧ otherName = name
    · obtain ⟨rfl, rfl⟩ := here
      rw [AList.lookup_insert] at foundOther
      cases foundOther
      exact files part
    · rw [unchanged _ fun _ same =>
        here ⟨(Site.file_inj.mp same).1, (Site.file_inj.mp same).2.2⟩]
      rcases lookup_insert_eq_some.mp foundOther with ⟨rfl, rfl⟩ | ⟨-, old⟩
      · rw [others otherName fun contra => here ⟨rfl, contra⟩]
        exact h.files other tables found part otherName
      · exact h.files other otherTables old part otherName

theorem putTable (h : Represents site tree store) (found : store.lookup db = some tables)
    (contents : Contents) : Represents site (site.putTable tree db name contents)
      (store.insert db (tables.insert name contents)) := by
  refine h.changeTable name found ?_ ?_ ?_ ?_ ?_ ?_
  · exact ((h.outside.insert Site.isAbove_file _).insert Site.isAbove_file _).insert
      Site.isAbove_file _
  · exact ((h.distinct.insert _ _).insert _ _).insert _ _
  · exact fun entry mem => (Site.mem_putTable mem).symm
  · exact fun location apart => Site.find?_putTable_of_ne apart
  · intro part
    rw [Site.find?_putTable_self, AList.lookup_insert]
    rfl
  · exact fun other apart => AList.lookup_insert_ne apart

theorem dropTable (h : Represents site tree store) (found : store.lookup db = some tables) :
    Represents site (site.dropTable tree db name) (store.insert db (tables.erase name)) := by
  refine h.changeTable name found ?_ ?_ ?_ ?_ ?_ ?_
  · exact ((h.outside.erase Site.isAbove_file).erase Site.isAbove_file).erase Site.isAbove_file
  · exact h.distinct.filter.filter.filter
  · exact fun entry mem => .inl (Site.mem_of_mem_dropTable mem)
  · exact fun location apart => Site.find?_dropTable_of_ne apart
  · intro part
    rw [Site.find?_dropTable_self, AList.lookup_erase]
    rfl
  · exact fun other apart => AList.lookup_erase_ne apart

/-! ### Databases -/

theorem createDatabase (h : Represents site tree store) (sound : site.IsSoundStore store)
    (isName : IsName db) (absent : db ∉ store) (fits : EntryFits site.root db) :
    (Database.under site.root db).create tree =
      (.ok (), tree.insert (site.database db) .directory) := by
  have free : tree.find? (site.home.child db) = none := (h.databases db).trans (if_neg absent)
  have made := h.leads.makeDirectory_join isName.isFileName fits free
  have contained := (h.isPresent sound isName).2
  rw [decide_eq_false absent] at contained
  show (if tree.contains (site.root.join db) then _ else
    Change.applyAll [.makeDirectory (site.root.join db)] tree) = _
  rw [contained, if_neg (by decide), Change.applyAll, made]
  rfl

theorem createDatabase_of_not_fits (h : Represents site tree store)
    (sound : site.IsSoundStore store) (isName : IsName db) (absent : db ∉ store)
    (long : ¬ EntryFits site.root db) :
    (Database.under site.root db).create tree =
      (.error (.fileFailure ("creating " ++ (site.root.join db).text) .nameTooLong), tree) := by
  have failed := h.leads.makeDirectory_join_of_not_fits isName.isFileName long
  have contained := (h.isPresent sound isName).2
  rw [decide_eq_false absent] at contained
  show (if tree.contains (site.root.join db) then _ else
    Change.applyAll [.makeDirectory (site.root.join db)] tree) = _
  rw [contained, if_neg (by decide), Change.applyAll, failed]
  rfl

theorem putDatabase (h : Represents site tree store) (absent : db ∉ store) :
    Represents site (tree.insert (site.database db) .directory) (store.insert db ∅) where
  outside := h.outside.insert Site.isAbove_database _
  distinct := h.distinct.insert _ _
  located := by
    rintro ⟨location, entry⟩ mem below
    rcases Tree.mem_insert mem with new | old
    · rw [new]
      exact .database ((AList.mem_insert _).mpr (.inl rfl))
    · have held := h.located _ old below
      dsimp only at held ⊢
      cases held with
      | database present => exact .database ((AList.mem_insert _).mpr (.inr present))
      | @file other otherName otherTables part found present =>
        have apart : other ≠ db := by
          rintro rfl
          exact absent (mem_of_lookup found)
        exact .file part ((AList.lookup_insert_ne apart).trans found) present
  databases := by
    intro other
    by_cases same : other = db
    · subst same
      rw [Tree.find?_insert_self _ (List.cons_ne_nil _ _), if_pos]
      exact (AList.mem_insert _).mpr (.inl rfl)
    · have apart : site.database other ≠ site.database db :=
        fun contra => same (Site.database_inj.mp contra)
      rw [Tree.find?_insert_of_ne _ apart, h.databases other]
      simp only [AList.mem_insert, same, false_or]
  files := by
    intro other otherTables found part name
    have apart : site.file other part name ≠ site.database db :=
      fun contra => Site.database_ne_child contra.symm
    rw [Tree.find?_insert_of_ne _ apart]
    rcases lookup_insert_eq_some.mp found with ⟨rfl, rfl⟩ | ⟨-, old⟩
    · -- No file was left where the new database is.
      refine Tree.find?_eq_none_of_not_mem Site.file_names_ne_nil fun entry mem here => ?_
      have held := h.located entry mem (here ▸ Site.isAbove_file)
      rw [here] at held
      generalize location : site.file other part name = place at held
      cases held with
      | database _ => exact Site.database_ne_child location.symm
      | file _ foundOther _ =>
        obtain ⟨rfl, -⟩ := Site.file_inj.mp location
        exact absent (mem_of_lookup foundOther)
    · exact h.files other otherTables old part name

theorem removeDatabase (h : Represents site tree store) (sound : site.IsSoundStore store)
    (mem : db ∈ store) : (Database.under site.root db).remove tree =
      (.ok (), tree.eraseBelow (site.database db)) := by
  have isFileName := (sound.isName db mem).isFileName
  have fits := sound.fits db mem
  have directory : tree.find? (site.home.child db) = some .directory :=
    (h.databases db).trans (if_pos mem)
  have cleared := h.leads.clearDirectory_join isFileName fits directory
  have below : site.home.IsAbove (site.database db) := Site.isAbove_database
  have leads := (site.anchored _ (h.outside.clear below)).1
  have removed := leads.removeDirectory_join isFileName fits
    (Tree.find?_clear_self.trans directory)
  have present := (h.isPresent sound (sound.isName db mem)).1
  rw [decide_eq_true mem] at present
  rw [Database.remove, present, if_pos rfl]
  show Change.applyAll [.clearDirectory (site.root.join db), .removeDirectory (site.root.join db)]
    tree = _
  rw [Change.applyAll, cleared]
  dsimp only
  rw [Change.applyAll, ← Site.database, removed, ← Site.database, Tree.eraseBelow_clear]
  rfl

theorem dropDatabase (h : Represents site tree store) :
    Represents site (tree.eraseBelow (site.database db)) (store.erase db) where
  outside := h.outside.eraseBelow Site.isAbove_database
  distinct := h.distinct.filter
  located := by
    rintro ⟨location, entry⟩ mem below
    obtain ⟨old, kept⟩ := List.mem_filter.mp mem
    have held := h.located _ old below
    dsimp only at held kept ⊢
    rw [Bool.not_eq_true'] at kept
    cases held with
    | database present =>
      rw [Site.covers_database, decide_eq_false_iff_not] at kept
      exact .database (AList.mem_erase.mpr ⟨fun same => kept same.symm, present⟩)
    | file part found present =>
      rw [Site.covers_file, decide_eq_false_iff_not] at kept
      have apart := AList.lookup_erase_ne (s := store) fun same => kept same.symm
      exact .file part (apart.trans found) present
  databases := by
    intro other
    rw [Tree.find?_eraseBelow (List.cons_ne_nil _ _), h.databases other, Site.covers_database]
    by_cases same : db = other
    · subst same
      simp [AList.mem_erase]
    · simp [AList.mem_erase, same, Ne.symm same]
  files := by
    intro other otherTables found part name
    obtain ⟨apart, old⟩ := lookup_erase_eq_some.mp found
    rw [Tree.find?_eraseBelow Site.file_names_ne_nil, Site.covers_file,
      decide_eq_false (Ne.symm apart)]
    exact h.files other otherTables old part name

end Represents

end TabStore
