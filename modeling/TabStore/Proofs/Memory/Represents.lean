import TabStore.Proofs.Files.Listing
import TabStore.Proofs.Memory.Basic
import TabStore.Proofs.Table.Stored
import TabStore.Proofs.Table.Parts

/-!
# Trees that represent a store

When the files below a root hold exactly what a store in memory holds: one directory for each
database, and in it three files for each table.

Results:
1. `Represents.find`, `Represents.tables`, `Represents.load`: what the files are read as is what the
   store holds;
2. `Represents.createDatabase`, `Represents.removeDatabase`: the directory of a database comes and
   goes with the database.
-/

namespace TabStore

open TabStore.Tree (EntryFits LeadsTo DistinctBelow PlacedBelow)

/-- What a file of a table with these contents holds. -/
def Part.text (part : Part) (contents : Contents) : String :=
  match part with
  | .schema => Text.unlines contents.attributes
  | .rows => Text.unlines (contents.rows.map Row.line)
  | .sequence => Text.unlines [toString contents.lastId]

/-! ## Sites -/

/-- A path and the location that it leads to in every tree that differs from `origin` only below
that location. -/
structure Site where
  root : Path
  home : Location
  origin : Tree
  anchored : ∀ other, origin.AgreesOutside home other →
    other.LeadsTo root home ∧ other.resolve root = .ok home ∧ other.find? home = some .directory

namespace Site

def database (site : Site) (db : String) : Location := site.home.child db

def file (site : Site) (db : String) (part : Part) (name : String) : Location :=
  (site.database db).child (part.fileName name)

/-- The file that replaces a file of a table. -/
def temporary (site : Site) (db : String) (part : Part) (name : String) : Location :=
  (site.database db).child (Part.temporary (part.fileName name))

variable {site : Site} {db db' name name' : String} {part part' : Part}

theorem isAbove_database : site.home.IsAbove (site.database db) := Location.isAbove_child

theorem isAbove_file : site.home.IsAbove (site.file db part name) := isAbove_database.child

theorem isAbove_temporary : site.home.IsAbove (site.temporary db part name) :=
  isAbove_database.child

theorem database_inj : site.database db = site.database db' ↔ db = db' := Location.child_inj

theorem child_database_inj {entry entry' : String} :
    (site.database db).child entry = (site.database db').child entry' ↔
      db = db' ∧ entry = entry' := by
  simp [database, Location.child, and_comm]

theorem file_inj : site.file db part name = site.file db' part' name' ↔
    db = db' ∧ part = part' ∧ name = name' := by
  rw [file, file, child_database_inj, Part.fileName_inj]

theorem temporary_ne_file : site.temporary db part name ≠ site.file db' part' name' := by
  intro same
  exact Part.temporary_ne part part' name name' (child_database_inj.mp same).2

theorem database_ne_child {entry : String} :
    site.database db ≠ (site.database db').child entry := by
  intro same
  have lengths := congrArg (List.length ∘ Location.names) same
  simp [database, Location.child] at lengths

end Site

/-! ## Stores on files -/

/-- The locations at which there is something for a store. -/
inductive Site.Holds (site : Site) (store : Store) : Location → Prop
  | database {db : String} : db ∈ store → site.Holds store (site.database db)
  | file {db name : String} {tables : Tables} (part : Part) : store.lookup db = some tables →
      name ∈ tables → site.Holds store (site.file db part name)

/-- The files below the root are those of a store. -/
structure Represents (site : Site) (tree : Tree) (store : Store) : Prop where
  outside : site.origin.AgreesOutside site.home tree
  distinct : DistinctBelow site.home tree
  located : ∀ entry ∈ tree.entries, site.home.IsAbove entry.1 → site.Holds store entry.1
  databases : ∀ db, tree.find? (site.database db) = if db ∈ store then some .directory else none
  files : ∀ db tables, store.lookup db = some tables → ∀ part name,
    tree.find? (site.file db part name) =
      (tables.lookup name).map fun contents => .file (.text (part.text contents))

/-- The contents of a table that fits its place: its files and those that replace them have paths
that are short enough. -/
structure Site.IsSoundTable (site : Site) (db name : String) (contents : Contents) :
    Prop where
  isName : IsName name
  fits : ∀ part : Part, EntryFits (site.root.join db) (Part.temporary (part.fileName name))
  sound : (contents.table (Database.under site.root db) name).IsSound

structure Site.IsSoundStore (site : Site) (store : Store) : Prop where
  isName : ∀ db ∈ store, IsName db
  fits : ∀ db ∈ store, EntryFits site.root db
  tables : ∀ db tables, store.lookup db = some tables → ∀ name contents,
    tables.lookup name = some contents → site.IsSoundTable db name contents

namespace Represents

variable {site : Site} {tree : Tree} {store : Store} {db name : String} {tables : Tables}

/-! ### Reading -/

theorem mem_of_lookup (found : store.lookup db = some tables) : db ∈ store :=
  AList.lookup_isSome.mp (by rw [found]; rfl)

theorem leads (h : Represents site tree store) : tree.LeadsTo site.root site.home :=
  (site.anchored tree h.outside).1

theorem leadsDatabase (h : Represents site tree store) (sound : site.IsSoundStore store)
    (mem : db ∈ store) : tree.LeadsTo (site.root.join db) (site.database db) := by
  refine h.leads.child (sound.isName db mem).isFileName (sound.fits db mem) ?_
  have directory := h.databases db
  rwa [if_pos mem] at directory

theorem entry_database (h : Represents site tree store) (sound : site.IsSoundStore store)
    (isName : IsName db) : tree.entry (site.root.join db) =
      if db ∈ store then .ok .directory
      else if EntryFits site.root db then .error .notFound else .error .nameTooLong := by
  by_cases fits : EntryFits site.root db
  · have directory : tree.find? (site.home.child db) = _ := h.databases db
    rw [h.leads.entry_join isName.isFileName fits, if_pos fits, directory]
    by_cases mem : db ∈ store
    · rw [if_pos mem, if_pos mem]
    · rw [if_neg mem, if_neg mem]
  · have absent : db ∉ store := fun mem => fits (sound.fits db mem)
    rw [h.leads.entry_join_of_not_fits isName.isFileName fits, if_neg absent, if_neg fits]

/-- A directory of a valid name is the directory of a database. -/
theorem isPresent (h : Represents site tree store) (sound : site.IsSoundStore store)
    (isName : IsName db) :
    (Database.under site.root db).isPresent tree = decide (db ∈ store) ∧
      tree.contains (site.root.join db) = decide (db ∈ store) := by
  show tree.isDirectory (site.root.join db) = _ ∧ _
  rw [Tree.isDirectory, Tree.contains, h.entry_database sound isName]
  by_cases mem : db ∈ store
  · rw [if_pos mem, decide_eq_true mem]
    exact ⟨rfl, rfl⟩
  · rw [if_neg mem, decide_eq_false mem]
    by_cases fits : EntryFits site.root db
    · rw [if_pos fits]
      exact ⟨rfl, rfl⟩
    · rw [if_neg fits]
      exact ⟨rfl, rfl⟩

theorem find (h : Represents site tree store) (sound : site.IsSoundStore store)
    (isName : IsName db) : Database.find tree site.root db =
      if db ∈ store then .ok (Database.under site.root db) else .error (.databaseNotFound db) := by
  rw [Database.find, (h.isPresent sound isName).1]
  by_cases mem : db ∈ store
  · rw [if_pos mem, if_pos (decide_eq_true mem)]
  · rw [if_neg mem, if_neg (by simpa using mem)]

/-- A file of a table is there exactly when the table is. -/
theorem contains_file (h : Represents site tree store) (sound : site.IsSoundStore store)
    (found : store.lookup db = some tables) (part : Part) (isName : IsName name) :
    tree.contains ((site.root.join db).join (part.fileName name)) = decide (name ∈ tables) := by
  have leads := h.leadsDatabase sound (mem_of_lookup found)
  have isFileName := part.isFileName isName
  by_cases fits : EntryFits (site.root.join db) (part.fileName name)
  · rw [leads.contains_join isFileName fits]
    show (tree.find? (site.file db part name)).isSome = _
    rw [h.files db tables found, Option.isSome_map, Bool.eq_iff_iff, AList.lookup_isSome]
    simp
  · have absent : name ∉ tables := by
      intro mem
      obtain ⟨contents, present⟩ := Option.isSome_iff_exists.mp (AList.lookup_isSome.mpr mem)
      have table := sound.tables db tables found name contents present
      exact fits (Part.fits_of_temporary isFileName (table.fits part))
    rw [Tree.contains, leads.entry_join_of_not_fits isFileName fits, decide_eq_false absent]
    rfl

theorem readText_file (h : Represents site tree store) (sound : site.IsSoundStore store)
    (found : store.lookup db = some tables) {contents : Contents}
    (present : tables.lookup name = some contents) (part : Part) :
    tree.readText ((site.root.join db).join (part.fileName name)) = .ok (part.text contents) := by
  have table := sound.tables db tables found name contents present
  have isFileName := part.isFileName table.isName
  have leads := h.leadsDatabase sound (mem_of_lookup found)
  refine leads.readText_join isFileName (Part.fits_of_temporary isFileName (table.fits part)) ?_
  have file := h.files db tables found part name
  rw [present] at file
  exact file

theorem isStored (h : Represents site tree store) (sound : site.IsSoundStore store)
    (found : store.lookup db = some tables) (isName : IsName name) (table : Table)
    (named : table.name = name) (placed : table.directory = site.root.join db) :
    table.isStored tree = decide (name ∈ tables) := by
  have schema := h.contains_file sound found .schema isName
  have rows := h.contains_file sound found .rows isName
  subst named
  rw [← placed] at schema rows
  show (tree.contains (table.directory.join (Part.schema.fileName table.name)) ||
    tree.contains (table.directory.join (Part.rows.fileName table.name))) = _
  rw [schema, rows, Bool.or_self]

/-- What the store holds for a table of a database. -/
theorem load (h : Represents site tree store) (sound : site.IsSoundStore store)
    (found : store.lookup db = some tables) (isName : IsName name) :
    (Database.under site.root db).load tree name =
      Memory.load (Database.under site.root db) tables name := by
  unfold Memory.load
  cases present : tables.lookup name with
  | some contents =>
    have isSound := sound.tables db tables found name contents present
    have read := h.readText_file sound found present
    have loaded := Table.load_of_texts isSound.sound (read .schema) (read .rows) (read .sequence)
    exact loaded
  | none =>
    have missing : tree.contains (Table.new (site.root.join db) name).schemaPath = false :=
      (h.contains_file sound found .schema isName).trans
        (decide_eq_false (AList.lookup_eq_none.mp present))
    exact Table.load_of_missing missing

/-! ### Listing -/

theorem placedBelow (h : Represents site tree store) : PlacedBelow site.home tree := by
  rintro ⟨location, entry⟩ mem below parent
  have held := h.located _ mem below
  dsimp only at held parent
  cases held with
  | database _ => exact ⟨_, rfl⟩
  | @file db _ _ _ _ _ =>
    -- A file lies in the directory of its database and not in the root.
    have same : site.database db = site.home := parent
    exact absurd same Location.child_ne_self

theorem placedBelow_database (h : Represents site tree store) (db : String) :
    PlacedBelow (site.database db) tree := by
  rintro ⟨location, entry⟩ mem below parent
  have held := h.located _ mem below.of_child
  dsimp only at held parent
  cases held with
  | database _ => exact absurd parent.symm Location.child_ne_self
  | file part _ _ =>
    have same := Site.database_inj.mp parent
    subst same
    exact ⟨_, rfl⟩

/-- The root lists the databases. -/
theorem list_root (h : Represents site tree store) :
    ∃ names, tree.list site.root = .ok names ∧ names.Perm store.keys := by
  obtain ⟨-, resolved, directory⟩ := site.anchored tree h.outside
  refine ⟨tree.children site.home, Tree.list_of_entry resolved directory, ?_⟩
  have nodup := Tree.nodup_children h.placedBelow h.distinct
  refine (List.perm_ext_iff_of_nodup nodup store.nodupKeys).mpr fun db => ?_
  show _ ↔ db ∈ store
  rw [Tree.mem_children h.placedBelow]
  show (tree.find? (site.database db)).isSome = true ↔ _
  rw [h.databases db]
  split
  · next mem => simp [mem]
  · next absent => simp [absent]

/-- The directory of a database lists the files of its tables. -/
theorem mem_children_database (h : Represents site tree store)
    (found : store.lookup db = some tables) {entry : String} : entry ∈ tree.children (site.database db) ↔
      ∃ part name, entry = Part.fileName part name ∧ name ∈ tables := by
  rw [Tree.mem_children (h.placedBelow_database db)]
  constructor
  · intro some
    obtain ⟨⟨location, content⟩, mem, same⟩ :=
      Tree.exists_of_find?_eq_some (List.cons_ne_nil _ _) some
    dsimp only at same
    subst same
    have held := h.located _ mem Site.isAbove_database.child
    generalize location : (site.database db).child entry = place at held
    cases held with
    | database _ => exact absurd location.symm Site.database_ne_child
    | file part foundOther present =>
      obtain ⟨rfl, rfl⟩ := Site.child_database_inj.mp location
      rw [found] at foundOther
      cases foundOther
      exact ⟨part, _, rfl, present⟩
  · rintro ⟨part, name, rfl, mem⟩
    obtain ⟨contents, present⟩ := Option.isSome_iff_exists.mp (AList.lookup_isSome.mpr mem)
    have file := h.files db tables found part name
    rw [present] at file
    exact Option.isSome_iff_exists.mpr ⟨_, file⟩

theorem list_database (h : Represents site tree store) (sound : site.IsSoundStore store)
    (mem : db ∈ store) :
    tree.list (site.root.join db) = .ok (tree.children (site.database db)) := by
  refine Tree.list_of_entry ?_ ((h.databases db).trans (if_pos mem))
  exact (h.leads.resolve_join (sound.isName db mem).isFileName).trans (if_pos (sound.fits db mem))

/-- Sorting forgets the order in which names come. -/
theorem mergeSort_eq_of_perm {names others : List String} (same : names.Perm others) :
    (names.mergeSort fun a b => a ≤ b) = others.mergeSort fun a b => a ≤ b := by
  have sorted : ∀ names : List String,
      (names.mergeSort fun a b => a ≤ b).Pairwise fun a b => decide (a ≤ b) = true := by
    intro names
    apply List.pairwise_mergeSort
    · intro a b c ab bc
      rw [decide_eq_true_iff] at ab bc ⊢
      exact String.le_trans ab bc
    · intro a b
      rw [Bool.or_eq_true, decide_eq_true_iff, decide_eq_true_iff]
      exact String.le_total a b
  refine List.Perm.eq_of_pairwise ?_ (sorted names) (sorted others) ?_
  · intro a b _ _ ab ba
    exact String.le_antisymm (of_decide_eq_true ab) (of_decide_eq_true ba)
  · exact ((List.mergeSort_perm _ _).trans same).trans (List.mergeSort_perm _ _).symm

theorem tables_eq (h : Represents site tree store) (sound : site.IsSoundStore store)
    (found : store.lookup db = some tables) :
    (Database.under site.root db).tables tree = .ok (tables.keys.mergeSort fun a b => a ≤ b) := by
  have mem := mem_of_lookup found
  have listed : tree.list (Database.under site.root db).path = _ := h.list_database sound mem
  rw [Database.tables, listed]
  dsimp only
  have noDot : '.' ∉ Table.schemaExtension.toList := by decide
  have nodup := Tree.nodup_children (h.placedBelow_database db) (h.distinct.of_isAbove
    fun _ below => below.of_child)
  have stems : ((tree.children (site.database db)).filterMap
      (stemBefore? Table.schemaExtension)).Nodup := by
    refine nodup.filterMap fun first second stem one two => ?_
    rw [Option.mem_def, stemBefore?_eq_some noDot] at one two
    exact one.1.trans two.1.symm
  -- Both sides name each table once, and the same tables.
  refine congrArg Except.ok (mergeSort_eq_of_perm ?_)
  refine (List.perm_ext_iff_of_nodup stems tables.nodupKeys).mpr fun name => ?_
  show _ ↔ name ∈ tables
  rw [List.mem_filterMap]
  constructor
  · rintro ⟨entry, listed, stem⟩
    obtain ⟨part, other, rfl, present⟩ := (h.mem_children_database found).mp listed
    rw [stemBefore?_eq_some noDot] at stem
    have same : part.fileName other = Part.schema.fileName name := stem.1
    rw [(Part.fileName_inj.mp same).2] at present
    exact present
  · intro present
    obtain ⟨contents, some⟩ := Option.isSome_iff_exists.mp (AList.lookup_isSome.mpr present)
    have isName := (sound.tables db tables found name contents some).isName
    refine ⟨Part.schema.fileName name, (h.mem_children_database found).mpr ⟨_, _, rfl, present⟩, ?_⟩
    rw [stemBefore?_eq_some noDot]
    exact ⟨rfl, isName.isFileName.some⟩

end Represents

end TabStore
