import TabStore.Proofs.Memory.Refinement

/-!
# What is stored after any run

Whatever sessions ask of an engine that was opened on an empty root, and whether or not there is
room for every file, the files of all databases are those of sound tables.

Result: `Engine.isSound_run`.
-/

namespace TabStore

/-- The three files of a table are there and hold the table and its last id. -/
structure Table.IsStoredIn (table : Table) (tree : Tree) : Prop where
  schema : tree.readText table.schemaPath = .ok table.schemaText
  rows : tree.readText table.rowsPath = .ok table.rowsText
  sequence : tree.readText table.sequencePath = .ok table.sequenceText
  recorded : readSequence tree table.sequencePath = .ok table.lastId

/-- A directory without temporary files in which every table that has a schema file is loaded from
all its files, and is sound. -/
structure Database.IsSound (database : Database) (tree : Tree) : Prop where
  isPresent : database.isPresent tree = true
  noTemporary : ∃ entries, tree.list database.path = .ok entries ∧
    ∀ entry ∈ entries, stemBefore? Table.temporaryExtension entry = none
  tables : ∃ names, database.tables tree = .ok names ∧ ∀ name ∈ names, ∃ table,
    database.load tree name = .ok table ∧ table.IsSound ∧ table.IsStoredIn tree

namespace Represents

variable {site : Site} {tree : Tree} {store : Store} {db name : String} {tables : Tables}

theorem isStoredIn (h : Represents site tree store) (sound : site.IsSoundStore store)
    (found : store.lookup db = some tables) {contents : Contents}
    (present : tables.lookup name = some contents) :
    (contents.table (Database.under site.root db) name).IsStoredIn tree := by
  have table := sound.tables db tables found name contents present
  have read := h.readText_file sound found present
  have sequence : tree.readText (contents.table (Database.under site.root db) name).sequencePath =
      .ok (contents.table (Database.under site.root db) name).sequenceText := read .sequence
  exact ⟨read .schema, read .rows, sequence,
    Table.readSequence_of_readText table.sound.fits sequence⟩

theorem isSound_database (h : Represents site tree store) (sound : site.IsSoundStore store)
    (mem : db ∈ store) : (Database.under site.root db).IsSound tree := by
  obtain ⟨tables, found⟩ := Option.isSome_iff_exists.mp (AList.lookup_isSome.mpr mem)
  constructor
  case isPresent =>
    rw [(h.isPresent sound (sound.isName db mem)).1]
    exact decide_eq_true mem
  case noTemporary =>
    refine ⟨_, h.list_database sound mem, fun entry listed => ?_⟩
    obtain ⟨part, name, rfl, -⟩ := (h.mem_children_database found).mp listed
    rw [Option.eq_none_iff_forall_ne_some]
    intro stem same
    obtain ⟨isTemporary, -⟩ := (stemBefore?_eq_some (by decide)).mp same
    have extensions := (append_extension_inj part.mem_extensions (by decide) isTemporary).2
    cases part <;> exact absurd extensions (by decide)
  case tables =>
    refine ⟨_, h.tables_eq sound found, fun name listed => ?_⟩
    have present : name ∈ tables := List.mem_mergeSort.mp listed
    obtain ⟨contents, some⟩ := Option.isSome_iff_exists.mp (AList.lookup_isSome.mpr present)
    have table := sound.tables db tables found name contents some
    refine ⟨_, ?_, table.sound, h.isStoredIn sound found some⟩
    rw [h.load sound found table.isName, Memory.load, some]

end Represents

namespace Engine

variable {σ : Type} {engine : Engine} {root : Path} {start tree : Tree}

/-- After any run of any sessions every database is sound. -/
theorem isSound_run [DecidableEq σ] (opened : openAt root start = (.ok engine, tree))
    (empty : tree.IsEmptyAt root) (requests : List (σ × String)) :
    let reached := (Served.run engine.perform (.start tree) requests).2.data
    ∃ databases, reached.list root = .ok databases ∧
      ∀ db ∈ databases, (Database.under root db).IsSound reached := by
  obtain ⟨site, same, serves⟩ := @exists_serves σ _ _ _ _ opened empty
  obtain ⟨last, served⟩ := serves.run same requests
  obtain ⟨databases, listed, keys⟩ := served.represents.list_root
  rw [← same, root_eq_of_openAt opened] at listed
  refine ⟨databases, listed, fun db mem => ?_⟩
  have sound := served.represents.isSound_database served.sound (keys.mem_iff.mp mem)
  rw [← same, root_eq_of_openAt opened] at sound
  exact sound

/-- A name that is too long for a file is refused, and what is stored stays sound. -/
theorem isSound_run_of_long_name :
    let requests : List (Nat × String) :=
      [(0, "CREATE DATABASE a;"), (0, "USE a;"), (0, "CREATE TABLE t (x);"),
        (0, "CREATE TABLE " ++ String.ofList (List.replicate 300 'n') ++ " (x);"),
        (0, "INSERT INTO t VALUES ('y');")]
    openAt ⟨"db"⟩ .empty = (.ok ⟨⟨"db"⟩⟩, .ofDirectory "db") ∧
      (Tree.ofDirectory "db").IsEmptyAt ⟨"db"⟩ ∧
      let reached := (Served.run (perform ⟨⟨"db"⟩⟩) (.start (.ofDirectory "db")) requests).2.data
      ∃ databases, reached.list ⟨"db"⟩ = .ok databases ∧
        ∀ db ∈ databases, (Database.under ⟨"db"⟩ db).IsSound reached := by
  intro requests
  have isFileName : IsFileName "db" := by constructor <;> decide
  have short : "db".utf8ByteSize ≤ Tree.nameLimit := by decide
  have opened := openAt_mk isFileName short
  have empty := Tree.isEmptyAt_ofDirectory isFileName short
  exact ⟨opened, empty, isSound_run opened empty requests⟩

end Engine

end TabStore
