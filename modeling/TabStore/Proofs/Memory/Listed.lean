import TabStore.Proofs.Memory.Numbering
import TabStore.Proofs.Memory.Reachable

/-!
# Tables that are listed

What statements can do with a table that is listed after a run: it is loaded, it is sound, and it
can be stored again in its place. It was created by a statement that was read, so its name can stand
in the main clause of any other one.

Results:
1. `Event.isClauseName_of_create`, `Descends.create_mem`: a table that is held was created under a
   name that main clauses can have;
2. `Represents.holds`: a table of the store is loaded and stored;
3. `Engine.exists_holds`: both, for the tables that are listed after a run.
-/

namespace TabStore

/-- A table that is listed in a database that is listed in the root. -/
structure Tree.ListsTable (tree : Tree) (root : Path) (db name : String) : Prop where
  database : ∃ databases, tree.list root = .ok databases ∧ db ∈ databases
  table : ∃ names, (Database.under root db).tables tree = .ok names ∧ name ∈ names

/-- A table that is loaded from all its files. -/
structure Database.Stores (home : Database) (tree : Tree) (name : String) (table : Table) :
    Prop where
  loaded : home.load tree name = .ok table
  stored : table.IsStoredIn tree

/-- A sound table that is loaded and that can be stored again with the same last id. -/
structure Database.Holds (home : Database) (tree : Tree) (name : String) (table : Table) :
    Prop where
  isDirectory : tree.isDirectory home.path = true
  loaded : home.load tree name = .ok table
  sound : table.IsSound
  persists : ∀ after : Table, after.Follows table table.lastId →
    ∃ next, after.persist tree = (.ok (), next) ∧ home.Stores next name after

/-! ## Names of tables -/

/-- A statement that creates a table names it in its main clause. -/
theorem Event.isClauseName_of_create {event : Event} {db name : String}
    (created : event.deed db name = .create) : IsClauseName name := by
  unfold deed at created
  split at created
  · split at created <;> cases created
  · next statement _ parsed =>
    have readable := Statement.isReadable_of_parse parsed
    split at created
    · cases statement with
      | create table names =>
        rw [TableStatement.deed] at created
        split at created
        · next same => exact same ▸ readable.1
        · cases created
      | drop | alter | insert | update | delete =>
        rw [TableStatement.deed] at created
        split at created <;> cases created
      | select | join => cases created
    · cases created
  · cases created

/-- Where there was no table, one is held only if it has been created. -/
theorem Descends.create_mem {deeds : List Deed} {contents : Contents}
    (h : Descends deeds none (some contents)) : .create ∈ deeds := by
  induction deeds with
  | nil => cases h
  | cons deed rest ih =>
    cases h with
    | cons turns descends =>
      cases turns with
      | create => exact List.mem_cons_self
      | drop | other => exact List.mem_cons_of_mem _ (ih descends)

/-! ## Tables of a store -/

namespace Represents

variable {site : Site} {tree : Tree} {store : Store} {db name : String}

/-- What is listed is held. -/
theorem lookup_of_lists (h : Represents site tree store) (sound : site.IsSoundStore store)
    (lists : tree.ListsTable site.root db name) :
    ∃ tables contents, store.lookup db = some tables ∧ tables.lookup name = some contents := by
  obtain ⟨databases, listed, mem⟩ := lists.database
  obtain ⟨keys, sameList, perm⟩ := h.list_root
  cases sameList.symm.trans listed
  have inStore : db ∈ store := perm.mem_iff.mp mem
  obtain ⟨tables, found⟩ := Option.isSome_iff_exists.mp (AList.lookup_isSome.mpr inStore)
  obtain ⟨names, listedTables, among⟩ := lists.table
  cases (h.tables_eq sound found).symm.trans listedTables
  have inTables : name ∈ tables := List.mem_mergeSort.mp among
  obtain ⟨contents, present⟩ := Option.isSome_iff_exists.mp (AList.lookup_isSome.mpr inTables)
  exact ⟨tables, contents, found, present⟩

/-- A table of the store is loaded, and what takes its place is stored. -/
theorem holds (h : Represents site tree store) (sound : site.IsSoundStore store)
    {tables : Tables} {contents : Contents} (found : store.lookup db = some tables)
    (present : tables.lookup name = some contents) :
    (Database.under site.root db).Holds tree name
      (contents.table (Database.under site.root db) name) := by
  have table := sound.tables db tables found name contents present
  have held := (Store.contents?_of_lookup found).trans present
  constructor
  case isDirectory =>
    have mem := mem_of_lookup found
    exact (h.isPresent sound (sound.isName db mem)).1.trans (decide_eq_true mem)
  case loaded => exact h.load_of_contents? sound held
  case sound => exact table.sound
  case persists =>
    intro after follows
    obtain ⟨next, persisted, represents, soundNext⟩ := h.exists_persist sound found table.isName
      follows.name_eq follows.directory_eq follows.sound (table.fits .schema)
    have loaded := represents.load_of_contents? soundNext
      (Store.contents?_insert_self.trans (AList.lookup_insert _))
    have stored := represents.isStoredIn soundNext (AList.lookup_insert _)
      (AList.lookup_insert _)
    have kept := @ofTable_eq site db name after follows.name_eq follows.directory_eq
    rw [kept] at loaded stored
    exact ⟨next, persisted, loaded, stored⟩

end Represents

/-! ## After a run -/

/-- A table that is listed after a run is held, under a name that main clauses can have. -/
theorem Engine.exists_holds {σ : Type} [DecidableEq σ] {engine : Engine} {root : Path}
    {start tree : Tree} (opened : openAt root start = (.ok engine, tree))
    (empty : tree.IsEmptyAt root) (requests : List (σ × String)) {db name : String}
    (lists : (Served.run engine.perform (.start tree) requests).2.data.ListsTable root db name) :
    IsClauseName name ∧ ∃ table, (Database.under root db).Holds
      (Served.run engine.perform (.start tree) requests).2.data name table := by
  obtain ⟨site, same, serves⟩ := @exists_serves σ _ _ _ _ opened empty
  obtain ⟨last, served, descends⟩ := serves.descends_run same requests
  have rootEq : site.root = root := same.symm.trans (root_eq_of_openAt opened)
  subst rootEq
  obtain ⟨tables, contents, found, present⟩ := served.represents.lookup_of_lists served.sound lists
  have descended := descends db name
  rw [(Store.contents?_of_lookup found).trans present] at descended
  obtain ⟨event, -, created⟩ := List.mem_map.mp (Descends.create_mem descended)
  exact ⟨event.isClauseName_of_create created, _,
    served.represents.holds served.sound found present⟩

end TabStore
