import TabStore.Footprint
import TabStore.Proofs.Memory.Changes
import TabStore.Proofs.Statement.Reader

/-!
# One statement on files and in memory

A statement that is run on a tree which represents a store ends as the statement in memory does, and
leaves a tree that represents the next store. Only a statement for whose files there is no room ends
otherwise: it fails and changes nothing.

Results:
1. `Site.IsSoundStore.changeTables`: soundness of the next store;
2. `Represents.meets_run`: table statements;
3. `Represents.meets_runDatabase`: database statements.
-/

namespace TabStore

open TabStore.Tree (EntryFits)

/-! ## Sound stores -/

namespace Site.IsSoundStore

variable {site : Site} {store : Store} {db name : String}
  {tables changed : Tables} {contents : Contents}

theorem start : site.IsSoundStore ∅ where
  isName := fun _ mem => absurd mem (AList.notMem_empty _)
  fits := fun _ mem => absurd mem (AList.notMem_empty _)
  tables := by
    intro db tables found
    cases found

/-- The tables of one database are replaced by other sound ones. -/
theorem changeTables (sound : site.IsSoundStore store) (isName : IsName db)
    (fits : EntryFits site.root db)
    (tables : ∀ name contents, changed.lookup name = some contents →
      site.IsSoundTable db name contents) :
    site.IsSoundStore (store.insert db changed) where
  isName := by
    intro other mem
    rcases (AList.mem_insert _).mp mem with rfl | old
    · exact isName
    · exact sound.isName other old
  fits := by
    intro other mem
    rcases (AList.mem_insert _).mp mem with rfl | old
    · exact fits
    · exact sound.fits other old
  tables := by
    intro other otherTables found
    rcases lookup_insert_eq_some.mp found with ⟨rfl, rfl⟩ | ⟨-, old⟩
    · exact tables
    · exact sound.tables other otherTables old

theorem insertTable (sound : site.IsSoundStore store) (found : store.lookup db = some tables)
    (table : site.IsSoundTable db name contents) :
    site.IsSoundStore (store.insert db (tables.insert name contents)) := by
  have mem := Represents.mem_of_lookup found
  refine sound.changeTables (sound.isName db mem) (sound.fits db mem) fun other kept present => ?_
  rcases lookup_insert_eq_some.mp present with ⟨rfl, rfl⟩ | ⟨-, old⟩
  · exact table
  · exact sound.tables db tables found other kept old

theorem eraseTable (sound : site.IsSoundStore store) (found : store.lookup db = some tables) :
    site.IsSoundStore (store.insert db (tables.erase name)) := by
  have mem := Represents.mem_of_lookup found
  refine sound.changeTables (sound.isName db mem) (sound.fits db mem) fun other kept present => ?_
  exact sound.tables db tables found other kept (lookup_erase_eq_some.mp present).2

theorem eraseDatabase (sound : site.IsSoundStore store) :
    site.IsSoundStore (store.erase db) where
  isName := fun other mem => sound.isName other (AList.mem_erase.mp mem).2
  fits := fun other mem => sound.fits other (AList.mem_erase.mp mem).2
  tables := fun other tables found => sound.tables other tables (lookup_erase_eq_some.mp found).2

end Site.IsSoundStore

/-! ## How statements end -/

/-- A statement on files beside the same statement in memory: what it answers with, and the tree and
the store after it. `room` says that there is room for its files. -/
inductive Site.Meets (site : Site) (tree : Tree) (room : Prop) {ε α : Type} :
    Except ε α × Tree → Except ε (α × Store) → Prop
  | noRoom {e : ε} {result : Except ε (α × Store)} : ¬ room →
      site.Meets tree room (.error e, tree) result
  | failed {e : ε} : site.Meets tree room (.error e, tree) (.error e)
  | done {a : α} {after : Tree} {store : Store} : Represents site after store →
      site.IsSoundStore store → site.Meets tree room (.ok a, after) (.ok (a, store))

section

variable {site : Site} {tree : Tree} {room : Prop} {ε α β : Type}

theorem Site.Meets.map {files : Except ε α × Tree} {memory : Except ε (α × Store)} (f : α → β)
    (h : site.Meets tree room files memory) :
    site.Meets tree room (files.1.map f, files.2)
      (memory.map fun next => (f next.1, next.2)) := by
  cases h with
  | noRoom long => exact .noRoom long
  | failed => exact .failed
  | done represents sound => exact .done represents sound

theorem Site.Meets.ofResult {files : Result α × Tree} {memory : Result (α × Store)}
    (h : site.Meets tree room files memory) :
    site.Meets tree room (Outcome.ofResult files.1, files.2) (Outcome.ofResult memory) := by
  cases h with
  | noRoom long => exact .noRoom long
  | failed => exact .failed
  | done represents sound => exact .done represents sound

end

/-! ## Table statements -/

namespace TableStatement

variable {tree : Tree} {home : Database} {statement : TableStatement}

theorem run_of_effect {effect : Effect} (h : statement.effect tree home = .ok effect) :
    statement.run tree home = perform tree effect := by
  rw [run, h]

theorem run_of_error {e : Error} (h : statement.effect tree home = .error e) :
    statement.run tree home = (.error (.error e), tree) := by
  rw [run, h]

end TableStatement

namespace Represents

variable {site : Site} {tree : Tree} {store : Store} {db name : String}
  {tables : Tables} {room : Prop}

/-- A table that is loaded is sound and lies where it was looked for. -/
theorem follows_load (sound : site.IsSoundStore store) (found : store.lookup db = some tables)
    {table : Table} (loaded : Memory.load (Database.under site.root db) tables name = .ok table) :
    IsName name ∧ EntryFits (site.root.join db) (Part.temporary (Part.schema.fileName name)) ∧
      table.IsSound ∧ table.name = name ∧ table.directory = site.root.join db := by
  unfold Memory.load at loaded
  split at loaded
  · next contents present =>
    cases loaded
    have isSound := sound.tables db tables found name contents present
    exact ⟨isSound.isName, isSound.fits .schema, isSound.sound, rfl, rfl⟩
  · cases loaded

theorem ofTable_eq {table : Table} (named : table.name = name)
    (placed : table.directory = site.root.join db) :
    (Contents.ofTable table).table (Database.under site.root db) name = table := by
  obtain ⟨tableName, directory, attributes, rows, lastId⟩ := table
  dsimp only at named placed
  subst named placed
  rfl

/-- A table that fits is stored on files, and they represent the store that holds it. -/
theorem exists_persist (h : Represents site tree store) (sound : site.IsSoundStore store)
    (found : store.lookup db = some tables) (isName : IsName name) {table : Table}
    (named : table.name = name) (placed : table.directory = site.root.join db)
    (isSound : table.IsSound)
    (fits : EntryFits (site.root.join db) (Part.temporary (Part.schema.fileName name))) :
    ∃ next, table.persist tree = (.ok (), next) ∧
      Represents site next (store.insert db (tables.insert name (.ofTable table))) ∧
      site.IsSoundStore (store.insert db (tables.insert name (.ofTable table))) := by
  have kept := @ofTable_eq site db name table named placed
  subst named
  refine ⟨_, (h.offers sound found).persist isName placed fits, h.putTable found _,
    sound.insertTable found ⟨isName, fun part => ?_, ?_⟩⟩
  · exact (Site.Offers.fits_temporary_iff isName part .schema).mpr fits
  · rw [kept]
    exact isSound

/-- Storing a table on files is storing it in memory. -/
theorem meets_persist (h : Represents site tree store) (sound : site.IsSoundStore store)
    (found : store.lookup db = some tables) (isName : IsName name) {table : Table}
    (named : table.name = name) (placed : table.directory = site.root.join db)
    (isSound : table.IsSound)
    (fits : EntryFits (site.root.join db) (Part.temporary (Part.schema.fileName name))) :
    site.Meets tree room (TableStatement.perform.silently (table.persist tree))
      (.ok (none, store.insert db (tables.insert name (.ofTable table)))) := by
  obtain ⟨next, persisted, represents, soundNext⟩ :=
    h.exists_persist sound found isName named placed isSound fits
  rw [persisted]
  exact .done represents soundNext

/-- What follows a table that was loaded is stored in its place. -/
theorem meets_store (h : Represents site tree store) (sound : site.IsSoundStore store)
    (found : store.lookup db = some tables) {table after : Table} {last : Nat}
    (loaded : Memory.load (Database.under site.root db) tables name = .ok table)
    (follows : after.Follows table last) {statement : TableStatement}
    (onFiles : statement.effect tree (Database.under site.root db) = .ok (.store after)) :
    site.Meets tree room (statement.run tree (Database.under site.root db))
      (.ok (none, store.insert db (tables.insert name (.ofTable after)))) := by
  obtain ⟨isName, fits, -, named, placed⟩ := follows_load sound found loaded
  rw [TableStatement.run_of_effect onFiles, TableStatement.perform]
  exact h.meets_persist sound found isName (follows.name_eq.trans named)
    (follows.directory_eq.trans placed) follows.sound fits

/-- A table is loaded, changed and stored again. -/
theorem meets_change (h : Represents site tree store) (sound : site.IsSoundStore store)
    (found : store.lookup db = some tables) (isName : IsName name) {statement : TableStatement}
    (change : Table → Result Table)
    (onFiles : statement.effect tree (Database.under site.root db) = do
      let table ← (Database.under site.root db).load tree name
      .store <$> change table)
    (inMemory : Memory.runTable (Database.under site.root db) tables statement = .ofResult do
      let table ← Memory.load (Database.under site.root db) tables name
      Memory.stored tables name <$> change table)
    (follows : ∀ table after, table.IsSound → change table = .ok after →
      ∃ last, after.Follows table last) :
    site.Meets tree room (statement.run tree (Database.under site.root db))
      ((Memory.runTable (Database.under site.root db) tables statement).map
        fun next => (next.1, store.insert db next.2)) := by
  rw [h.load sound found isName] at onFiles
  rw [inMemory]
  cases loaded : Memory.load (Database.under site.root db) tables name with
  | error e =>
    rw [loaded, error_bind] at onFiles
    rw [TableStatement.run_of_error onFiles]
    exact .failed
  | ok table =>
    obtain ⟨-, -, isSound, -, -⟩ := follows_load sound found loaded
    rw [loaded, ok_bind] at onFiles
    rw [ok_bind]
    cases changed : change table with
    | error e =>
      rw [changed, map_error] at onFiles
      rw [TableStatement.run_of_error onFiles]
      exact .failed
    | ok after =>
      rw [changed, map_ok] at onFiles
      obtain ⟨last, follows⟩ := follows table after isSound changed
      exact h.meets_store sound found loaded follows onFiles

/-- A row is added, or its id overflows on both sides. -/
theorem meets_insert (h : Represents site tree store) (sound : site.IsSoundStore store)
    (found : store.lookup db = some tables) (isName : IsName name) {values : List String} :
    site.Meets tree room
      (TableStatement.run tree (Database.under site.root db) (.insert name values))
      ((Memory.runTable (Database.under site.root db) tables (.insert name values)).map
        fun next => (next.1, store.insert db next.2)) := by
  have onFiles := @TableStatement.effect.eq_def tree (Database.under site.root db)
    (.insert name values)
  dsimp only at onFiles
  rw [h.load sound found isName] at onFiles
  rw [Memory.runTable]
  cases loaded : Memory.load (Database.under site.root db) tables name with
  | error e =>
    rw [loaded, error_bind] at onFiles
    rw [TableStatement.run_of_error onFiles]
    exact .failed
  | ok table =>
    obtain ⟨-, -, isSound, -, -⟩ := follows_load sound found loaded
    rw [loaded, ok_bind] at onFiles
    rw [Outcome.ofResult_ok, ok_bind]
    cases inserted : table.insert values with
    | error e =>
      rw [inserted, error_bind] at onFiles
      rw [TableStatement.run_of_error onFiles]
      exact .failed
    | ok added =>
      rw [inserted, ok_bind] at onFiles
      cases added with
      | none =>
        rw [TableStatement.run_of_effect onFiles]
        exact .failed
      | some pair =>
        exact h.meets_store sound found loaded (isSound.insert inserted) onFiles

/-- A statement that only answers leaves everything as it is. -/
theorem meets_answer (h : Represents site tree store) (sound : site.IsSoundStore store)
    (found : store.lookup db = some tables) {statement : TableStatement} (answer : Result String)
    (onFiles : statement.effect tree (Database.under site.root db) = .answer <$> answer)
    (inMemory : Memory.runTable (Database.under site.root db) tables statement =
      .ofResult ((fun text => (some text, tables)) <$> answer)) :
    site.Meets tree room (statement.run tree (Database.under site.root db))
      ((Memory.runTable (Database.under site.root db) tables statement).map
        fun next => (next.1, store.insert db next.2)) := by
  rw [inMemory]
  cases shown : answer with
  | error e =>
    rw [shown, map_error] at onFiles
    rw [TableStatement.run_of_error onFiles]
    exact .failed
  | ok text =>
    rw [shown, map_ok] at onFiles
    rw [TableStatement.run_of_effect onFiles]
    have mem := mem_of_lookup found
    have again : Represents site tree (store.insert db tables) := by
      -- Any table will do as the one that may have changed.
      refine h.changeTable "" found h.outside h.distinct (fun _ old => .inl old) (fun _ _ => rfl) ?_
        fun _ _ => rfl
      exact fun part => h.files db tables found part ""
    refine .done again (sound.changeTables (sound.isName db mem) (sound.fits db mem) ?_)
    exact fun name contents present => sound.tables db tables found name contents present

theorem meets_create (h : Represents site tree store) (sound : site.IsSoundStore store)
    (found : store.lookup db = some tables) (isName : IsName name) {names : List String}
    (areNames : ∀ other ∈ names, IsName other)
    (fits : room → EntryFits (site.root.join db) (Part.temporary (Part.schema.fileName name))) :
    site.Meets tree room
      (TableStatement.run tree (Database.under site.root db) (.create name names))
      ((Memory.runTable (Database.under site.root db) tables (.create name names)).map
        fun next => (next.1, store.insert db next.2)) := by
  have onFiles : (TableStatement.create name names).effect tree (Database.under site.root db) =
      .create <$> TableStatement.withAttributes ((Database.under site.root db).table name) names :=
    rfl
  have inMemory : Memory.runTable (Database.under site.root db) tables (.create name names) =
      .ofResult do
      let table ← TableStatement.withAttributes ((Database.under site.root db).table name) names
      if name ∈ tables then .error (.tableExists name)
      else return Memory.stored tables name table := rfl
  rw [inMemory]
  cases created :
    TableStatement.withAttributes ((Database.under site.root db).table name) names with
  | error e =>
    rw [created, map_error] at onFiles
    rw [TableStatement.run_of_error onFiles]
    exact .failed
  | ok table =>
    rw [created, map_ok] at onFiles
    have follows := TableStatement.follows_withAttributes (Table.IsSound.new _ _) areNames created
    have named : table.name = name := follows.name_eq
    have placed : table.directory = site.root.join db := follows.directory_eq
    rw [TableStatement.run_of_effect onFiles, TableStatement.perform, Table.create,
      h.isStored sound found isName table named placed, ok_bind]
    by_cases mem : name ∈ tables
    · rw [decide_eq_true mem, if_pos rfl, if_pos mem, named]
      exact .failed
    · rw [decide_eq_false mem, if_neg (by decide), if_neg mem]
      by_cases long : EntryFits (site.root.join db) (Part.temporary (Part.schema.fileName name))
      · exact h.meets_persist sound found isName named placed follows.sound long
      · -- The first file that is written fails, and nothing is left behind.
        subst named
        obtain ⟨e, failed⟩ := (h.offers sound found).persist_of_not_fits isName placed long
        rw [failed]
        exact .noRoom fun isRoom => long (fits isRoom)

theorem meets_drop (h : Represents site tree store) (sound : site.IsSoundStore store)
    (found : store.lookup db = some tables) (isName : IsName name) :
    site.Meets tree room
      (TableStatement.run tree (Database.under site.root db) (.drop name))
      ((Memory.runTable (Database.under site.root db) tables (.drop name)).map
        fun next => (next.1, store.insert db next.2)) := by
  have inMemory : Memory.runTable (Database.under site.root db) tables (.drop name) = .ofResult
      (if name ∈ tables then .ok (none, tables.erase name) else .error (.tableNotFound name)) := rfl
  rw [inMemory, @TableStatement.run_of_effect tree (Database.under site.root db) (.drop name) _ rfl,
    TableStatement.perform, Table.removeFiles,
    h.isStored sound found isName ((Database.under site.root db).table name) rfl rfl]
  by_cases mem : name ∈ tables
  · obtain ⟨contents, present⟩ := Option.isSome_iff_exists.mp (AList.lookup_isSome.mpr mem)
    have table := sound.tables db tables found name contents present
    have removed := (h.offers sound found).removeEach isName
      (fun part => Part.fits_of_temporary (part.isFileName isName) (table.fits part))
      fun part => ⟨_, (h.files db tables found part name).trans (by rw [present]; rfl)⟩
    rw [decide_eq_true mem, if_pos rfl, if_pos mem]
    show site.Meets _ _ (TableStatement.perform.silently (Table.removeEach
      [(site.root.join db).join (Part.schema.fileName name),
        (site.root.join db).join (Part.rows.fileName name),
        (site.root.join db).join (Part.sequence.fileName name)] tree)) _
    rw [removed]
    exact .done (h.dropTable found) (sound.eraseTable found)
  · rw [decide_eq_false mem, if_neg (by decide), if_neg mem]
    exact .failed

/-- Every table statement that can be read ends on files as it does in memory. -/
theorem meets_run (h : Represents site tree store) (sound : site.IsSoundStore store)
    (found : store.lookup db = some tables) {statement : TableStatement}
    (readable : (Statement.table statement).IsReadable)
    (fits : room → ∀ name ∈ statement.tables,
      EntryFits (site.root.join db) (Part.temporary (Part.schema.fileName name))) :
    site.Meets tree room (statement.run tree (Database.under site.root db))
      ((Memory.runTable (Database.under site.root db) tables statement).map
        fun next => (next.1, store.insert db next.2)) := by
  have load : ∀ {name : String}, IsName name → (Database.under site.root db).load tree name =
      Memory.load (Database.under site.root db) tables name := h.load sound found
  cases statement with
  | create name names =>
    obtain ⟨isName, items⟩ := readable
    refine h.meets_create sound found isName.isName ?_ fun isRoom =>
      fits isRoom name List.mem_cons_self
    rcases items with rfl | items
    · exact nofun
    · exact items.isName
  | drop name => exact h.meets_drop sound found readable.isName
  | alter name change =>
    refine h.meets_change sound found readable.1.isName
      (fun table => TableStatement.alterTable table change) rfl rfl
      fun table after isSound done => ?_
    refine ⟨_, TableStatement.follows_alterTable isSound ?_ done⟩
    rintro other rfl
    exact readable.2.isName
  | insert name values => exact h.meets_insert sound found readable.1.isName
  | select name columns condition =>
    refine h.meets_answer sound found (do
      let table ← Memory.load (Database.under site.root db) tables name
      TableStatement.selectText table columns condition) ?_ ?_
    · rw [TableStatement.effect, load readable.1.isName, map_bind]
    · rw [Memory.runTable, map_bind]
      rfl
  | update name assignments condition =>
    refine h.meets_change sound found readable.1.isName
      (fun table => TableStatement.updateTable table assignments condition) rfl rfl
      fun table after isSound done => ?_
    exact ⟨_, TableStatement.follows_updateTable isSound
      (fun a mem => (readable.2.1.sound a mem).isLiteral) done⟩
  | delete name condition =>
    refine h.meets_change sound found readable.1.isName
      (fun table => TableStatement.deleteRows table condition) rfl rfl
      fun table after isSound done => ?_
    exact ⟨_, TableStatement.follows_deleteRows isSound done⟩
  | join primary secondary =>
    refine h.meets_answer sound found (do
      let left ← Memory.load (Database.under site.root db) tables primary.table
      let right ← Memory.load (Database.under site.root db) tables secondary.table
      TableStatement.joinText left right primary.on secondary.on) ?_ ?_
    · rw [TableStatement.effect, load readable.1.isName, load readable.2.2.1.isName]
      simp only [map_bind]
    · rw [Memory.runTable]
      simp only [map_bind]
      rfl

end Represents

/-! ## All statements -/

/-- A path that is short enough, and so are the names in it. -/
def Path.Fits (path : Path) : Prop :=
  path.text.utf8ByteSize ≤ Path.lengthLimit ∧
    ∀ name ∈ path.names, name.utf8ByteSize ≤ Tree.nameLimit

instance (path : Path) : Decidable path.Fits := inferInstanceAs (Decidable (_ ∧ _))

/-- The paths that a statement looks at or changes are short enough. -/
def Engine.HasRoom (engine : Engine) (session : Session) (text : String) : Prop :=
  ∀ statement, Statement.parse text = .ok statement →
    ∀ path ∈ engine.footprint session statement, path.Fits

instance (engine : Engine) (session : Session) (text : String) :
    Decidable (engine.HasRoom session text) :=
  match parsed : Statement.parse text with
  | .ok statement =>
    decidable_of_iff (∀ path ∈ engine.footprint session statement, path.Fits) (by
      rw [Engine.HasRoom, parsed]
      exact ⟨fun fits _ same => Except.ok.inj same ▸ fits, fun room => room statement rfl⟩)
  | .error e => isTrue (by
      rw [Engine.HasRoom, parsed]
      exact nofun)

/-- The working database of a session has a valid name. -/
def Session.IsValid (session : Session) : Prop :=
  ∀ db, session.workingDatabase = some db → IsName db

theorem Path.Fits.entry {path : Path} {name : String} (h : IsFileName name)
    (fits : (path.join name).Fits) : EntryFits path name := by
  refine ⟨fits.1, fits.2 name ?_⟩
  rw [Path.names_join h]
  exact List.mem_append_right _ List.mem_cons_self

namespace Represents

variable {site : Site} {tree : Tree} {store : Store} {db name : String}
  {tables : Tables} {room : Prop} {engine : Engine} {session : Session}

/-- Every database statement that can be read ends on files as it does in memory. -/
theorem meets_runDatabase (h : Represents site tree store) (sound : site.IsSoundStore store)
    (root : engine.root = site.root) {statement : DatabaseStatement}
    (isName : IsName statement.name) (fits : room → EntryFits site.root statement.name) :
    site.Meets tree room (engine.runDatabase tree session statement)
      (Memory.runDatabase store session statement) := by
  cases statement with
  | use name =>
    replace isName : IsName name := isName
    unfold Engine.runDatabase Memory.runDatabase
    dsimp only
    rw [root, h.find sound isName]
    by_cases mem : name ∈ store
    · rw [if_pos mem, if_pos mem]
      exact .done h sound
    · rw [if_neg mem, if_neg mem]
      exact .failed
  | create name =>
    replace isName : IsName name := isName
    replace fits : room → EntryFits site.root name := fits
    unfold Engine.runDatabase Memory.runDatabase
    dsimp only
    rw [root]
    by_cases mem : name ∈ store
    · have contained := (h.isPresent sound isName).2
      rw [decide_eq_true mem] at contained
      have present : (Database.under site.root name).create tree =
          (.error (.databaseExists name), tree) := if_pos contained
      rw [present, if_pos mem]
      exact .failed
    · rw [if_neg mem]
      by_cases long : EntryFits site.root name
      · rw [h.createDatabase sound isName mem long]
        exact .done (h.putDatabase mem) (sound.changeTables isName long nofun)
      · rw [h.createDatabase_of_not_fits sound isName mem long]
        exact .noRoom fun isRoom => long (fits isRoom)
  | drop name =>
    replace isName : IsName name := isName
    unfold Engine.runDatabase Engine.runDatabase.dropTarget Memory.runDatabase
    dsimp only
    rw [root, h.find sound isName]
    by_cases mem : name ∈ store
    · obtain ⟨tables, found⟩ := Option.isSome_iff_exists.mp (AList.lookup_isSome.mpr mem)
      rw [if_pos mem, if_pos mem, ok_bind, h.tables_eq sound found, ok_bind]
      dsimp only [pure_eq_ok]
      rw [h.removeDatabase sound mem]
      exact .done h.dropDatabase sound.eraseDatabase
    · rw [if_neg mem, if_neg mem]
      exact .failed

end Represents

end TabStore
