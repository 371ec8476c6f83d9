import TabStore.Proofs.Memory.Deeds
import TabStore.Proofs.Memory.Refinement

/-!
# Ids over runs

Whatever sessions ask of an engine that was opened on an empty root, the rows of a table are
numbered from 1 in the order in which they were inserted, and no id that is gone comes back. The
last id is in memory only while a statement runs; what carries the numbering from one statement to
the next is that the store, and so the files, hold as last id the number of rows inserted since the
table was created.

Results:
1. `Deed.Turns.isNumbered`, `Descends.isNumbered`: the invariant, for one deed and for many;
2. `Descends.ids_sublist`: the ids that are left in a table that is not dropped;
3. `Engine.ids_numbered`: both, as they are seen on the files.
-/

namespace TabStore

/-- A table has given as many ids as rows have been inserted since it was created. -/
def IsNumbered (past : List Deed) (held : Option Contents) : Prop :=
  ∀ contents ∈ held, contents.lastId = insertions past

theorem Deed.Turns.isNumbered {deed : Deed} {past : List Deed} {held next : Option Contents}
    (turns : deed.Turns held next) (numbered : IsNumbered past held) :
    IsNumbered (past ++ [deed]) next := by
  rintro after ⟨⟩
  rw [insertions_concat]
  cases turns with
  | create _ lastId => exact lastId
  | insert => exact congrArg (· + 1) (numbered _ rfl)
  | edit lastId _ => exact lastId.trans (numbered _ rfl)
  | @delete contents _ _ => exact numbered contents rfl
  | other => exact numbered _ rfl

namespace Descends

variable {deeds past : List Deed} {contents : Contents} {held last : Option Contents}

theorem isNumbered (h : Descends deeds held last) (numbered : IsNumbered past held) :
    IsNumbered (past ++ deeds) last := by
  induction h generalizing past with
  | nil =>
    rw [List.append_nil]
    exact numbered
  | cons turns _ ih =>
    rw [List.append_cons]
    exact ih (turns.isNumbered numbered)

/-- While a table is not dropped it stays, and its rows have ids that they had before and new ids
that follow the last one. -/
theorem ids_sublist (h : Descends deeds (some contents) last) (stays : .drop ∉ deeds) :
    ∃ after, last = some after ∧ after.ids.Sublist (contents.ids ++
      (List.range' (contents.lastId + 1) (deeds.countP Deed.isInsert)).map toString) := by
  induction deeds generalizing contents with
  | nil =>
    cases h
    exact ⟨contents, rfl, List.sublist_append_left _ _⟩
  | cons deed rest ih =>
    obtain ⟨notDropped, staysLater⟩ := not_or.mp (mt List.mem_cons.mpr stays)
    cases h with
    | cons turns descends =>
      cases turns with
      | insert =>
        obtain ⟨after, same, ids⟩ := ih descends staysLater
        refine ⟨after, same, ?_⟩
        rw [List.countP_cons_of_pos rfl, List.range'_succ, List.map_cons]
        simpa [Contents.ids, Row.id] using ids
      | @edit _ next lastId kept =>
        obtain ⟨after, same, ids⟩ := ih descends staysLater
        have sameIds : next.ids = contents.ids := (Row.forall₂_id_iff.mp kept).symm
        rw [lastId, sameIds] at ids
        exact ⟨after, same, ids⟩
      | delete fewer =>
        obtain ⟨after, same, ids⟩ := ih descends staysLater
        exact ⟨after, same, ids.trans ((fewer.map Row.id).append_right _)⟩
      | other => exact ih descends staysLater
      | drop => exact absurd rfl notDropped

end Descends

/-! ## On files -/

/-- Nothing is found in a directory that is missing. -/
theorem Tree.LeadsTo.contains_of_missing {tree : Tree} {path : Path} {home : Location}
    (leads : tree.LeadsTo path home) {name entry : String} (h : IsFileName name)
    (hEntry : IsFileName entry) (missing : tree.find? (home.child name) = none) :
    tree.contains ((path.join name).join entry) = false := by
  have nowhere : ∃ cause, tree.resolve ((path.join name).join entry) = .error cause := by
    rw [resolve, follow, Path.steps_join hEntry, Path.names_join h, Path.ofPath_join hEntry,
      Path.ofPath_join h, List.append_assoc, List.singleton_append, leads.goesOn, locate,
      if_neg h.ne_dot, if_neg h.ne_dots]
    split
    · exact ⟨_, rfl⟩
    · split
      · exact ⟨_, rfl⟩
      · rw [missing]
        exact ⟨_, rfl⟩
  obtain ⟨cause, nowhere⟩ := nowhere
  rw [contains, Tree.entry, nowhere]
  rfl

namespace Represents

variable {site : Site} {tree : Tree} {store : Store} {db name : String}

theorem load_of_contents? (h : Represents site tree store) (sound : site.IsSoundStore store)
    {contents : Contents} (held : store.contents? db name = some contents) :
    (Database.under site.root db).load tree name =
      .ok (contents.table (Database.under site.root db) name) := by
  obtain ⟨tables, found, present⟩ := Option.bind_eq_some_iff.mp held
  have isName := (sound.tables db tables found name contents present).isName
  rw [h.load sound found isName, Memory.load, present]

/-- A table that is loaded is one that the store holds. -/
theorem contents?_of_load (h : Represents site tree store) (sound : site.IsSoundStore store)
    (isDatabase : IsName db) (isName : IsName name) {table : Table}
    (loaded : (Database.under site.root db).load tree name = .ok table) :
    ∃ contents, store.contents? db name = some contents ∧
      table = contents.table (Database.under site.root db) name := by
  cases found : store.lookup db with
  | some tables =>
    rw [h.load sound found isName] at loaded
    obtain ⟨present, same⟩ := Memory.lookup_of_load loaded
    exact ⟨_, (Store.contents?_of_lookup found).trans present, same⟩
  | none =>
    have missing : tree.find? (site.database db) = none :=
      (h.databases db).trans (if_neg (AList.lookup_eq_none.mp found))
    have absent : tree.contains (Table.new (site.root.join db) name).schemaPath = false :=
      h.leads.contains_of_missing isDatabase.isFileName (Part.schema.isFileName isName) missing
    have refused : (Database.under site.root db).load tree name = .error (.tableNotFound name) :=
      Table.load_of_missing absent
    rw [refused] at loaded
    cases loaded

end Represents

namespace Engine

variable {σ : Type} {engine : Engine} {root : Path} {start tree : Tree}

/-- A row that is inserted gets the number of rows inserted since the table was created as its id,
itself included. Until the table is dropped, alone or with its database, what it holds descends from
one request to the next: only DELETE takes rows away, and every other row keeps its id and its place
among the others. Ids that come later follow all ids that were given before. -/
theorem ids_numbered [DecidableEq σ] (opened : openAt root start = (.ok engine, tree))
    (empty : tree.IsEmptyAt root) (first second : List (σ × String))
    {db name : String} (isDatabase : IsName db) (isName : IsName name) :
    let before := (Served.run engine.perform (.start tree) first).2
    let after := (Served.run engine.perform before second).2
    let given := insertions (Served.deeds engine.perform db name (.start tree) first)
    (∀ request values response, (before.sessions request.1).workingDatabase = some db →
      Statement.parse request.2 = .ok (.table (.insert name values)) →
      (Served.step engine.perform before request).1 = .ok response →
      ∃ table, (Database.under root db).load before.data name = .ok table ∧
        (Database.under root db).load (Served.step engine.perform before request).2.data name =
          .ok { table with
            rows := table.rows ++ [⟨toString (given + 1) :: values⟩], lastId := given + 1 }) ∧
    (.drop ∉ Served.deeds engine.perform db name before second →
      ∀ table, (Database.under root db).load before.data name = .ok table →
        ∃ later, (Database.under root db).load after.data name = .ok later ∧
          Descends (Served.deeds engine.perform db name before second)
            (some (.ofTable table)) (some (.ofTable later)) ∧
          later.ids.Sublist (table.ids ++ (List.range' (given + 1)
            ((Served.deeds engine.perform db name before second).countP Deed.isInsert)).map
              toString)) := by
  intro before after given
  obtain ⟨site, same, serves⟩ := @exists_serves σ _ _ _ _ opened empty
  obtain ⟨held, served, descends⟩ := serves.descends_run same first
  have numbered : IsNumbered (Served.deeds engine.perform db name (.start tree) first)
      (held.data.contents? db name) :=
    (descends db name).isNumbered (show IsNumbered [] none from nofun)
  have rootEq := root_eq_of_openAt opened
  refine ⟨fun request values response working parsed done => ?_, fun stays table loaded => ?_⟩
  · obtain ⟨next, stillServed, turns⟩ := served.turn same request
    have turn := turns db name
    rw [Event.deed, done, parsed] at turn
    dsimp only at turn
    rw [if_pos working, TableStatement.deed, if_pos rfl] at turn
    generalize was : held.data.contents? db name = old at turn
    generalize now : next.data.contents? db name = new at turn
    cases turn with
    | @insert contents _ =>
      have loaded := served.represents.load_of_contents? served.sound was
      have reloaded := stillServed.represents.load_of_contents? stillServed.sound now
      rw [← same, rootEq] at loaded reloaded
      have lastId : contents.lastId = given := numbered contents was
      refine ⟨_, loaded, reloaded.trans ?_⟩
      rw [lastId]
      rfl
  · rw [← rootEq, same] at loaded ⊢
    obtain ⟨contents, was, rfl⟩ :=
      served.represents.contents?_of_load served.sound isDatabase isName loaded
    obtain ⟨last, stillServed, descends⟩ := served.descends_run same second
    have turned := descends db name
    rw [was] at turned
    obtain ⟨changed, now, ids⟩ := turned.ids_sublist stays
    have lastId : contents.lastId = given := numbered contents was
    rw [lastId] at ids
    rw [now] at turned
    exact ⟨_, stillServed.represents.load_of_contents? stillServed.sound now, turned, ids⟩

/-- The first row is deleted; the other one stays the second while it is updated, and the next one
is the third. -/
theorem ids_numbered_after_delete :
    let first : List (Nat × String) :=
      [(0, "CREATE DATABASE a;"), (0, "USE a;"), (0, "CREATE TABLE t (x);"),
        (0, "INSERT INTO t VALUES (7);"), (0, "INSERT INTO t VALUES (8);"),
        (0, "DELETE FROM t WHERE x=7;")]
    let request : Nat × String := (0, "INSERT INTO t VALUES (9);")
    let second : List (Nat × String) := [(0, "UPDATE t SET x=6 WHERE x=8;"), request]
    let before := (Served.run (perform ⟨⟨"db"⟩⟩) (.start (.ofDirectory "db")) first).2
    let after := (Served.run (perform ⟨⟨"db"⟩⟩) before second).2
    openAt ⟨"db"⟩ .empty = (.ok ⟨⟨"db"⟩⟩, .ofDirectory "db") ∧
      (Tree.ofDirectory "db").IsEmptyAt ⟨"db"⟩ ∧
      validateName "a" = .ok () ∧ validateName "t" = .ok () ∧
      (∃ table, (Database.under ⟨"db"⟩ "a").load before.data "t" = .ok table ∧
        (Database.under ⟨"db"⟩ "a").load (Served.step (perform ⟨⟨"db"⟩⟩) before request).2.data "t" =
          .ok { table with rows := table.rows ++ [⟨["3", "9"]⟩], lastId := 2 + 1 }) ∧
      ∀ table, (Database.under ⟨"db"⟩ "a").load before.data "t" = .ok table →
        ∃ later, (Database.under ⟨"db"⟩ "a").load after.data "t" = .ok later ∧
          Descends [.edit, .insert ["9"]] (some (.ofTable table)) (some (.ofTable later)) ∧
          later.ids.Sublist (table.ids ++ ["3"]) := by
  intro first request second
  dsimp only
  have isFileName : IsFileName "db" := by constructor <;> decide
  have short : "db".utf8ByteSize ≤ Tree.nameLimit := by decide
  have opened := openAt_mk isFileName short
  have empty := Tree.isEmptyAt_ofDirectory isFileName short
  have isDatabase : validateName "a" = .ok () := by decide
  have isName : validateName "t" = .ok () := by decide
  obtain ⟨inserted, kept⟩ := ids_numbered opened empty first second isDatabase isName
  have ran : insertions (Served.deeds (perform ⟨⟨"db"⟩⟩) "a" "t" (.start (.ofDirectory "db")) first) =
        2 ∧
      Served.deeds (perform ⟨⟨"db"⟩⟩) "a" "t"
        (Served.run (perform ⟨⟨"db"⟩⟩) (.start (.ofDirectory "db")) first).2 second =
          [.edit, .insert ["9"]] ∧
      ((Served.run (perform ⟨⟨"db"⟩⟩) (.start (.ofDirectory "db")) first).2.sessions
        request.1).workingDatabase = some "a" ∧
      (Served.step (perform ⟨⟨"db"⟩⟩)
        (Served.run (perform ⟨⟨"db"⟩⟩) (.start (.ofDirectory "db")) first).2 request).1 =
          .ok ⟨none, ⟨some "a"⟩⟩ := by decide +kernel
  obtain ⟨given, deeds, working, done⟩ := ran
  have parsed : Statement.parse request.2 = .ok (.table (.insert "t" ["9"])) := by decide +kernel
  have new : toString (2 + 1) = "3" := by decide
  have numbers : (List.range' (2 + 1) ([.edit, .insert ["9"]].countP Deed.isInsert)).map toString =
      ["3"] := by decide
  rw [given] at inserted kept
  rw [deeds, numbers] at kept
  rw [new] at inserted
  refine ⟨opened, empty, isDatabase, isName, ?_, kept (by decide)⟩
  exact inserted request ["9"] ⟨none, ⟨some "a"⟩⟩ working parsed done

end Engine

end TabStore
