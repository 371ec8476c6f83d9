import TabStore.Proofs.Memory.Run
import TabStore.Proofs.Table.Ids

/-!
# What is done to a table

Of every event in a run, one table sees only whether it is created or dropped, whether a row is
inserted, whether its rows are edited in their places, whether some are deleted, or none of these.
So a row is the same row, with the same id, until it is deleted or its table is dropped.

Results:
1. `insertions_concat`: the rows inserted since a table was last created are counted event by event;
2. `Memory.turns_of_runTable`, `Memory.turns_of_perform`: how one statement turns what is held of a
   table;
3. `Site.Serves.turn`: the same for a request that is served on files;
4. `Site.Serves.descends_run`: the same, one request after the other, for a run.
-/

namespace TabStore

/-! ## Events -/

/-- What a statement does to one table. To edit is to set cells of its rows, or to add or remove a
column. -/
inductive Deed
  | create
  | insert (values : List String)
  | edit
  | delete
  | drop
  | other
deriving DecidableEq, Repr

def Deed.isInsert : Deed → Bool
  | .insert _ => true
  | _ => false

def TableStatement.deed (name : String) : TableStatement → Deed
  | .create table _ => if table = name then .create else .other
  | .drop table => if table = name then .drop else .other
  | .insert table values => if table = name then .insert values else .other
  | .alter table _ | .update table .. => if table = name then .edit else .other
  | .delete table _ => if table = name then .delete else .other
  | .select .. | .join .. => .other

/-- What was asked in which session, and what was answered. -/
structure Event where
  session : Session
  text : String
  outcome : Outcome Response

/-- What an event did to the table of a name in a database: nothing if it failed or panicked. -/
def Event.deed (event : Event) (db name : String) : Deed :=
  match event.outcome, Statement.parse event.text with
  | .ok _, .ok (.database (.drop other)) => if other = db then .drop else .other
  | .ok _, .ok (.table statement) =>
    if event.session.workingDatabase = some db then statement.deed name else .other
  | _, _ => .other

/-- How many rows have been inserted since a table was last created. -/
def insertions (deeds : List Deed) : Nat :=
  (deeds.reverse.takeWhile (· ≠ .create)).countP Deed.isInsert

theorem insertions_concat (deeds : List Deed) (deed : Deed) :
    insertions (deeds ++ [deed]) =
      match deed with
      | .create => 0
      | .insert _ => insertions deeds + 1
      | .edit | .delete | .drop | .other => insertions deeds := by
  rw [insertions, List.reverse_append, List.reverse_singleton, List.singleton_append]
  cases deed with
  | create => rfl
  | insert values => exact List.countP_cons_of_pos rfl
  | edit | delete | drop | other => exact List.countP_cons_of_neg Bool.false_ne_true

namespace Served

variable {σ δ : Type} [DecidableEq σ]

/-- The events of a run. -/
def events (perform : δ → Session → String → Outcome Response × δ) :
    Served σ δ → List (σ × String) → List Event
  | _, [] => []
  | served, request :: rest =>
    let (outcome, next) := step perform served request
    ⟨served.sessions request.1, request.2, outcome⟩ :: events perform next rest

/-- What the events of a run did to one table. -/
def deeds (perform : δ → Session → String → Outcome Response × δ) (db name : String)
    (served : Served σ δ) (requests : List (σ × String)) : List Deed :=
  (events perform served requests).map (·.deed db name)

theorem deeds_cons (perform : δ → Session → String → Outcome Response × δ) (db name : String)
    (served : Served σ δ) (request : σ × String) (rest : List (σ × String)) :
    deeds perform db name served (request :: rest) =
      Event.deed ⟨served.sessions request.1, request.2, (step perform served request).1⟩ db name ::
        deeds perform db name (step perform served request).2 rest := rfl

theorem length_deeds (perform : δ → Session → String → Outcome Response × δ) (db name : String)
    (served : Served σ δ) (requests : List (σ × String)) :
    (deeds perform db name served requests).length = requests.length := by
  induction requests generalizing served with
  | nil => rfl
  | cons request rest ih => rw [deeds_cons, List.length_cons, ih, List.length_cons]

end Served

/-! ## Turns of a table -/

def Contents.ids (contents : Contents) : List String := contents.rows.map Row.id

/-- What is held of a table before and after it is dealt with; `none` where there is no table. A new
row comes behind all others and has the id that follows the last one. Rows that are edited keep
their places and their ids, and rows that are not deleted stay as they are. -/
inductive Deed.Turns : Deed → Option Contents → Option Contents → Prop
  | create {after : Contents} : after.rows = [] → after.lastId = 0 → Turns .create none (some after)
  | insert {contents : Contents} {values : List String} :
    Turns (.insert values) (some contents) (some { contents with
      rows := contents.rows ++ [⟨toString (contents.lastId + 1) :: values⟩]
      lastId := contents.lastId + 1 })
  | edit {contents after : Contents} : after.lastId = contents.lastId →
    List.Forall₂ (fun row next => row.id = next.id) contents.rows after.rows →
    Turns .edit (some contents) (some after)
  | delete {contents : Contents} {rows : List Row} : rows.Sublist contents.rows →
    Turns .delete (some contents) (some { contents with rows })
  | drop {before : Option Contents} : Turns .drop before none
  | other {held : Option Contents} : Turns .other held held

/-- What is held of a table before and after it is dealt with again and again. -/
inductive Descends : List Deed → Option Contents → Option Contents → Prop
  | nil {held : Option Contents} : Descends [] held held
  | cons {deed : Deed} {deeds : List Deed} {held next last : Option Contents} :
    deed.Turns held next → Descends deeds next last → Descends (deed :: deeds) held last

theorem Row.forall₂_id_iff {rows after : List Row} :
    List.Forall₂ (fun row next => row.id = next.id) rows after ↔
      rows.map Row.id = after.map Row.id := by
  have same := congrFun (congrFun (@List.forall₂_eq_eq_eq String) (rows.map Row.id))
    (after.map Row.id)
  rw [List.forall₂_map_left_iff, List.forall₂_map_right_iff] at same
  exact iff_of_eq same

theorem Deed.turns_edit {table after : Table} (lastId : after.lastId = table.lastId)
    (ids : after.ids = table.ids) :
    Deed.edit.Turns (some (.ofTable table)) (some (.ofTable after)) :=
  .edit lastId (Row.forall₂_id_iff.mpr ids.symm)

namespace Memory

variable {home : Database} {tables after : Tables} {name other : String}

theorem lookup_of_load {table : Table} (h : load home tables name = .ok table) :
    tables.lookup name = some (.ofTable table) ∧
      table = (Contents.ofTable table).table home name := by
  unfold load at h
  split at h
  · next contents found =>
    cases h
    exact ⟨found, rfl⟩
  · cases h

/-- A table that is stored again turns, and the others stay. -/
theorem turns_insert {deed : Deed} {contents : Contents}
    (turns : deed.Turns (tables.lookup name) (some contents)) :
    (if name = other then deed else .other).Turns (tables.lookup other)
      ((tables.insert name contents).lookup other) := by
  split
  · next same =>
    subst same
    rwa [AList.lookup_insert]
  · next apart =>
    rw [AList.lookup_insert_ne (Ne.symm apart)]
    exact .other

/-- A loaded table is changed and stored again. -/
theorem turns_change {deed : Deed} {change : Table → Result Table} {text : Option String}
    (turns : ∀ table after, load home tables name = .ok table → change table = .ok after →
      deed.Turns (some (.ofTable table)) (some (.ofTable after)))
    (h : Outcome.ofResult (do
      let table ← load home tables name
      stored tables name <$> change table) = .ok (text, after)) (other : String) :
    (if name = other then deed else .other).Turns (tables.lookup other) (after.lookup other) := by
  obtain ⟨table, loaded, h⟩ := bind_eq_ok.mp (Outcome.ofResult_eq_ok.mp h)
  obtain ⟨next, changed, same⟩ := map_eq_ok.mp h
  cases same
  refine turns_insert ?_
  rw [(lookup_of_load loaded).1]
  exact turns table next loaded changed

theorem turns_of_runTable
    (sound : ∀ name contents, tables.lookup name = some contents →
      (contents.table home name).IsSound)
    {statement : TableStatement} (readable : (Statement.table statement).IsReadable)
    {text : Option String} (h : runTable home tables statement = .ok (text, after))
    (other : String) :
    (statement.deed other).Turns (tables.lookup other) (after.lookup other) := by
  have soundLoaded : ∀ name table, load home tables name = .ok table → table.IsSound := by
    intro name table loaded
    obtain ⟨found, same⟩ := lookup_of_load loaded
    rw [same]
    exact sound name _ found
  cases statement with
  | create name names =>
    obtain ⟨table, made, h⟩ := bind_eq_ok.mp (Outcome.ofResult_eq_ok.mp h)
    split at h
    · cases h
    · next absent =>
      cases h
      have areNames : ∀ column ∈ names, IsName column := by
        rcases readable.2 with rfl | valid
        · exact nofun
        · exact valid.isName
      have follows := TableStatement.follows_withAttributes (Table.IsSound.new _ _) areNames made
      refine turns_insert ?_
      rw [AList.lookup_eq_none.mpr absent]
      exact .create (TableStatement.rows_withAttributes rfl made) follows.lastId_eq
  | drop name =>
    replace h : (if name ∈ tables then _ else _) = _ := Outcome.ofResult_eq_ok.mp h
    split at h
    · cases h
      rw [TableStatement.deed]
      split
      · next same =>
        subst same
        rw [AList.lookup_erase]
        exact .drop
      · next apart =>
        rw [AList.lookup_erase_ne (Ne.symm apart)]
        exact .other
    · cases h
  | alter name change =>
    refine turns_change (fun table next loaded changed => ?_) h other
    have isSound := soundLoaded name table loaded
    have areNames : ∀ column, change = .add column → IsName column := by
      rintro column rfl
      exact readable.2.isName
    exact Deed.turns_edit (TableStatement.follows_alterTable isSound areNames changed).lastId_eq
      (TableStatement.ids_alterTable isSound changed)
  | insert name values =>
    obtain ⟨table, loaded, h⟩ := bind_eq_ok.mp h
    obtain ⟨added, inserted, h⟩ := bind_eq_ok.mp h
    rw [Outcome.ofResult_eq_ok] at loaded inserted
    cases added with
    | none => cases h
    | some pair =>
      cases h
      refine turns_insert ?_
      obtain ⟨-, -, same, -, after⟩ := Table.insert_eq_some.mp inserted
      rw [(lookup_of_load loaded).1, after, same]
      exact .insert
  | update name assignments condition =>
    refine turns_change (fun table next loaded changed => ?_) h other
    have isSound := soundLoaded name table loaded
    have literals : ∀ a ∈ assignments, Value.isLiteral a.value = true :=
      fun a mem => (readable.2.1.sound a mem).isLiteral
    exact Deed.turns_edit (TableStatement.follows_updateTable isSound literals changed).lastId_eq
      (TableStatement.ids_updateTable isSound literals changed)
  | delete name condition =>
    refine turns_change (fun table next loaded changed => ?_) h other
    obtain ⟨mask, -, deleted⟩ := bind_eq_ok.mp changed
    cases deleted
    exact .delete (Table.unselected_sublist mask table.rows)
  | select name columns condition =>
    obtain ⟨table, -, h⟩ := bind_eq_ok.mp (Outcome.ofResult_eq_ok.mp h)
    obtain ⟨shown, -, same⟩ := bind_eq_ok.mp h
    cases same
    exact .other
  | join primary secondary =>
    obtain ⟨left, -, h⟩ := bind_eq_ok.mp (Outcome.ofResult_eq_ok.mp h)
    obtain ⟨right, -, h⟩ := bind_eq_ok.mp h
    obtain ⟨shown, -, same⟩ := bind_eq_ok.mp h
    cases same
    exact .other

end Memory

/-! ## Turns of a store -/

/-- What a store holds of the table of a name in a database. -/
def Store.contents? (store : Store) (db name : String) : Option Contents :=
  (store.lookup db).bind fun tables => tables.lookup name

namespace Store

variable {store : Store} {db other name : String} {tables : Tables}

theorem contents?_of_lookup (found : store.lookup db = some tables) :
    store.contents? db name = tables.lookup name := by
  rw [contents?, found]
  rfl

theorem contents?_of_not_mem (absent : db ∉ store) : store.contents? db name = none := by
  rw [contents?, AList.lookup_eq_none.mpr absent]
  rfl

theorem contents?_insert_self :
    Store.contents? (store.insert db tables) db name = tables.lookup name :=
  contents?_of_lookup (AList.lookup_insert _)

theorem contents?_insert_of_ne (apart : other ≠ db) :
    Store.contents? (store.insert db tables) other name = store.contents? other name := by
  rw [contents?, AList.lookup_insert_ne apart]
  rfl

theorem contents?_erase_self : Store.contents? (store.erase db) db name = none := by
  rw [contents?, AList.lookup_erase]
  rfl

theorem contents?_erase_of_ne (apart : other ≠ db) :
    Store.contents? (store.erase db) other name = store.contents? other name := by
  rw [contents?, AList.lookup_erase_ne apart]
  rfl

end Store

theorem Event.deed_of_error (session : Session) (text : String) (failure : Failure)
    (db name : String) : (Event.mk session text (.error failure)).deed db name = .other := rfl

/-- A statement that is done turns every table by what it does to it. -/
theorem Memory.turns_of_perform {site : Site} {store next : Store}
    (sound : site.IsSoundStore store) {session : Session} {text : String} {response : Response}
    (h : Memory.perform site.root store session text = .ok (response, next)) (db name : String) :
    ((Event.mk session text (.ok response)).deed db name).Turns (store.contents? db name)
      (next.contents? db name) := by
  obtain ⟨statement, parsed, h⟩ := bind_eq_ok.mp h
  rw [Outcome.ofResult_eq_ok] at parsed
  have readable := Statement.isReadable_of_parse parsed
  unfold Event.deed
  dsimp only
  rw [parsed]
  cases statement with
  | database statement =>
    replace h := Outcome.ofResult_eq_ok.mp h
    cases statement with
    | use other =>
      replace h : (if other ∈ store then _ else _) = _ := h
      split at h
      · cases h
        exact .other
      · cases h
    | create other =>
      replace h : (if other ∈ store then _ else _) = _ := h
      split at h
      · cases h
      · next absent =>
        cases h
        dsimp only
        by_cases same : db = other
        · subst same
          rw [Store.contents?_insert_self, Store.contents?_of_not_mem absent]
          exact .other
        · rw [Store.contents?_insert_of_ne same]
          exact .other
    | drop other =>
      replace h : (if other ∈ store then _ else _) = _ := h
      split at h
      · cases h
        dsimp only
        split
        · next same =>
          subst same
          rw [Store.contents?_erase_self]
          exact .drop
        · next apart =>
          rw [Store.contents?_erase_of_ne (Ne.symm apart)]
          exact .other
      · cases h
  | table statement =>
    dsimp only at h ⊢
    split at h
    · cases h
    · next other working =>
      split at h
      · cases h
      · next tables found =>
        obtain ⟨⟨shown, after⟩, ran, same⟩ := bind_eq_ok.mp h
        cases same
        rw [working]
        by_cases same : db = other
        · subst same
          rw [if_pos rfl, Store.contents?_insert_self, Store.contents?_of_lookup found]
          refine turns_of_runTable (fun name contents present => ?_) readable ran name
          exact (sound.tables db tables found name contents present).sound
        · rw [if_neg fun working => same (Option.some.inj working).symm,
            Store.contents?_insert_of_ne same]
          exact .other

namespace Site.Serves

variable {site : Site} {σ : Type} [DecidableEq σ] {files : Served σ Tree}
  {memory : Served σ Store} {engine : Engine}

/-- A request turns every table by what it does to it. -/
theorem turn (h : site.Serves files memory) (root : engine.root = site.root)
    (request : σ × String) :
    ∃ next, site.Serves (Served.step engine.perform files request).2 next ∧
      ∀ db name, ((Event.mk (files.sessions request.1) request.2
        (Served.step engine.perform files request).1).deed db name).Turns
          (memory.data.contents? db name) (next.data.contents? db name) := by
  obtain ⟨next, serves, same | ⟨-, rfl, failure, failed⟩⟩ := h.step root request
  · refine ⟨next, serves, fun db name => ?_⟩
    rw [Served.step, Memory.step, ← h.sessions] at same
    cases ran : Memory.perform engine.root memory.data (files.sessions request.1) request.2 with
    | error failure =>
      rw [ran] at same
      obtain ⟨outcome, rfl⟩ := Prod.mk.inj same
      rw [← outcome, Event.deed_of_error]
      exact .other
    | ok done =>
      obtain ⟨response, store⟩ := done
      rw [ran] at same
      obtain ⟨outcome, rfl⟩ := Prod.mk.inj same
      rw [← outcome]
      rw [root] at ran
      exact Memory.turns_of_perform h.sound ran db name
  · refine ⟨next, serves, fun db name => ?_⟩
    rw [failed, Event.deed_of_error]
    exact .other

/-- A run turns every table by what its requests do to it, one after the other. -/
theorem descends_run (h : site.Serves files memory) (root : engine.root = site.root)
    (requests : List (σ × String)) :
    ∃ last, site.Serves (Served.run engine.perform files requests).2 last ∧
      ∀ db name, Descends (Served.deeds engine.perform db name files requests)
        (memory.data.contents? db name) (last.data.contents? db name) := by
  induction requests generalizing files memory with
  | nil => exact ⟨memory, h, fun _ _ => .nil⟩
  | cons request rest ih =>
    obtain ⟨next, serves, turns⟩ := h.turn root request
    obtain ⟨last, served, descends⟩ := ih serves
    exact ⟨last, served, fun db name => .cons (turns db name) (descends db name)⟩

end Site.Serves

end TabStore
