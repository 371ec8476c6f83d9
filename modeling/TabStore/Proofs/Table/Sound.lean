import Mathlib.Data.List.Nodup
import TabStore.Proofs.Items
import TabStore.Proofs.Result
import TabStore.Statement.Effect

/-!
# Sound tables

What holds of every table that statements build: the schema starts with `id` and names no attribute
twice, every row is as wide as the schema and holds literals, and the ids count upwards to no more
than the last id, which fits 64 bits.

Results:
1. one lemma for each operation on rows: it keeps rows sound and their ids as they are;
2. `Table.IsSound.insert`, `Table.IsSound.update`, `Table.IsSound.delete`,
   `Table.IsSound.appendAttribute`, `Table.IsSound.removeAttribute`: every operation on tables keeps
   them sound, and `follows_alterTable` and its siblings say so of the statements that use them.
-/

namespace TabStore

/-- A row of the given width in which every cell but the id is a literal. -/
structure Row.IsSound (width : Nat) (row : Row) : Prop where
  width_eq : row.width = width
  literals : ∀ cell ∈ row.cells.tail, Value.isLiteral cell = true

/-- Ids that count upwards from 1 to at most `last`. -/
structure AscendTo (last : Nat) (ids : List Nat) : Prop where
  increasing : ids.Pairwise (· < ·)
  bounds : ∀ id ∈ ids, 1 ≤ id ∧ id ≤ last

structure Table.IsSound (table : Table) : Prop where
  head : table.attributes.head? = some idAttribute
  isName : ∀ name ∈ table.attributes, IsName name
  nodup : table.attributes.Nodup
  rows : ∀ row ∈ table.rows, row.IsSound table.attributes.length
  ids : ∃ ids : List Nat, table.rows.map Row.id = ids.map toString ∧ AscendTo table.lastId ids
  fits : table.lastId < Table.idLimit

/-- All rows are as wide as the schema. -/
def Table.IsRectangular (table : Table) : Prop :=
  ∀ row ∈ table.rows, row.width = table.attributes.length

instance (table : Table) : Decidable table.IsRectangular :=
  inferInstanceAs (Decidable (∀ row ∈ table.rows, row.width = table.attributes.length))

/-- A sound table in the place of another one, with a last id. -/
structure Table.Follows (after table : Table) (lastId : Nat) : Prop where
  sound : after.IsSound
  name_eq : after.name = table.name
  directory_eq : after.directory = table.directory
  lastId_eq : after.lastId = lastId

theorem isName_id : IsName idAttribute := by
  show validateName idAttribute = .ok ()
  rfl

theorem isLiteral_placeholder : Value.isLiteral placeholder = true := by
  decide

/-! ## Rows -/

/-- Setting another cell keeps the id. -/
theorem Row.id_set {row after : Row} {index : Nat} (notId : 1 ≤ index) {cell : String}
    (h : row.set index cell = .ok after) : after.id = row.id := by
  obtain ⟨before, rfl⟩ : ∃ before, index = before + 1 := ⟨index - 1, by omega⟩
  unfold Row.set at h
  split at h
  · cases h
    rw [Row.id, Row.id]
    cases row.cells with
    | nil => rfl
    | cons id rest => rfl
  · cases h

namespace Row.IsSound

variable {width : Nat} {row : Row}

theorem exists_cons (sound : row.IsSound (width + 1)) : ∃ id rest, row.cells = id :: rest := by
  refine List.exists_cons_of_ne_nil fun empty => ?_
  have width_eq := sound.width_eq
  rw [Row.width, empty] at width_eq
  cases width_eq

theorem push (sound : row.IsSound (width + 1)) {cell : String}
    (literal : Value.isLiteral cell = true) :
    (row.push cell).IsSound (width + 2) ∧ (row.push cell).id = row.id := by
  obtain ⟨id, rest, same⟩ := sound.exists_cons
  refine ⟨⟨?_, fun other mem => ?_⟩, ?_⟩
  · have width_eq := sound.width_eq
    rw [Row.width] at width_eq ⊢
    simp [Row.push, width_eq]
  · have literals := sound.literals
    rw [Row.push, same] at mem
    rw [same] at literals
    rcases List.mem_append.mp mem with old | new
    · exact literals other old
    · rw [List.mem_singleton.mp new]
      exact literal
  · rw [Row.push, Row.id, Row.id, same]
    rfl

theorem remove (sound : row.IsSound (width + 1)) {index : Nat} (notId : 1 ≤ index) {after : Row}
    (h : row.remove index = .ok after) : after.IsSound width ∧ after.id = row.id := by
  obtain ⟨id, rest, same⟩ := sound.exists_cons
  obtain ⟨before, rfl⟩ : ∃ before, index = before + 1 := ⟨index - 1, by omega⟩
  unfold Row.remove at h
  split at h
  · next inside =>
    cases h
    have width_eq := sound.width_eq
    rw [Row.width] at inside width_eq
    refine ⟨⟨?_, fun cell mem => ?_⟩, ?_⟩
    · rw [Row.width, List.length_eraseIdx_of_lt inside, width_eq]
      rfl
    · have literals := sound.literals
      rw [same] at mem literals
      exact literals cell (List.mem_of_mem_eraseIdx mem)
    · rw [Row.id, Row.id, same]
      rfl
  · cases h

theorem set (sound : row.IsSound width) {index : Nat} (notId : 1 ≤ index) {cell : String}
    (literal : Value.isLiteral cell = true) {after : Row} (h : row.set index cell = .ok after) :
    after.IsSound width := by
  obtain ⟨before, rfl⟩ : ∃ before, index = before + 1 := ⟨index - 1, by omega⟩
  unfold Row.set at h
  split at h
  · next inside =>
    cases h
    refine ⟨?_, fun other mem => ?_⟩
    · rw [← sound.width_eq, Row.width, Row.width, List.length_set]
    · cases same : row.cells with
      | nil =>
        rw [same] at mem
        cases mem
      | cons id rest =>
        have literals := sound.literals
        rw [same] at mem literals
        rcases List.mem_or_eq_of_mem_set mem with old | rfl
        · exact literals other old
        · exact literal
  · cases h

end Row.IsSound

namespace Table

/-- What setting one cell keeps, setting several keeps. -/
theorem setCells_keeps {P : Row → Prop} {changes : List (Nat × String)}
    (step : ∀ change ∈ changes, ∀ row after,
      P row → row.set change.1 change.2 = .ok after → P after)
    {row after : Row} (start : P row) (h : setCells changes row = (.ok (), after)) : P after := by
  induction changes generalizing row with
  | nil =>
    cases h
    exact start
  | cons change rest ih =>
    obtain ⟨index, value⟩ := change
    rw [List.forall_mem_cons] at step
    rw [setCells] at h
    split at h
    · next next found => exact ih step.2 (step.1 row next start found) h
    · cases h

/-- Each row is as it was or has had its cells set. -/
theorem forall₂_setRows {R : Row → Row → Prop} {changes : List (Nat × String)}
    (refl : ∀ row, R row row)
    (step : ∀ row after, setCells changes row = (.ok (), after) → R row after) {mask : List Bool}
    {rows after : List Row} {count : Nat} (h : setRows changes mask rows = (.ok count, after)) :
    List.Forall₂ R rows after := by
  induction rows generalizing mask after count with
  | nil =>
    rw [setRows] at h
    cases h
    exact .nil
  | cons row rest ih =>
    cases mask with
    | nil =>
      cases h
      exact List.forall₂_same.mpr fun row _ => refl row
    | cons isSelected mask =>
      cases found : setRows changes mask rest with
      | mk outcome tail =>
        rw [setRows, found] at h
        split at h
        · split at h
          · cases h
          · next changed set =>
            cases outcome with
            | error e => cases h
            | ok number =>
              cases h
              exact .cons (step row _ set) (ih found)
        · cases h
          exact .cons (refl row) (ih found)

/-- What setting cells keeps of each row, setting them in the selected rows keeps of all. -/
theorem setRows_keeps {P : Row → Prop} {changes : List (Nat × String)}
    (step : ∀ row after, P row → setCells changes row = (.ok (), after) → P after)
    {mask : List Bool} {rows after : List Row} {count : Nat} (start : ∀ row ∈ rows, P row)
    (h : setRows changes mask rows = (.ok count, after)) : ∀ row ∈ after, P row := by
  have related := forall₂_setRows (R := fun row after => P row → P after) (fun _ kept => kept)
    (fun row after set kept => step row after kept set) h
  clear h
  induction related with
  | nil => exact start
  | cons first later ih =>
    rw [List.forall_mem_cons] at start ⊢
    exact ⟨first start.1, ih start.2⟩

/-- Positions of attributes other than the id, with literals for them. -/
theorem setRows_ok {width : Nat} {changes : List (Nat × String)} {mask : List Bool}
    {rows after : List Row} {count : Nat}
    (valid : ∀ change ∈ changes, 1 ≤ change.1 ∧ Value.isLiteral change.2 = true)
    (sound : ∀ row ∈ rows, row.IsSound width)
    (h : setRows changes mask rows = (.ok count, after)) :
    (∀ row ∈ after, row.IsSound width) ∧ after.map Row.id = rows.map Row.id := by
  refine ⟨setRows_keeps (fun row after isSound set => ?_) sound h, ?_⟩
  · refine setCells_keeps (fun change mem between next start found => ?_) isSound set
    exact start.set (valid change mem).1 (valid change mem).2 found
  · have sameId : ∀ row after, setCells changes row = (.ok (), after) → after.id = row.id := by
      intro row after set
      refine setCells_keeps (P := fun next => next.id = row.id)
        (fun change mem between next start found => ?_) rfl set
      exact (Row.id_set (valid change mem).1 found).trans start
    have related :=
      forall₂_setRows (R := fun row after => after.id = row.id) (fun _ => rfl) sameId h
    clear h sound
    induction related with
    | nil => rfl
    | cons first later ih => rw [List.map_cons, List.map_cons, first, ih]

theorem removeCells_ok {width index : Nat} (notId : 1 ≤ index) {rows after : List Row}
    (sound : ∀ row ∈ rows, row.IsSound (width + 1))
    (h : removeCells index rows = (.ok (), after)) :
    (∀ row ∈ after, row.IsSound width) ∧ after.map Row.id = rows.map Row.id := by
  induction rows generalizing after with
  | nil =>
    cases h
    exact ⟨nofun, rfl⟩
  | cons row rest ih =>
    rw [List.forall_mem_cons] at sound
    rw [removeCells] at h
    split at h
    · cases h
    · next changed removed =>
      obtain ⟨soundRow, sameId⟩ := sound.1.remove notId removed
      cases found : removeCells index rest with
      | mk outcome tail =>
        rw [found] at h
        cases h
        obtain ⟨soundTail, sameIds⟩ := ih sound.2 found
        rw [List.forall_mem_cons, List.map_cons, List.map_cons, sameId, sameIds]
        exact ⟨⟨soundRow, soundTail⟩, rfl⟩

theorem selected_sublist (mask : List Bool) (rows : List Row) :
    (selected mask rows).Sublist rows := by
  fun_induction selected mask rows with
  | case1 => exact List.Sublist.refl _
  | case2 => exact List.nil_sublist _
  | case3 mask row rows ih => exact ih.cons_cons row
  | case4 _ mask row rows _ ih => exact ih.cons row

theorem unselected_sublist (mask : List Bool) (rows : List Row) :
    (unselected mask rows).Sublist rows := by
  fun_induction unselected mask rows with
  | case1 => exact List.Sublist.refl _
  | case2 => exact List.Sublist.refl _
  | case3 mask row rows ih => exact ih.cons row
  | case4 _ mask row rows _ ih => exact ih.cons_cons row

/-! ## Tables -/

section
variable {table after : Table}

theorem attributeIndex_ok {name : String} {index : Nat}
    (h : table.attributeIndex name = .ok index) :
    ∃ inside : index < table.attributes.length, table.attributes[index] = name := by
  unfold attributeIndex at h
  split at h
  · next found =>
    cases h
    obtain ⟨inside, same, -⟩ := List.findIdx?_eq_some_iff_getElem.mp found
    exact ⟨inside, by simpa using same⟩
  · cases h

theorem mem_of_attributeIndex {name : String} {index : Nat}
    (h : table.attributeIndex name = .ok index) : name ∈ table.attributes := by
  obtain ⟨inside, same⟩ := attributeIndex_ok h
  exact same ▸ List.getElem_mem inside

theorem attributeIndex_of_mem {name : String} (present : name ∈ table.attributes) :
    table.attributeIndex name = .ok (table.attributes.idxOf name) := by
  have found : table.attributes.findIdx? (· == name) = some (table.attributes.idxOf name) :=
    List.findIdx?_eq_some_of_exists ⟨name, present, beq_self_eq_true name⟩
  rw [attributeIndex, found]

theorem attributeIndex_of_not_mem {name : String} (absent : name ∉ table.attributes) :
    table.attributeIndex name = .error (.attributeNotFound table.name name) := by
  have none : table.attributes.findIdx? (· == name) = none := by
    rw [List.findIdx?_eq_none_iff]
    exact fun other mem => beq_false_of_ne fun same => absent (same ▸ mem)
  rw [attributeIndex, none]

/-- The first position is that of `id`. -/
theorem index_pos (head : table.attributes.head? = some idAttribute) {name : String}
    (notId : name ≠ idAttribute) {index : Nat} (h : table.attributeIndex name = .ok index) :
    1 ≤ index := by
  obtain ⟨inside, same⟩ := attributeIndex_ok h
  obtain ⟨rest, attributes⟩ := List.head?_eq_some_iff.mp head
  cases index with
  | zero =>
    simp only [attributes, List.getElem_cons_zero] at same
    exact absurd same.symm notId
  | succ before => exact Nat.succ_pos before

theorem resolveAssignments_ok (head : table.attributes.head? = some idAttribute)
    {assignments : List Assignment} (literals : ∀ a ∈ assignments, Value.isLiteral a.value = true)
    {changes : List (Nat × String)} (h : table.resolveAssignments assignments = .ok changes) :
    ∀ change ∈ changes, 1 ≤ change.1 ∧ Value.isLiteral change.2 = true := by
  induction assignments generalizing changes with
  | nil =>
    cases h
    exact nofun
  | cons a rest ih =>
    rw [List.forall_mem_cons] at literals
    rw [resolveAssignments] at h
    split at h
    · cases h
    · next notId =>
      obtain ⟨index, found, h⟩ := bind_eq_ok.mp h
      obtain ⟨resolved, later, h⟩ := bind_eq_ok.mp h
      cases h
      rw [List.forall_mem_cons]
      exact ⟨⟨index_pos head notId found, literals.1⟩, ih literals.2 later⟩

theorem nextId?_eq_some {id next : Nat} :
    nextId? id = some next ↔ next = id + 1 ∧ next < idLimit := by
  rw [nextId?, Option.ite_none_right_eq_some, Option.some.injEq]
  constructor
  · rintro ⟨fits, rfl⟩
    exact ⟨rfl, fits⟩
  · rintro ⟨rfl, fits⟩
    exact ⟨fits, rfl⟩

theorem nextId?_eq_none {id : Nat} : nextId? id = none ↔ idLimit ≤ id + 1 := by
  simp [nextId?]

/-- What a row has to be for the next id to be looked for. -/
theorem insert_eq_ok {values : List String} {added : Option (Nat × Table)} :
    table.insert values = .ok added ↔
      values.length = table.attributes.length - 1 ∧ (∀ raw ∈ values, Value.isLiteral raw = true) ∧
        added = (nextId? table.lastId).map fun id =>
          (id, { table with rows := table.rows ++ [⟨toString id :: values⟩], lastId := id }) := by
  unfold insert
  dsimp only
  split
  · next wrong => exact ⟨nofun, fun ⟨width, _⟩ => absurd width wrong⟩
  · next width =>
    rw [ne_eq, not_not] at width
    split
    · next raw found =>
      refine ⟨nofun, fun ⟨_, literals, _⟩ => ?_⟩
      have notLiteral := List.find?_some found
      rw [literals raw (List.mem_of_find?_eq_some found)] at notLiteral
      cases notLiteral
    · next none =>
      have literals : ∀ raw ∈ values, Value.isLiteral raw = true := fun raw mem => by
        simpa using List.find?_eq_none.mp none raw mem
      rw [Except.ok.injEq, eq_comm]
      exact ⟨fun same => ⟨width, literals, same⟩, fun h => h.2.2⟩

/-- What a row has to be for it to be added, and the table with it. -/
theorem insert_eq_some {values : List String} {id : Nat} :
    table.insert values = .ok (some (id, after)) ↔
      values.length = table.attributes.length - 1 ∧ (∀ raw ∈ values, Value.isLiteral raw = true) ∧
        id = table.lastId + 1 ∧ id < idLimit ∧
        after = { table with rows := table.rows ++ [⟨toString id :: values⟩], lastId := id } := by
  rw [insert_eq_ok, eq_comm (a := some _), Option.map_eq_some_iff]
  refine and_congr_right fun _ => and_congr_right fun _ => ⟨?_, ?_⟩
  · rintro ⟨next, follows, ⟨⟩⟩
    obtain ⟨same, fits⟩ := nextId?_eq_some.mp follows
    exact ⟨same, fits, rfl⟩
  · rintro ⟨same, fits, rfl⟩
    exact ⟨id, nextId?_eq_some.mpr ⟨same, fits⟩, rfl⟩

/-- A statement panics over a row only if it could add the row but for its id. -/
theorem insert_eq_none {values : List String} :
    table.insert values = .ok none ↔
      values.length = table.attributes.length - 1 ∧ (∀ raw ∈ values, Value.isLiteral raw = true) ∧
        idLimit ≤ table.lastId + 1 := by
  rw [insert_eq_ok, eq_comm (a := none), Option.map_eq_none_iff, nextId?_eq_none]

namespace IsSound

theorem exists_attributes (sound : table.IsSound) :
    ∃ rest, table.attributes = idAttribute :: rest := by
  obtain ⟨rest, same⟩ := List.head?_eq_some_iff.mp sound.head
  exact ⟨rest, same⟩

theorem new (directory : Path) (name : String) : (Table.new directory name).IsSound where
  head := rfl
  isName := by
    intro other mem
    rw [List.mem_singleton.mp mem]
    exact isName_id
  nodup := List.nodup_singleton _
  rows := nofun
  ids := ⟨[], rfl, List.Pairwise.nil, nofun⟩
  fits := show 0 < idLimit by decide

theorem insert (sound : table.IsSound) {values : List String} {id : Nat}
    (h : table.insert values = .ok (some (id, after))) :
    after.Follows table (table.lastId + 1) := by
  obtain ⟨rest, attributes⟩ := sound.exists_attributes
  obtain ⟨ids, same, ascend⟩ := sound.ids
  obtain ⟨width, literals, rfl, fits, rfl⟩ := insert_eq_some.mp h
  rw [attributes, List.length_cons, Nat.add_sub_cancel] at width
  refine ⟨⟨sound.head, sound.isName, sound.nodup, fun row mem => ?_, ?_, fits⟩, rfl, rfl, rfl⟩
  · rcases List.mem_append.mp mem with old | new
    · exact sound.rows row old
    · rw [List.mem_singleton.mp new]
      refine ⟨?_, literals⟩
      rw [attributes]
      simp [Row.width, width]
  · -- The new id is above all others, which are at most the last one.
    refine ⟨ids ++ [table.lastId + 1], ?_, ?_, fun other mem => ?_⟩
    · rw [List.map_append, List.map_append, same]
      rfl
    · rw [List.pairwise_append]
      refine ⟨ascend.increasing, List.pairwise_singleton _ _, fun a old b new => ?_⟩
      have bound := (ascend.bounds a old).2
      rw [List.mem_singleton.mp new]
      omega
    · rcases List.mem_append.mp mem with old | new
      · have bound := ascend.bounds other old
        exact ⟨bound.1, Nat.le_succ_of_le bound.2⟩
      · rw [List.mem_singleton.mp new]
        exact ⟨Nat.succ_pos _, Nat.le_refl _⟩

/-- A table whose rows are other rows with the same ids is sound as well. -/
theorem withRows (sound : table.IsSound) {rows : List Row}
    (soundRows : ∀ row ∈ rows, row.IsSound table.attributes.length)
    (sameIds : rows.map Row.id = table.rows.map Row.id) : ({ table with rows } : Table).IsSound :=
  ⟨sound.head, sound.isName, sound.nodup, soundRows, by
    obtain ⟨ids, same, ascend⟩ := sound.ids
    exact ⟨ids, sameIds.trans same, ascend⟩, sound.fits⟩

theorem update (sound : table.IsSound) {mask : List Bool} {assignments : List Assignment}
    (literals : ∀ a ∈ assignments, Value.isLiteral a.value = true) {count : Nat}
    (h : table.update mask assignments = (.ok count, after)) :
    after.Follows table table.lastId := by
  unfold Table.update at h
  split at h
  · cases h
  · next changes resolved =>
    cases found : setRows changes mask table.rows with
    | mk outcome rows =>
      rw [found] at h
      cases h
      obtain ⟨soundRows, sameIds⟩ := setRows_ok (resolveAssignments_ok sound.head literals resolved)
        sound.rows found
      exact ⟨sound.withRows soundRows sameIds, rfl, rfl, rfl⟩

theorem delete (sound : table.IsSound) (mask : List Bool) : (table.delete mask).IsSound := by
  have kept := unselected_sublist mask table.rows
  refine ⟨sound.head, sound.isName, sound.nodup, fun row mem => sound.rows row (kept.mem mem), ?_,
    sound.fits⟩
  obtain ⟨ids, same, ascend⟩ := sound.ids
  have keptIds := kept.map Row.id
  rw [same] at keptIds
  obtain ⟨keptNumbers, sublist, sameKept⟩ := List.sublist_map_iff.mp keptIds
  exact ⟨keptNumbers, sameKept, ascend.increasing.sublist sublist, fun id mem =>
    ascend.bounds id (sublist.mem mem)⟩

theorem appendAttribute (sound : table.IsSound) {name : String} (isName : IsName name)
    (h : table.appendAttribute name = .ok after) :
    after.Follows table table.lastId := by
  obtain ⟨rest, attributes⟩ := sound.exists_attributes
  unfold Table.appendAttribute at h
  split at h
  · cases h
  · next new =>
    cases h
    have pushed : ∀ row ∈ table.rows, (row.push placeholder).IsSound (rest.length + 2) ∧
        (row.push placeholder).id = row.id := by
      intro row mem
      have soundRow := sound.rows row mem
      rw [attributes] at soundRow
      exact soundRow.push isLiteral_placeholder
    refine ⟨⟨?_, fun other mem => ?_, ?_, fun row mem => ?_, ?_, sound.fits⟩, rfl, rfl, rfl⟩
    · show (table.attributes ++ [name]).head? = _
      rw [attributes]
      rfl
    · rcases List.mem_append.mp mem with old | added
      · exact sound.isName other old
      · rw [List.mem_singleton.mp added]
        exact isName
    · have absent : name ∉ table.attributes := by simpa using new
      exact sound.nodup.append (List.nodup_singleton name) (by simpa using absent)
    · obtain ⟨old, present, rfl⟩ := List.mem_map.mp mem
      have same : (table.attributes ++ [name]).length = rest.length + 2 := by simp [attributes]
      show Row.IsSound (table.attributes ++ [name]).length _
      rw [same]
      exact (pushed old present).1
    · obtain ⟨ids, same, ascend⟩ := sound.ids
      refine ⟨ids, ?_, ascend⟩
      rw [← same, List.map_map]
      exact List.map_congr_left fun row mem => (pushed row mem).2

theorem removeAttribute (sound : table.IsSound) {name : String}
    (h : table.removeAttribute name = (.ok (), after)) :
    after.Follows table table.lastId := by
  obtain ⟨rest, attributes⟩ := sound.exists_attributes
  unfold Table.removeAttribute at h
  split at h
  · cases h
  · next notId =>
    split at h
    · cases h
    · next index found =>
      -- The removed column is not the first, so the ids stay.
      have notFirst := index_pos sound.head notId found
      obtain ⟨inside, -⟩ := attributeIndex_ok found
      cases removed : removeCells index table.rows with
      | mk outcome rows =>
        rw [removed] at h
        cases h
        have soundRows : ∀ row ∈ table.rows, row.IsSound (rest.length + 1) := by
          intro row mem
          have soundRow := sound.rows row mem
          rwa [attributes] at soundRow
        obtain ⟨stillSound, sameIds⟩ := removeCells_ok notFirst soundRows removed
        refine ⟨⟨?_, fun other mem => ?_, ?_, fun row mem => ?_, ?_, sound.fits⟩, rfl, rfl, rfl⟩
        · show (table.attributes.eraseIdx index).head? = _
          obtain ⟨before, rfl⟩ : ∃ before, index = before + 1 := ⟨index - 1, by omega⟩
          rw [attributes]
          rfl
        · exact sound.isName other (List.mem_of_mem_eraseIdx mem)
        · exact sound.nodup.sublist (List.eraseIdx_sublist _ _)
        · have width : (table.attributes.eraseIdx index).length = rest.length := by
            rw [List.length_eraseIdx_of_lt inside, attributes]
            rfl
          show Row.IsSound (table.attributes.eraseIdx index).length row
          rw [width]
          exact stillSound row mem
        · obtain ⟨ids, same, ascend⟩ := sound.ids
          exact ⟨ids, sameIds.trans same, ascend⟩

end IsSound

end

end Table

/-! ## Statements -/

namespace TableStatement

variable {table after : Table}

theorem follows_withAttributes (sound : table.IsSound) {names : List String}
    (isName : ∀ name ∈ names, IsName name) (h : withAttributes table names = .ok after) :
    after.Follows table table.lastId := by
  induction names generalizing table with
  | nil =>
    cases h
    exact ⟨sound, rfl, rfl, rfl⟩
  | cons name rest ih =>
    rw [List.forall_mem_cons] at isName
    obtain ⟨next, appended, h⟩ := bind_eq_ok.mp h
    have first := sound.appendAttribute isName.1 appended
    have later := ih first.sound isName.2 h
    exact ⟨later.sound, later.name_eq.trans first.name_eq,
      later.directory_eq.trans first.directory_eq, later.lastId_eq.trans first.lastId_eq⟩

theorem changed_ok {α : Type} {outcome : Result α × Table} (h : changed outcome = .ok after) :
    ∃ a, outcome = (.ok a, after) := by
  unfold changed at h
  split at h
  · cases h
    exact ⟨_, rfl⟩
  · cases h

theorem follows_alterTable (sound : table.IsSound) {change : SchemaChange}
    (isName : ∀ name, change = .add name → IsName name) (h : alterTable table change = .ok after) :
    after.Follows table table.lastId := by
  cases change with
  | add name => exact sound.appendAttribute (isName name rfl) h
  | drop name =>
    obtain ⟨⟨⟩, removed⟩ := changed_ok h
    exact sound.removeAttribute removed

theorem follows_updateTable (sound : table.IsSound) {assignments : List Assignment}
    {condition : Condition} (literals : ∀ a ∈ assignments, Value.isLiteral a.value = true)
    (h : updateTable table assignments condition = .ok after) :
    after.Follows table table.lastId := by
  obtain ⟨mask, -, h⟩ := bind_eq_ok.mp h
  obtain ⟨count, updated⟩ := changed_ok h
  exact sound.update literals updated

theorem follows_deleteRows (sound : table.IsSound) {condition : Condition}
    (h : deleteRows table condition = .ok after) :
    after.Follows table table.lastId := by
  obtain ⟨mask, -, h⟩ := bind_eq_ok.mp h
  cases h
  exact ⟨sound.delete mask, rfl, rfl, rfl⟩

/-- An INSERT that is not refused loads its table, and either stores it with one more row or panics
over the id of that row. -/
theorem effect_insert_eq_ok {tree : Tree} {home : Database} {name : String} {values : List String}
    {effect : Effect} : (insert name values).effect tree home = .ok effect ↔
      ∃ table, home.load tree name = .ok table ∧
        ((∃ id after, table.insert values = .ok (some (id, after)) ∧ effect = .store after) ∨
          table.insert values = .ok none ∧ effect = .panic) := by
  rw [TableStatement.effect, bind_eq_ok]
  refine exists_congr fun table => and_congr_right fun _ => ?_
  rw [bind_eq_ok]
  constructor
  · rintro ⟨_ | ⟨id, after⟩, inserted, ⟨⟩⟩
    · exact .inr ⟨inserted, rfl⟩
    · exact .inl ⟨id, after, inserted, rfl⟩
  · rintro (⟨id, after, inserted, rfl⟩ | ⟨full, rfl⟩)
    · exact ⟨_, inserted, rfl⟩
    · exact ⟨_, full, rfl⟩

end TableStatement

end TabStore
