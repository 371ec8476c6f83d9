import TabStore.Proofs.Table.Shown

/-!
# Rows under a mask

A mask has a bit for each row that it reaches, and a mask that is too short or too long is no fault.
DELETE counts the rows that it drops by what is left of them, and UPDATE sets cells by position, one
assignment after the other. Its assignments are checked before the first cell is set.

Results:
1. `resolveAssignments_eq_error`, `resolveAssignments_eq_ok`: the first assignment that is refused
   decides; if there is none, the assignments stand for the positions of their attributes;
2. `setCells_eq_overwritten`: cells that are set in sequence hold what they are assigned last;
3. `setRows_eq`, `unselected_eq`: all rows that the mask selects are set or dropped, and no others;
4. `masked_rows`: what DELETE and UPDATE make of a table.
-/

namespace TabStore

theorem mapIdx_eq_self {α : Type} {f : Nat → α → α} {list : List α} (same : ∀ i a, f i a = a) :
    list.mapIdx f = list := by
  refine List.mapIdx_eq_iff.mpr fun i => ?_
  rw [funext (same i)]
  exact Option.map_id'.symm

/-- The value of the last assignment to an attribute. -/
def lastValue? (assignments : List Assignment) (name : String) : Option String :=
  (assignments.reverse.find? (·.target = name)).map Assignment.value

/-- A row in which each cell holds the value of the last assignment to the attribute that is found
at its position, if there is one. -/
def Row.overwritten (attributes : List String) (assignments : List Assignment) (row : Row) : Row :=
  ⟨row.cells.mapIdx fun index cell =>
    ((assignments.reverse.find? fun a => attributes.idxOf a.target = index).map
      Assignment.value).getD cell⟩

namespace Row

variable {attributes : List String} {row : Row}

theorem overwritten_nil : row.overwritten attributes [] = row :=
  congrArg Row.mk (mapIdx_eq_self fun _ _ => rfl)

/-- An assignment is seen where no later one is to the same attribute. -/
theorem overwritten_set (a : Assignment) (rest : List Assignment) :
    Row.overwritten attributes rest ⟨row.cells.set (attributes.idxOf a.target) a.value⟩ =
      row.overwritten attributes (a :: rest) := by
  refine congrArg Row.mk (List.ext_getElem ?_ fun i _ _ => ?_)
  · rw [List.length_mapIdx, List.length_mapIdx, List.length_set]
  · simp only [List.getElem_mapIdx, List.getElem_set, List.reverse_cons, List.find?_append]
    cases rest.reverse.find? fun later => attributes.idxOf later.target = i with
    | some later => rfl
    | none => by_cases here : attributes.idxOf a.target = i <;> simp [here]

/-- Under each attribute stands the value of the last assignment to it, or what stood there. -/
theorem cellUnder?_overwritten (assignments : List Assignment)
    (width : row.width = attributes.length) {name : String} (present : name ∈ attributes) :
    (row.overwritten attributes assignments).cellUnder? attributes name =
      (lastValue? assignments name).or (row.cellUnder? attributes name) := by
  have sameWidth : (row.overwritten attributes assignments).width = attributes.length :=
    List.length_mapIdx.trans width
  have same : ∀ a : Assignment,
      decide (attributes.idxOf a.target = attributes.idxOf name) = decide (a.target = name) := by
    intro a
    rw [decide_eq_decide, eq_comm, List.idxOf_inj present, eq_comm]
  obtain ⟨inside, found⟩ := cellUnder?_of_mem present width
  obtain ⟨_, foundAfter⟩ := cellUnder?_of_mem present sameWidth
  rw [found, foundAfter, lastValue?]
  simp only [overwritten, List.getElem_mapIdx, same]
  cases assignments.reverse.find? fun a => decide (a.target = name) with
  | none => rfl
  | some a => rfl

end Row

namespace Table

variable {table : Table}

/-! ## Assignments -/

/-- Why a table refuses an assignment. -/
def refusal? (table : Table) (a : Assignment) : Option Error :=
  if a.target = idAttribute then some (.protectedAttribute a.target)
  else if a.target ∈ table.attributes then none
  else some (.attributeNotFound table.name a.target)

theorem refusal?_eq_none {a : Assignment} :
    table.refusal? a = none ↔ a.target ≠ idAttribute ∧ a.target ∈ table.attributes := by
  unfold refusal?
  split
  · next isId => simp [isId]
  · next notId => simp [notId]

theorem resolveAssignments_eq_error {assignments : List Assignment} {e : Error}
    (refused : assignments.findSome? table.refusal? = some e) :
    table.resolveAssignments assignments = .error e := by
  induction assignments with
  | nil => cases refused
  | cons a rest ih =>
    rw [List.findSome?_cons] at refused
    rw [resolveAssignments]
    cases first : table.refusal? a with
    | none =>
      obtain ⟨notId, present⟩ := refusal?_eq_none.mp first
      rw [first] at refused
      rw [if_neg notId, attributeIndex_of_mem present, ok_bind, ih refused, error_bind]
    | some error =>
      rw [first] at refused
      cases refused
      unfold refusal? at first
      split at first
      · next isId =>
        cases first
        rw [if_pos isId]
      · next notId =>
        split at first
        · cases first
        · next absent =>
          cases first
          rw [if_neg notId, attributeIndex_of_not_mem absent, error_bind]

theorem resolveAssignments_eq_ok {assignments : List Assignment}
    (accepted : assignments.findSome? table.refusal? = none) :
    table.resolveAssignments assignments =
      .ok (assignments.map fun a => (table.attributes.idxOf a.target, a.value)) := by
  rw [List.findSome?_eq_none_iff] at accepted
  induction assignments with
  | nil => rfl
  | cons a rest ih =>
    rw [List.forall_mem_cons] at accepted
    obtain ⟨notId, present⟩ := refusal?_eq_none.mp accepted.1
    rw [resolveAssignments, if_neg notId, attributeIndex_of_mem present, ok_bind, ih accepted.2]
    rfl

theorem setCells_eq_overwritten {assignments : List Assignment}
    (present : ∀ a ∈ assignments, a.target ∈ table.attributes) {row : Row}
    (width : row.width = table.attributes.length) :
    setCells (assignments.map fun a => (table.attributes.idxOf a.target, a.value)) row =
      (.ok (), row.overwritten table.attributes assignments) := by
  induction assignments generalizing row with
  | nil => rw [Row.overwritten_nil]; rfl
  | cons a rest ih =>
    rw [List.forall_mem_cons] at present
    have inside : table.attributes.idxOf a.target < row.width :=
      (List.idxOf_lt_length_of_mem present.1).trans_eq width.symm
    have one : row.set (table.attributes.idxOf a.target) a.value =
        .ok ⟨row.cells.set (table.attributes.idxOf a.target) a.value⟩ := if_pos inside
    have sameWidth : Row.width ⟨row.cells.set (table.attributes.idxOf a.target) a.value⟩ =
        table.attributes.length := (List.length_set ..).trans width
    rw [List.map_cons, setCells, one]
    exact (ih present.2 sameWidth).trans (congrArg _ (Row.overwritten_set a rest))

/-! ## Selected rows -/

/-- Whether the bit of a row is there and set. -/
def isSelected (mask : List Bool) (index : Nat) : Bool := mask[index]? == some true

/-- The number of rows, among so many, that a mask selects. -/
def selectedCount (mask : List Bool) (rows : Nat) : Nat :=
  (List.range rows).countP (isSelected mask)

@[simp] theorem isSelected_nil (index : Nat) : isSelected [] index = false := rfl

@[simp] theorem isSelected_cons_zero (bit : Bool) (mask : List Bool) :
    isSelected (bit :: mask) 0 = bit := by
  cases bit <;> rfl

@[simp] theorem isSelected_cons_succ (bit : Bool) (mask : List Bool) (index : Nat) :
    isSelected (bit :: mask) (index + 1) = isSelected mask index := rfl

theorem selectedCount_nil (rows : Nat) : selectedCount [] rows = 0 := by
  rw [selectedCount, List.countP_eq_zero]
  exact fun index _ => Bool.false_ne_true

theorem selectedCount_cons (bit : Bool) (mask : List Bool) (rows : Nat) :
    selectedCount (bit :: mask) (rows + 1) = selectedCount mask rows + bit.toNat := by
  rw [selectedCount, List.range_succ_eq_map, List.countP_cons, List.countP_map,
    isSelected_cons_zero]
  cases bit <;> rfl

theorem setRows_eq {changes : List (Nat × String)} {f : Row → Row} {rows : List Row}
    (set : ∀ row ∈ rows, setCells changes row = (.ok (), f row)) (mask : List Bool) :
    setRows changes mask rows = (.ok (selectedCount mask rows.length),
      rows.mapIdx fun index row => if isSelected mask index then f row else row) := by
  induction rows generalizing mask with
  | nil => cases mask <;> rfl
  | cons row rest ih =>
    rw [List.forall_mem_cons] at set
    cases mask with
    | nil =>
      have unchanged := @mapIdx_eq_self _
        (fun index row => if isSelected [] index then f row else row) (row :: rest) fun _ _ => rfl
      rw [selectedCount_nil, unchanged]
      rfl
    | cons bit mask =>
      rw [setRows, ih set.2, set.1, List.length_cons, selectedCount_cons, List.mapIdx_cons]
      cases bit <;> rfl

/-- The rows that a mask does not select, in their order. -/
theorem unselected_eq (mask : List Bool) (rows : List Row) :
    unselected mask rows = (rows.zipIdx.filter fun row => !isSelected mask row.2).map Prod.fst := by
  fun_induction unselected mask rows with
  | case1 => rfl
  | case2 rows some => simp
  | case3 mask row rows ih =>
    rw [List.zipIdx_cons', ih]
    simp [List.filter_map, Function.comp_def]
  | case4 bit mask row rows unset ih =>
    rw [List.zipIdx_cons', ih]
    simp [List.filter_map, Function.comp_def, unset]

theorem length_unselected (mask : List Bool) (rows : List Row) :
    (unselected mask rows).length + selectedCount mask rows.length = rows.length := by
  fun_induction unselected mask rows with
  | case1 => rfl
  | case2 rows some => rw [selectedCount_nil, Nat.add_zero]
  | case3 mask row rows ih => rw [List.length_cons, selectedCount_cons, ← Nat.add_assoc, ih]; rfl
  | case4 bit mask row rows unset ih =>
    rw [List.length_cons, List.length_cons, selectedCount_cons, Bool.eq_false_iff.mpr unset,
      Nat.add_right_comm]
    exact congrArg (· + 1) ih

/-- DELETE drops exactly the rows whose bit is there and set, and counts them. UPDATE fails and
changes nothing if an assignment is to `id` or to an attribute that is not there. Otherwise it
counts the same rows, each of which then holds under every attribute the value of the last
assignment to it; all other cells and rows are as before. -/
theorem masked_rows (rectangular : table.IsRectangular) (mask : List Bool)
    (assignments : List Assignment) :
    let count := selectedCount mask table.rows.length
    (table.deletedCount mask = count ∧ table.delete mask = { table with
      rows := (table.rows.zipIdx.filter fun row => !isSelected mask row.2).map Prod.fst }) ∧
    ((∃ a ∈ assignments, a.target = idAttribute ∨ a.target ∉ table.attributes) →
      ∃ e, assignments.findSome? table.refusal? = some e ∧
        table.update mask assignments = (.error e, table)) ∧
    ((∀ a ∈ assignments, a.target ≠ idAttribute ∧ a.target ∈ table.attributes) →
      table.update mask assignments = (.ok count, { table with
        rows := table.rows.mapIdx fun index row =>
          if isSelected mask index then row.overwritten table.attributes assignments else row }) ∧
      ∀ row ∈ table.rows, ∀ name ∈ table.attributes,
        (row.overwritten table.attributes assignments).cellUnder? table.attributes name =
          (lastValue? assignments name).or (row.cellUnder? table.attributes name)) := by
  refine ⟨⟨?_, ?_⟩, fun ⟨a, mem, bad⟩ => ?_, fun accepted => ⟨?_, fun row mem name present => ?_⟩⟩
  · exact Nat.sub_eq_of_eq_add' (length_unselected mask table.rows).symm
  · rw [delete, unselected_eq]
  · cases refused : assignments.findSome? table.refusal? with
    | none =>
      obtain ⟨notId, present⟩ := refusal?_eq_none.mp (List.findSome?_eq_none_iff.mp refused a mem)
      exact absurd bad (not_or.mpr ⟨notId, not_not.mpr present⟩)
    | some e =>
      refine ⟨e, rfl, ?_⟩
      rw [update, resolveAssignments_eq_error refused]
  · have noRefusal : assignments.findSome? table.refusal? = none :=
      List.findSome?_eq_none_iff.mpr fun a mem => refusal?_eq_none.mpr (accepted a mem)
    rw [update, resolveAssignments_eq_ok noRefusal]
    dsimp only
    rw [setRows_eq fun row mem =>
      setCells_eq_overwritten (fun a asked => (accepted a asked).2) (rectangular row mem)]
  · exact Row.cellUnder?_overwritten assignments (rectangular row mem) present

/-- The mask reaches beyond the rows, and one attribute is assigned twice. -/
theorem masked_rows_assigned_twice :
    let table : Table := ⟨"t", ⟨"d"⟩, ["id", "n", "m"], [⟨["1", "2", "3"]⟩, ⟨["4", "5", "6"]⟩], 4⟩
    let mask := [false, true, true]
    table.IsRectangular ∧
      table.deletedCount mask = 1 ∧
      table.delete mask = { table with rows := [⟨["1", "2", "3"]⟩] } ∧
      table.update mask [⟨"m", "7"⟩, ⟨"x", "8"⟩] =
        (.error (.attributeNotFound "t" "x"), table) ∧
      table.update mask [⟨"m", "7"⟩, ⟨"n", "8"⟩, ⟨"m", "9"⟩] =
        (.ok 1, { table with rows := [⟨["1", "2", "3"]⟩, ⟨["4", "8", "9"]⟩] }) := by
  intro table mask
  have rectangular : table.IsRectangular := by decide
  obtain ⟨⟨counted, deleted⟩, fails, -⟩ := masked_rows rectangular mask [⟨"m", "7"⟩, ⟨"x", "8"⟩]
  obtain ⟨e, refused, failed⟩ := fails ⟨⟨"x", "8"⟩, by decide, by decide⟩
  cases refused
  obtain ⟨-, -, succeeds⟩ := masked_rows rectangular mask [⟨"m", "7"⟩, ⟨"n", "8"⟩, ⟨"m", "9"⟩]
  exact ⟨rectangular, counted, deleted, failed, (succeeds (by decide)).1⟩

end Table

end TabStore
