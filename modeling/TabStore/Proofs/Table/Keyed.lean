import TabStore.Proofs.Condition.Integers
import TabStore.Proofs.Table.Selected
import TabStore.Proofs.Table.Swapped

/-!
# Rows found by an integer

WHERE with one equality, UPDATE with such a condition and JOIN find rows by an integer. They find
the rows whose integer has the same nearest double-precision number, so a row with another integer
is found only where both integers are 2^53 or further from zero.

Results:
1. `isSelected_iff`: which rows with an integer an equality selects;
2. `getElem?_setRows`, `getElem?_updateTable`: UPDATE leaves the other rows as they are;
3. `sameDouble_of_mem_matching`: the integers in the rows that a join matches;
4. `integers_rounded`: how integers compare, and which rows are found by them.
-/

namespace TabStore

open Number (IntRoundsTo SameDouble)

/-- This integer stands in a row under an attribute. -/
def Row.HoldsInteger (attributes : List String) (row : Row) (name : String) (i : Int) : Prop :=
  ∃ cell, row.cellUnder? attributes name = some cell ∧ Value.parse cell = .ok (.int i)

/-- The condition that an attribute is equal to a literal. -/
def Condition.IsEquality (condition : Condition) (name literal : String) : Prop :=
  condition.terms = [.operand name, .operand literal, .operator .equal]

section Where

variable {table : Table} {row : Row} {condition : Condition} {name literal : String} {i n : Int}
  {mask : List Bool} {k : Nat}

theorem exists_cell_of_cellUnder {cell : String}
    (found : row.cellUnder? table.attributes name = some cell) :
    ∃ index, table.attributeIndex name = .ok index ∧ row.cell? index = some cell := by
  have present : name ∈ table.attributes := by
    obtain ⟨before, after, same, -⟩ := List.lookup_eq_some_iff.mp found
    have mem : (name, cell) ∈ table.attributes.zip row.cells := by simp [same]
    exact (List.of_mem_zip mem).1
  obtain ⟨index, resolved⟩ := Table.exists_attributeIndex present
  exact ⟨index, resolved, Table.cellUnder?_eq resolved row ▸ found⟩

theorem evaluate_equality (equality : condition.IsEquality name literal) {cell : String}
    (found : row.cellUnder? table.attributes name = some cell) :
    condition.evaluate table row = .ok (cellsEqual cell literal) := by
  obtain ⟨index, resolved, at?⟩ := exists_cell_of_cellUnder found
  have compared : Condition.compareCell table row .equal name literal =
      .ok (cellsEqual cell literal) := by
    rw [Condition.compareCell, resolved, ok_bind]
    simp [at?, Condition.compare]
  rw [Condition.evaluate, equality]
  simp [Condition.evaluateFrom, Condition.evaluateOperator, Operator.isBoolean, compared]

theorem holds_iff_sameDouble (equality : condition.IsEquality name literal)
    (parsed : Value.parse literal = .ok (.int n)) (held : row.HoldsInteger table.attributes name i) :
    condition.holds table row = true ↔ SameDouble i n := by
  obtain ⟨cell, found, parsed'⟩ := held
  rw [Condition.holds, evaluate_equality equality found, decide_eq_true_eq, Except.ok.injEq]
  exact Condition.cellsEqual_iff_sameDouble parsed' parsed

theorem isSelected_iff (equality : condition.IsEquality name literal)
    (parsed : Value.parse literal = .ok (.int n)) (filtered : condition.filter table = .ok mask)
    (at? : table.rows[k]? = some row) (held : row.HoldsInteger table.attributes name i) :
    Table.isSelected mask k = true ↔ SameDouble i n := by
  rw [Condition.mask_eq_of_filter filtered, Table.isSelected, List.getElem?_map, at?,
    Option.map_some, beq_iff_eq, Option.some.injEq]
  exact holds_iff_sameDouble equality parsed held

/-- UPDATE changes no row that its mask does not select, even if it fails half way. -/
theorem getElem?_setRows {changes : List (Nat × String)} {rows : List Row}
    (unset : Table.isSelected mask k = false) :
    (Table.setRows changes mask rows).2[k]? = rows[k]? := by
  induction rows generalizing mask k with
  | nil => cases mask <;> rfl
  | cons row rest ih =>
    cases mask with
    | nil => rfl
    | cons bit mask =>
      cases k with
      | zero =>
        rw [Table.isSelected_cons_zero] at unset
        rw [Table.setRows, unset]
        rfl
      | succ k =>
        rw [Table.isSelected_cons_succ] at unset
        rw [Table.setRows]
        cases bit with
        | false => exact ih unset
        | true =>
          cases Table.setCells changes row with
          | mk outcome row' =>
            cases outcome with
            | error e => rfl
            | ok _ => exact ih unset

theorem getElem?_updateTable {assignments : List Assignment} {after : Table}
    (equality : condition.IsEquality name literal) (parsed : Value.parse literal = .ok (.int n))
    (updated : TableStatement.updateTable table assignments condition = .ok after)
    (at? : table.rows[k]? = some row) (held : row.HoldsInteger table.attributes name i)
    (apart : ¬ SameDouble i n) : after.rows[k]? = some row := by
  obtain ⟨mask, filtered, updated⟩ := bind_eq_ok.mp updated
  obtain ⟨_, updated⟩ := TableStatement.changed_ok updated
  have unset : Table.isSelected mask k = false := by
    rwa [← Bool.not_eq_true, isSelected_iff equality parsed filtered at? held]
  unfold Table.update at updated
  split at updated
  · cases updated
  · have rows := congrArg (fun outcome => outcome.2.rows[k]?) updated
    exact rows.symm.trans ((getElem?_setRows unset).trans at?)

end Where

/-! ## Joins -/

namespace Table

theorem sameDouble_of_mem_matching {primary secondary : Table} {on on' : String}
    (present : on ∈ primary.attributes) (present' : on' ∈ secondary.attributes)
    {pair : (Row × Nat) × (Row × Nat)} (mem : pair ∈ matching primary on secondary on') {i j : Int}
    (held : pair.1.1.HoldsInteger primary.attributes on i)
    (held' : pair.2.1.HoldsInteger secondary.attributes on' j) : SameDouble i j := by
  obtain ⟨cell, found, parsed⟩ := held
  obtain ⟨cell', found', parsed'⟩ := held'
  obtain ⟨-, -, equal⟩ := mem_matching.mp mem
  obtain ⟨a, b, at?, at?', same⟩ := matchesOn_eq_true.mp equal
  rw [cellUnder?_eq (attributeIndex_of_mem present), at?, Option.some.injEq] at found
  rw [cellUnder?_eq (attributeIndex_of_mem present'), at?', Option.some.injEq] at found'
  rw [found, found'] at same
  exact (Condition.cellsEqual_iff_sameDouble parsed parsed').mp same

end Table

/-! ## Integers as numbers -/

/-- Integers compare as integers unless they have the same nearest double-precision number, which
makes them equal; two integers that have it are the same, or both are 2^53 or further from zero. So
an equality with an integer selects exactly the rows whose integer has the same nearest number, an
UPDATE leaves all other rows with integers as they are, and a JOIN matches no other rows with
integers. -/
theorem integers_rounded :
    (∀ i, ∃! r, IntRoundsTo i r) ∧
    (∀ i r, IntRoundsTo i r → ∀ (q : Int) (place : Nat), q.natAbs ≤ 2 ^ 53 →
      Number.distance i r ≤ Number.distance i (q * (2 ^ place : Nat))) ∧
    (∀ i j, SameDouble i j →
      i = j ∨ 0x20000000000000 ≤ i.natAbs ∧ 0x20000000000000 ≤ j.natAbs) ∧
    (∀ a b i j, Value.parse a = .ok (.int i) → Value.parse b = .ok (.int j) →
      (cellsEqual a b = true ↔ SameDouble i j) ∧
      (SameDouble i j → Condition.ComparesAs a b .eq) ∧
      (¬ SameDouble i j → Condition.ComparesAs a b (compare i j)) ∧
      (i.natAbs < 0x20000000000000 ∨ j.natAbs < 0x20000000000000 →
        (cellsEqual a b = true ↔ i = j) ∧ Condition.ComparesAs a b (compare i j))) ∧
    (∀ (table : Table) (condition : Condition) (name literal : String) (n : Int),
      condition.IsEquality name literal → Value.parse literal = .ok (.int n) →
      ∀ k row i, table.rows[k]? = some row → row.HoldsInteger table.attributes name i →
        (∀ mask, condition.filter table = .ok mask →
          (Table.isSelected mask k = true ↔ SameDouble i n)) ∧
        ∀ assignments after, TableStatement.updateTable table assignments condition = .ok after →
          ¬ SameDouble i n → after.rows[k]? = some row) ∧
    ∀ (primary secondary : Table) (on on' : String) (joined : Table),
      primary.join on secondary on' = .ok joined →
      ∃ pairs, Table.AreMatches primary on secondary on' pairs ∧
        Table.IsMadeOf joined primary on secondary on' pairs ∧ ∀ pair ∈ pairs, ∀ i j,
          pair.1.1.HoldsInteger primary.attributes on i →
          pair.2.1.HoldsInteger secondary.attributes on' j → SameDouble i j := by
  refine ⟨fun i => ?_, fun _ _ rounded _ place bits => rounded.distance_le bits place,
    fun _ _ same => same.eq_or_great,
    fun a b i j parsed parsed' => ⟨?_, ?_, ?_, fun small => ⟨?_, ?_⟩⟩,
    fun table condition name literal n equality parsed k row i at? held => ⟨?_, ?_⟩,
    fun primary secondary on on' joined run => ?_⟩
  · obtain ⟨r, rounded⟩ := Number.exists_intRoundsTo i
    exact ⟨r, rounded, fun _ other => other.unique rounded⟩
  · exact Condition.cellsEqual_iff_sameDouble parsed parsed'
  · exact Condition.comparesAs_of_sameDouble parsed parsed'
  · exact Condition.comparesAs_of_not_sameDouble parsed parsed'
  · have equal := (Condition.comparesAs_of_small parsed parsed' small).equal
    rw [Except.ok.inj equal, Ordering.isEq_iff_eq_eq, compare_eq_iff_eq]
  · exact Condition.comparesAs_of_small parsed parsed' small
  · exact fun mask filtered => isSelected_iff equality parsed filtered at? held
  · exact fun assignments after updated => getElem?_updateTable equality parsed updated at? held
  · obtain ⟨present, present'⟩ := Table.join_eq_ok_iff.mp ⟨joined, run⟩
    exact ⟨_, Table.areMatches_matching present present', Table.isMadeOf_of_join run,
      fun pair mem i j => Table.sameDouble_of_mem_matching present present' mem⟩

/-- Behind 2^53, numbers are even: the integer between two of them is equal to one and less than the
other. -/
theorem integers_rounded_of_neighbours :
    let table : Table := ⟨"t", ⟨"d"⟩, ["id", "n"],
      [⟨["1", "9007199254740993"]⟩, ⟨["2", "9007199254740994"]⟩], 2⟩
    let condition : Condition :=
      ⟨[.operand "n", .operand "9007199254740992", .operator .equal]⟩
    SameDouble 9007199254740993 9007199254740992 ∧
      ¬ SameDouble 9007199254740994 9007199254740992 ∧
      Condition.ComparesAs "9007199254740993" "9007199254740992" .eq ∧
      Condition.ComparesAs "9007199254740994" "9007199254740992" .gt ∧
      condition.filter table = .ok [true, false] ∧
      ∃ after, TableStatement.updateTable table [⟨"n", "0"⟩] condition = .ok after ∧
        after.rows[1]? = some ⟨["2", "9007199254740994"]⟩ := by
  intro table condition
  obtain ⟨-, -, -, cells, equality, -⟩ := integers_rounded
  have odd : Value.parse "9007199254740993" = .ok (.int 9007199254740993) := by decide +kernel
  have low : Value.parse "9007199254740992" = .ok (.int 9007199254740992) := by decide +kernel
  have high : Value.parse "9007199254740994" = .ok (.int 9007199254740994) := by decide +kernel
  obtain ⟨equal, asEqual, -⟩ := cells _ _ _ _ odd low
  obtain ⟨unequal, -, asIntegers, -⟩ := cells _ _ _ _ high low
  have same := equal.mp (by decide +kernel)
  have apart := mt unequal.mpr (by decide +kernel)
  have held : Row.HoldsInteger table.attributes ⟨["2", "9007199254740994"]⟩ "n" 9007199254740994 :=
    ⟨_, by decide, high⟩
  obtain ⟨-, updated⟩ := equality table condition "n" _ _ rfl low 1 _ _ rfl held
  have run : TableStatement.updateTable table [⟨"n", "0"⟩] condition = .ok { table with
      rows := [⟨["1", "0"]⟩, ⟨["2", "9007199254740994"]⟩] } := by decide +kernel
  exact ⟨same, apart, asEqual same, asIntegers apart, by decide +kernel, _, run,
    updated _ _ run apart⟩

/-- Integers do not compare as integers. -/
theorem not_integers_compared :
    Value.parse "9007199254740993" = .ok (.int 9007199254740993) ∧
      Value.parse "9007199254740992" = .ok (.int 9007199254740992) ∧
      cellsEqual "9007199254740993" "9007199254740992" = true ∧
      Condition.compare .greater "9007199254740993" "9007199254740992" = .ok false ∧
      ¬ ∀ a b i j, Value.parse a = .ok (.int i) → Value.parse b = .ok (.int j) →
        (cellsEqual a b = true ↔ i = j) := by
  have odd : Value.parse "9007199254740993" = .ok (.int 9007199254740993) := by decide +kernel
  have even : Value.parse "9007199254740992" = .ok (.int 9007199254740992) := by decide +kernel
  have equal : cellsEqual "9007199254740993" "9007199254740992" = true := by decide +kernel
  refine ⟨odd, even, equal, by decide +kernel, fun exact => ?_⟩
  exact absurd ((exact _ _ _ _ odd even).mp equal) (by decide)

end TabStore
