import Mathlib.Data.List.ProdSigma
import Mathlib.Data.Prod.Basic
import TabStore.Proofs.Meaning
import TabStore.Proofs.Table.Joined

/-!
# Joins in the opposite order

Which rows a join matches is a question of equality of cells alone, and that is symmetric. The pairs
of rows come in another order, since the rows of the other table count first.

Results:
1. `matching_swapped`: tables that change places match in the same pairs of rows;
2. `join_eq_ok_iff`: when two tables are joined;
3. `areMatches_matching`, `isMadeOf_of_join`: the rows of a join, made from the pairs that match;
4. `join_swapped`: equality of cells as an equivalence, and what follows for joins.
-/

namespace TabStore.Table

variable {primary secondary joined : Table} {on on' : String}

theorem matchesOn_comm (index index' : Nat) (left right : Row) :
    matchesOn index index' left right = matchesOn index' index right left := by
  unfold matchesOn
  cases left.cell? index with
  | none => cases right.cell? index' <;> rfl
  | some a =>
    cases right.cell? index' with
    | none => rfl
    | some b => exact cellsEqual_comm a b

theorem nodup_matching (primary : Table) (on : String) (secondary : Table) (on' : String) :
    (matching primary on secondary on').Nodup := by
  refine (List.pairwise_map.mp (pairwise_matching primary on secondary on')).imp ?_
  rintro pair _ less rfl
  simp [Prod.lex_def] at less

/-- Tables that change places match in the same pairs of rows. -/
theorem matching_swapped (primary : Table) (on : String) (secondary : Table) (on' : String) :
    (matching secondary on' primary on).Perm
      ((matching primary on secondary on').map Prod.swap) := by
  -- No pair of rows is there twice, so it is enough that the same pairs are there.
  have nodup := (nodup_matching primary on secondary on').map Prod.swap_injective
  refine (List.perm_ext_iff_of_nodup (nodup_matching _ _ _ _) nodup).mpr ?_
  rintro ⟨left, right⟩
  rw [List.mem_map_swap, mem_matching, mem_matching, matchesOn_comm]
  exact and_left_comm

/-- The pairs of rows that match, each row with its position. -/
structure AreMatches (primary : Table) (on : String) (secondary : Table) (on' : String)
    (pairs : List ((Row × Nat) × (Row × Nat))) : Prop where
  nodup : pairs.Nodup
  mem_iff : ∀ pair, pair ∈ pairs ↔ primary.rows[pair.1.2]? = some pair.1.1 ∧
    secondary.rows[pair.2.2]? = some pair.2.1 ∧
    MatchAt primary on secondary on' (pair.1.2, pair.2.2)

theorem areMatches_matching (present : on ∈ primary.attributes)
    (present' : on' ∈ secondary.attributes) :
    AreMatches primary on secondary on' (matching primary on secondary on') := by
  refine ⟨nodup_matching primary on secondary on', fun pair => ?_⟩
  rw [matchAt_iff present present', List.mem_map]
  constructor
  · intro mem
    obtain ⟨at?, at?', -⟩ := mem_matching.mp mem
    exact ⟨at?, at?', pair, mem, rfl⟩
  · rintro ⟨at?, at?', other, mem, same⟩
    -- The pair that matches has the same positions, and these determine the rows.
    obtain ⟨found, found', -⟩ := mem_matching.mp mem
    rw [Prod.mk.injEq] at same
    rw [same.1, at?, Option.some.injEq] at found
    rw [same.2, at?', Option.some.injEq] at found'
    rwa [show pair = other from Prod.ext (Prod.ext found same.1.symm) (Prod.ext found' same.2.symm)]

/-- The rows of a join are made from these pairs of rows, in this order. -/
def IsMadeOf (joined primary : Table) (on : String) (secondary : Table) (on' : String)
    (pairs : List ((Row × Nat) × (Row × Nat))) : Prop :=
  joined.rows = pairs.mapIdx fun k pair => ⟨toString (k + 1) ::
    (primary.carriedCells (primary.attributes.idxOf on) pair.1.1 ++
      secondary.carriedCells (secondary.attributes.idxOf on') pair.2.1)⟩

theorem join_eq_ok_iff : (∃ joined, primary.join on secondary on' = .ok joined) ↔
    on ∈ primary.attributes ∧ on' ∈ secondary.attributes := by
  constructor
  · rintro ⟨joined, run⟩
    obtain ⟨index, found, run⟩ := bind_eq_ok.mp run
    obtain ⟨index', found', -⟩ := bind_eq_ok.mp run
    exact ⟨mem_of_attributeIndex found, mem_of_attributeIndex found'⟩
  · rintro ⟨present, present'⟩
    obtain ⟨joined, run, -⟩ := join_of_mem present present'
    exact ⟨joined, run⟩

theorem isMadeOf_of_join (run : primary.join on secondary on' = .ok joined) :
    IsMadeOf joined primary on secondary on' (matching primary on secondary on') := by
  obtain ⟨present, present'⟩ := join_eq_ok_iff.mp ⟨joined, run⟩
  obtain ⟨other, again, -, rows⟩ := join_of_mem present present'
  cases again.symm.trans run
  rw [IsMadeOf, rows, joinedCells_eq, numberRows_map]

/-- Equality of cells is an equivalence on all texts; a number is equal to numbers only, and a
boolean to booleans only. Two tables are therefore joined in one order exactly if they are in the
other, and the rows of both joins are made from the same pairs of rows. -/
theorem join_swapped :
    (Equivalence fun a b : String => cellsEqual a b = true) ∧
    (∀ a b, cellsEqual a b = true → (IsNumeric a ↔ IsNumeric b) ∧ (IsBoolean a ↔ IsBoolean b)) ∧
    ∀ (primary secondary : Table) (on on' : String),
      ((∃ joined, primary.join on secondary on' = .ok joined) ↔
        on ∈ primary.attributes ∧ on' ∈ secondary.attributes) ∧
      ∀ joined, primary.join on secondary on' = .ok joined →
        ∃ swapped pairs pairs', secondary.join on' primary on = .ok swapped ∧
          AreMatches primary on secondary on' pairs ∧ pairs'.Perm (pairs.map Prod.swap) ∧
          IsMadeOf joined primary on secondary on' pairs ∧
          IsMadeOf swapped secondary on' primary on pairs' := by
  refine ⟨equivalence_cellsEqual, fun a b same => ⟨isNumeric_congr same, isBoolean_congr same⟩,
    fun primary secondary on on' => ⟨join_eq_ok_iff, fun joined run => ?_⟩⟩
  obtain ⟨present, present'⟩ := join_eq_ok_iff.mp ⟨joined, run⟩
  obtain ⟨swapped, run'⟩ := join_eq_ok_iff.mpr ⟨present', present⟩
  exact ⟨swapped, _, _, run', areMatches_matching present present',
    matching_swapped primary on secondary on', isMadeOf_of_join run, isMadeOf_of_join run'⟩

/-- Both rows of the first table match the second row of the other one. -/
theorem join_swapped_of_equal_numbers :
    let primary : Table :=
      ⟨"t", ⟨"d"⟩, ["id", "n", "k"], [⟨["1", "-0", "7"]⟩, ⟨["2", "0.0", "8"]⟩], 2⟩
    let secondary : Table :=
      ⟨"u", ⟨"d"⟩, ["id", "m", "x"], [⟨["1", "x", "5"]⟩, ⟨["2", "00", "6"]⟩], 2⟩
    cellsEqual "-0" "0.0" = true ∧ (IsNumeric "-0" ↔ IsNumeric "0.0") ∧
    ∃ joined swapped pairs pairs', primary.join "n" secondary "m" = .ok joined ∧
      secondary.join "m" primary "n" = .ok swapped ∧
      joined.rows = [⟨["1", "7", "6"]⟩, ⟨["2", "8", "6"]⟩] ∧
      swapped.rows = [⟨["1", "6", "7"]⟩, ⟨["2", "6", "8"]⟩] ∧
      AreMatches primary "n" secondary "m" pairs ∧ List.Perm pairs' (pairs.map Prod.swap) := by
  intro primary secondary
  obtain ⟨-, kinds, joins⟩ := join_swapped
  have numbers : cellsEqual "-0" "0.0" = true := by decide +kernel
  have run : primary.join "n" secondary "m" = .ok ⟨"t_u", ⟨""⟩, ["id", "t.k", "u.x"],
      [⟨["1", "7", "6"]⟩, ⟨["2", "8", "6"]⟩], 2⟩ := by decide +kernel
  have computed : secondary.join "m" primary "n" = .ok ⟨"u_t", ⟨""⟩, ["id", "u.x", "t.k"],
      [⟨["1", "6", "7"]⟩, ⟨["2", "6", "8"]⟩], 2⟩ := by decide +kernel
  obtain ⟨swapped, pairs, pairs', run', matches', perm, -, -⟩ :=
    (joins primary secondary "n" "m").2 _ run
  cases computed.symm.trans run'
  exact ⟨numbers, (kinds _ _ numbers).1, _, _, pairs, pairs', run, run', rfl, rfl, matches', perm⟩

end TabStore.Table
