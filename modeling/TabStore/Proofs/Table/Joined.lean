import TabStore.Proofs.Table.Shown

/-!
# Joined tables

A join runs through the rows of the first table and, for each of them, through those of the second.
It picks names and cells by the positions of the columns that are carried over, so what stands under
a name in the result is the cell of the column that the name is made from. Nothing compares these
names, and two columns may be given the same one.

Results:
1. `carriedNames_eq`, `carriedCells_eq`: the columns that are carried over are all but the first and
   the one joined on, in the schema and in every row;
2. `mem_matching`, `pairwise_matching`: the pairs of rows that match, in lexicographic order;
3. `join_ordered`: the schema and the rows of a join, and when there is none;
4. `collide_iff`, `nodup_joined_iff`: when two columns of a join have the same name;
5. `not_nodup_joined_with_itself`: they do if a table is joined with itself.
-/

namespace TabStore

/-- The entries at some positions are what is left of all entries by their positions. -/
theorem filterMap_filter_range {α : Type} (p : Nat → Bool) (list : List α) :
    ((List.range list.length).filter p).filterMap (list[·]?) =
      (list.zipIdx.filter fun entry => p entry.2).map Prod.fst := by
  induction list generalizing p with
  | nil => rfl
  | cons first rest ih =>
    have later := ih fun index => p (index + 1)
    rw [List.length_cons, List.range_succ_eq_map, List.zipIdx_cons', List.filter_cons,
      List.filter_cons, List.filter_map, List.filter_map]
    cases p 0 with
    | true => simpa [List.filterMap_map, Function.comp_def] using later
    | false => simpa [List.filterMap_map, Function.comp_def] using later

/-- How many entries are left by their positions depends on their number alone. -/
theorem length_filter_zipIdx {α : Type} (p : Nat → Bool) (list : List α) :
    (list.zipIdx.filter fun entry => p entry.2).length =
      ((List.range list.length).filter p).length := by
  rw [List.range_eq_range', ← List.zipIdx_map_snd 0 list, List.filter_map, List.length_map]
  rfl

namespace Table

variable {primary secondary : Table} {on on' : String}

/-- Whether a join carries the column at a position over: it is neither the first one nor the one of
the attribute joined on. -/
def isCarried (table : Table) (on : String) (index : Nat) : Bool :=
  1 ≤ index && index != table.attributes.idxOf on

/-- Of entries in the order of the attributes, those that a join carries over. -/
def besides (table : Table) (on : String) (entries : List String) : List String :=
  (entries.zipIdx.filter fun entry => table.isCarried on entry.2).map Prod.fst

/-- The names that a join gives to the columns that it carries over. -/
def fullNames (table : Table) (on : String) : List String :=
  (table.besides on table.attributes).map fun name => table.name ++ "." ++ name

theorem carriedNames_eq (table : Table) (on : String) :
    table.carriedNames (table.attributes.idxOf on) = table.fullNames on := by
  rw [fullNames, besides, ← filterMap_filter_range, List.map_filterMap]
  rfl

theorem carriedCells_eq {table : Table} {row : Row} (width : row.width = table.attributes.length)
    (on : String) :
    table.carriedCells (table.attributes.idxOf on) row = table.besides on row.cells := by
  rw [besides, ← filterMap_filter_range, carriedCells, carried, ← width]
  rfl

/-- As many cells are carried over as names. -/
theorem length_besides {table : Table} {entries : List String}
    (same : entries.length = table.attributes.length) (on : String) :
    (table.besides on entries).length = (table.besides on table.attributes).length := by
  rw [besides, besides, List.length_map, List.length_map, length_filter_zipIdx,
    length_filter_zipIdx, same]

/-! ## Rows -/

/-- The rows that match, each with its position. -/
def matching (primary : Table) (on : String) (secondary : Table) (on' : String) :
    List ((Row × Nat) × (Row × Nat)) :=
  primary.rows.zipIdx.flatMap fun left =>
    (secondary.rows.zipIdx.filter fun right => matchesOn (primary.attributes.idxOf on)
      (secondary.attributes.idxOf on') left.1 right.1).map fun right => (left, right)

theorem mem_matching {pair : (Row × Nat) × (Row × Nat)} :
    pair ∈ matching primary on secondary on' ↔
      primary.rows[pair.1.2]? = some pair.1.1 ∧ secondary.rows[pair.2.2]? = some pair.2.1 ∧
      matchesOn (primary.attributes.idxOf on) (secondary.attributes.idxOf on') pair.1.1 pair.2.1 =
        true := by
  simp only [matching, List.mem_flatMap, List.mem_map, List.mem_filter,
    List.mem_zipIdx_iff_getElem?]
  constructor
  · rintro ⟨left, at?, right, ⟨at?', same⟩, rfl⟩
    exact ⟨at?, at?', same⟩
  · rintro ⟨at?, at?', same⟩
    exact ⟨pair.1, at?, pair.2, ⟨at?', same⟩, rfl⟩

theorem pairwise_zipIdx {α : Type} (list : List α) :
    list.zipIdx.Pairwise fun a b => a.2 < b.2 := by
  rw [← List.pairwise_map, List.zipIdx_map_snd]
  exact List.pairwise_lt_range'

/-- Positions in the first table count first, and then those in the second. -/
theorem pairwise_matching (primary : Table) (on : String) (secondary : Table) (on' : String) :
    ((matching primary on secondary on').map fun pair => (pair.1.2, pair.2.2)).Pairwise
      (Prod.Lex (· < ·) (· < ·)) := by
  rw [List.pairwise_map, matching, List.pairwise_flatMap]
  constructor
  · intro left _
    rw [List.pairwise_map]
    exact ((pairwise_zipIdx _).filter _).imp fun less => .right _ less
  · refine (pairwise_zipIdx _).imp fun less pair mem pair' mem' => ?_
    obtain ⟨right, -, rfl⟩ := List.mem_map.mp mem
    obtain ⟨right', -, rfl⟩ := List.mem_map.mp mem'
    exact .left _ _ less

/-- Each pair of rows that match gives the cells of a joined row. -/
theorem joinedCells_eq (primary : Table) (on : String) (secondary : Table) (on' : String) :
    joinedCells primary (primary.attributes.idxOf on) secondary (secondary.attributes.idxOf on') =
      (matching primary on secondary on').map fun pair =>
        primary.carriedCells (primary.attributes.idxOf on) pair.1.1 ++
          secondary.carriedCells (secondary.attributes.idxOf on') pair.2.1 := by
  calc joinedCells primary _ secondary _
    _ = (primary.rows.zipIdx.map Prod.fst).flatMap fun left =>
          ((secondary.rows.zipIdx.map Prod.fst).filter (matchesOn (primary.attributes.idxOf on)
            (secondary.attributes.idxOf on') left)).map fun right =>
              primary.carriedCells (primary.attributes.idxOf on) left ++
                secondary.carriedCells (secondary.attributes.idxOf on') right := by
      rw [List.zipIdx_map_fst, List.zipIdx_map_fst, joinedCells]
    _ = _ := by
      simp only [matching, List.flatMap_map, List.filter_map, List.map_flatMap, List.map_map]
      rfl

theorem numberRows_map {α : Type} (first : Nat) (f : α → List String) (list : List α) :
    numberRows first (list.map f) = list.mapIdx fun k a => ⟨toString (k + first) :: f a⟩ := by
  induction list generalizing first with
  | nil => rfl
  | cons a rest ih =>
    rw [List.map_cons, numberRows, ih, List.mapIdx_cons, Nat.zero_add]
    simp only [Nat.add_right_comm _ 1, Nat.add_assoc]

/-- The rows at two positions have equal cells under the attributes that their tables are joined
on. -/
def MatchAt (primary : Table) (on : String) (secondary : Table) (on' : String)
    (pair : Nat × Nat) : Prop :=
  ∃ left right a b, primary.rows[pair.1]? = some left ∧ secondary.rows[pair.2]? = some right ∧
    left.cellUnder? primary.attributes on = some a ∧
    right.cellUnder? secondary.attributes on' = some b ∧ cellsEqual a b = true

theorem matchesOn_eq_true {index index' : Nat} {left right : Row} :
    matchesOn index index' left right = true ↔
      ∃ a b, left.cell? index = some a ∧ right.cell? index' = some b ∧ cellsEqual a b = true := by
  unfold matchesOn
  split
  · next a b first second => simp [first, second]
  · next missing =>
    simp only [Bool.false_eq_true, false_iff]
    rintro ⟨a, b, first, second, -⟩
    exact missing a b first second

theorem matchAt_iff (present : on ∈ primary.attributes) (present' : on' ∈ secondary.attributes)
    {pair : Nat × Nat} :
    MatchAt primary on secondary on' pair ↔
      pair ∈ (matching primary on secondary on').map fun pair => (pair.1.2, pair.2.2) := by
  have under := fun row : Row => cellUnder?_eq (attributeIndex_of_mem present) row
  have under' := fun row : Row => cellUnder?_eq (attributeIndex_of_mem present') row
  simp only [MatchAt, under, under', List.mem_map, mem_matching, matchesOn_eq_true]
  constructor
  · rintro ⟨left, right, a, b, at?, at?', first, second, same⟩
    exact ⟨((left, pair.1), (right, pair.2)), ⟨at?, at?', a, b, first, second, same⟩, rfl⟩
  · rintro ⟨⟨⟨left, i⟩, ⟨right, j⟩⟩, ⟨at?, at?', a, b, first, second, same⟩, rfl⟩
    exact ⟨left, right, a, b, at?, at?', first, second, same⟩

/-- The rows of a join, numbered from 1. -/
theorem numberRows_joinedCells (rectangular : primary.IsRectangular)
    (rectangular' : secondary.IsRectangular) :
    numberRows 1 (joinedCells primary (primary.attributes.idxOf on) secondary
        (secondary.attributes.idxOf on')) =
      (matching primary on secondary on').mapIdx fun k pair => ⟨toString (k + 1) ::
        (primary.besides on pair.1.1.cells ++ secondary.besides on' pair.2.1.cells)⟩ := by
  have cells : ∀ pair ∈ matching primary on secondary on',
      primary.carriedCells (primary.attributes.idxOf on) pair.1.1 ++
        secondary.carriedCells (secondary.attributes.idxOf on') pair.2.1 =
      primary.besides on pair.1.1.cells ++ secondary.besides on' pair.2.1.cells := by
    intro pair mem
    obtain ⟨at?, at?', -⟩ := mem_matching.mp mem
    rw [carriedCells_eq (rectangular _ (List.mem_of_getElem? at?)),
      carriedCells_eq (rectangular' _ (List.mem_of_getElem? at?'))]
  rw [joinedCells_eq, List.map_congr_left cells, numberRows_map]

/-- A join on attributes of its tables succeeds. -/
theorem join_of_mem (present : on ∈ primary.attributes) (present' : on' ∈ secondary.attributes) :
    ∃ joined : Table, primary.join on secondary on' = .ok joined ∧
      joined.attributes = idAttribute :: (primary.fullNames on ++ secondary.fullNames on') ∧
      joined.rows = numberRows 1 (joinedCells primary (primary.attributes.idxOf on) secondary
        (secondary.attributes.idxOf on')) := by
  rw [join, attributeIndex_of_mem present, attributeIndex_of_mem present', ok_bind, ok_bind,
    carriedNames_eq, carriedNames_eq]
  exact ⟨_, rfl, rfl, rfl⟩

/-- The rows of a join are those of the pairs of rows that match, in lexicographic order, numbered
from 1. They are as wide as its schema, which names the columns in the same order. -/
structure IsOrderedJoin (primary : Table) (on : String) (secondary : Table) (on' : String)
    (joined : Table) (pairs : List (Nat × Nat)) : Prop where
  increasing : pairs.Pairwise (Prod.Lex (· < ·) (· < ·))
  mem_iff : ∀ pair, pair ∈ pairs ↔ MatchAt primary on secondary on' pair
  length_rows : joined.rows.length = pairs.length
  row : ∀ k i j, pairs[k]? = some (i, j) → ∃ left right,
    primary.rows[i]? = some left ∧ secondary.rows[j]? = some right ∧
    joined.rows[k]? = some (Row.mk (toString (k + 1) ::
      (primary.besides on left.cells ++ secondary.besides on' right.cells)))
  attributes_eq :
    joined.attributes = idAttribute :: (primary.fullNames on ++ secondary.fullNames on')
  rectangular : joined.IsRectangular

/-- Two tables with rows as wide as their schemas are joined on any two of their attributes, and the
join is ordered. Without one of these attributes there is no join, whatever rows there are. -/
theorem join_ordered (primary secondary : Table) (on on' : String) :
    (primary.IsRectangular → secondary.IsRectangular →
      on ∈ primary.attributes → on' ∈ secondary.attributes →
      ∃ joined pairs, primary.join on secondary on' = .ok joined ∧
        IsOrderedJoin primary on secondary on' joined pairs) ∧
    (on ∉ primary.attributes →
      primary.join on secondary on' = .error (.attributeNotFound primary.name on)) ∧
    (on ∈ primary.attributes → on' ∉ secondary.attributes →
      primary.join on secondary on' = .error (.attributeNotFound secondary.name on')) := by
  refine ⟨fun rectangular rectangular' present present' => ?_, fun absent => ?_,
    fun present absent => ?_⟩
  · obtain ⟨joined, run, attributes, rows⟩ := join_of_mem present present'
    rw [numberRows_joinedCells rectangular rectangular'] at rows
    refine ⟨joined, _, run, ⟨pairwise_matching primary on secondary on',
      fun pair => (matchAt_iff present present').symm, ?_, fun k i j found => ?_, attributes,
      fun row mem => ?_⟩⟩
    · rw [rows, List.length_mapIdx, List.length_map]
    · rw [List.getElem?_map, Option.map_eq_some_iff] at found
      obtain ⟨pair, found, same⟩ := found
      cases same
      obtain ⟨at?, at?', -⟩ := mem_matching.mp (List.mem_of_getElem? found)
      refine ⟨pair.1.1, pair.2.1, at?, at?', ?_⟩
      rw [rows, List.getElem?_mapIdx, found]
      rfl
    · rw [rows, List.mem_mapIdx] at mem
      obtain ⟨k, inside, rfl⟩ := mem
      obtain ⟨at?, at?', -⟩ := mem_matching.mp (List.getElem_mem inside)
      rw [attributes, Row.width, List.length_cons, List.length_cons, List.length_append,
        List.length_append, fullNames, fullNames, List.length_map, List.length_map,
        length_besides (rectangular _ (List.mem_of_getElem? at?)),
        length_besides (rectangular' _ (List.mem_of_getElem? at?'))]
  · rw [join, attributeIndex_of_not_mem absent, error_bind]
  · rw [join, attributeIndex_of_mem present, ok_bind, attributeIndex_of_not_mem absent, error_bind]

/-- Equal numbers are written in two ways, so each row matches both. -/
theorem join_ordered_with_itself :
    let table : Table :=
      ⟨"t", ⟨"d"⟩, ["id", "m", "n"], [⟨["1", "5", "2"]⟩, ⟨["4", "''", "2.0"]⟩], 4⟩
    table.IsRectangular ∧ "n" ∈ table.attributes ∧
      (∃ joined pairs, table.join "n" table "n" = .ok joined ∧
        IsOrderedJoin table "n" table "n" joined pairs ∧
        joined.attributes = ["id", "t.m", "t.m"] ∧
        joined.rows = [⟨["1", "5", "5"]⟩, ⟨["2", "5", "''"]⟩, ⟨["3", "''", "5"]⟩,
          ⟨["4", "''", "''"]⟩]) ∧
      table.join "n" table "x" = .error (.attributeNotFound "t" "x") := by
  intro table
  have rectangular : table.IsRectangular := by decide
  have present : "n" ∈ table.attributes := by decide
  obtain ⟨joins, -, -⟩ := join_ordered table table "n" "n"
  obtain ⟨joined, pairs, run, ordered⟩ := joins rectangular rectangular present present
  have computed : table.join "n" table "n" = .ok ⟨"t_t", ⟨""⟩, ["id", "t.m", "t.m"],
      [⟨["1", "5", "5"]⟩, ⟨["2", "5", "''"]⟩, ⟨["3", "''", "5"]⟩, ⟨["4", "''", "''"]⟩], 4⟩ := by
    decide +kernel
  cases computed.symm.trans run
  exact ⟨rectangular, present, ⟨_, pairs, run, ordered, rfl, rfl⟩,
    (join_ordered table table "n" "x").2.2 present (by decide)⟩

/-! ## Names -/

section
variable {table column table' column' : String}

/-- When two columns have the same name in a join: their tables and their own names are the same, or
one table's name goes on with a dot, and the other column's name makes up for it. -/
inductive Collide (table column table' column' : String) : Prop
  | same (tables : table = table') (columns : column = column')
  | left (middle : String) (tables : table' = table ++ "." ++ middle)
      (columns : column = middle ++ "." ++ column')
  | right (middle : String) (tables : table = table' ++ "." ++ middle)
      (columns : column' = middle ++ "." ++ column)

/-- If one table's name is at least as long as the other's, what it has more is nothing, or a dot
and the front of the other column's name. -/
theorem eq_or_exists_of_append {rest : List Char} (tables : table'.toList = table.toList ++ rest)
    (columns : '.' :: column.toList = rest ++ '.' :: column'.toList) :
    table = table' ∧ column = column' ∨ ∃ middle : String,
      table' = table ++ "." ++ middle ∧ column = middle ++ "." ++ column' := by
  cases rest with
  | nil =>
    rw [List.append_nil] at tables
    exact .inl ⟨String.toList_inj.mp tables.symm, String.toList_inj.mp (List.cons.inj columns).2⟩
  | cons c middle =>
    rw [List.cons_append] at columns
    obtain ⟨rfl, rear⟩ := List.cons.inj columns
    refine .inr ⟨String.ofList middle, String.toList_inj.mp ?_, String.toList_inj.mp ?_⟩
    · simp [tables]
    · simp [rear]

theorem collide_iff :
    table ++ "." ++ column = table' ++ "." ++ column' ↔ Collide table column table' column' := by
  constructor
  · intro same
    have chars : table.toList ++ '.' :: column.toList = table'.toList ++ '.' :: column'.toList := by
      simpa using congrArg String.toList same
    -- The cases are those of which table has the longer name.
    rcases List.append_eq_append_iff.mp chars with ⟨rest, tables, columns⟩ | ⟨rest, tables, columns⟩
    · rcases eq_or_exists_of_append tables columns with ⟨same, same'⟩ | ⟨middle, longer, front⟩
      · exact .same same same'
      · exact .left middle longer front
    · rcases eq_or_exists_of_append tables columns with ⟨same, same'⟩ | ⟨middle, longer, front⟩
      · exact .same same.symm same'.symm
      · exact .right middle longer front
  · rintro (⟨rfl, rfl⟩ | ⟨middle, rfl, rfl⟩ | ⟨middle, rfl, rfl⟩)
    · rfl
    · simp only [String.append_assoc]
    · simp only [String.append_assoc]

theorem fullName_injective (table : String) :
    Function.Injective fun column : String => table ++ "." ++ column := by
  intro column column' same
  have chars := congrArg String.toList same
  simp only [String.toList_append, List.append_assoc] at chars
  exact String.toList_inj.mp (List.append_cancel_left (List.append_cancel_left chars))

end

section
variable {table : Table} {name : String}

theorem id_not_mem_fullNames : idAttribute ∉ table.fullNames on := by
  rw [fullNames, List.mem_map]
  rintro ⟨column, -, same⟩
  have dot : '.' ∈ (table.name ++ "." ++ column).toList := by simp
  rw [same] at dot
  exact absurd dot (by decide)

theorem nodup_fullNames (nodup : table.attributes.Nodup) : (table.fullNames on).Nodup := by
  have sublist : (table.besides on table.attributes).Sublist table.attributes := by
    have kept := (List.filter_sublist (p := fun entry => table.isCarried on entry.2)
      (l := table.attributes.zipIdx)).map Prod.fst
    rwa [List.zipIdx_map_fst] at kept
  exact (nodup.sublist sublist).map (fullName_injective table.name)

variable (head : table.attributes.head? = some idAttribute) (nodup : table.attributes.Nodup)
  (present : on ∈ table.attributes)

include head nodup present

/-- Without repeated names, the columns that are carried over are told by their names. -/
theorem isCarried_iff {index : Nat} (at? : table.attributes[index]? = some name) :
    table.isCarried on index = true ↔ name ∉ [idAttribute, on] := by
  obtain ⟨inside, same⟩ := List.getElem?_eq_some_iff.mp at?
  have here : index = table.attributes.idxOf name := same ▸ (nodup.idxOf_getElem _ inside).symm
  have first : table.attributes.idxOf idAttribute = 0 := by
    obtain ⟨rest, attributes⟩ := List.head?_eq_some_iff.mp head
    rw [attributes, List.idxOf_cons_self]
  have isFirst : index = 0 ↔ name = idAttribute := by
    rw [here, ← first, eq_comm, List.idxOf_inj (List.mem_of_mem_head? head), eq_comm]
  have isJoined : index = table.attributes.idxOf on ↔ name = on := by
    rw [here, eq_comm, List.idxOf_inj present, eq_comm]
  rw [isCarried, Bool.and_eq_true, decide_eq_true_iff, bne_iff_ne, Nat.one_le_iff_ne_zero, ne_eq,
    ne_eq, isFirst, isJoined]
  simp

theorem mem_fullNames {full : String} :
    full ∈ table.fullNames on ↔ ∃ column ∈ table.attributes,
      column ∉ [idAttribute, on] ∧ table.name ++ "." ++ column = full := by
  simp only [fullNames, besides, List.mem_map, List.mem_filter, List.mem_zipIdx_iff_getElem?]
  constructor
  · rintro ⟨_, ⟨⟨column, index⟩, ⟨at?, carried⟩, rfl⟩, rfl⟩
    exact ⟨column, List.mem_of_getElem? at?, (isCarried_iff head nodup present at?).mp carried, rfl⟩
  · rintro ⟨column, mem, apart, rfl⟩
    obtain ⟨index, at?⟩ := List.mem_iff_getElem?.mp mem
    have carried := (isCarried_iff head nodup present at?).mpr apart
    exact ⟨column, ⟨(column, index), ⟨at?, carried⟩, rfl⟩, rfl⟩

end

/-- A join of two tables without repeated names starts with `id`, and no name is there twice exactly
if no two columns that are carried over collide. -/
theorem nodup_joined_iff (head : primary.attributes.head? = some idAttribute)
    (nodup : primary.attributes.Nodup) (present : on ∈ primary.attributes)
    (head' : secondary.attributes.head? = some idAttribute) (nodup' : secondary.attributes.Nodup)
    (present' : on' ∈ secondary.attributes) :
    ∃ joined, primary.join on secondary on' = .ok joined ∧
      joined.attributes.head? = some idAttribute ∧
      (joined.attributes.Nodup ↔ ∀ column ∈ primary.attributes, ∀ column' ∈ secondary.attributes,
        column ∉ [idAttribute, on] → column' ∉ [idAttribute, on'] →
          ¬ Collide primary.name column secondary.name column') := by
  obtain ⟨joined, run, attributes, -⟩ := join_of_mem present present'
  refine ⟨joined, run, by rw [attributes]; rfl, ?_⟩
  rw [attributes, List.nodup_cons, List.mem_append, List.nodup_append]
  constructor
  · rintro ⟨-, -, -, apart⟩ column mem column' mem' carried carried' collide
    refine apart _ ((mem_fullNames head nodup present).mpr ⟨column, mem, carried, rfl⟩) _
      ((mem_fullNames head' nodup' present').mpr ⟨column', mem', carried', rfl⟩) ?_
    exact collide_iff.mpr collide
  · intro apart
    refine ⟨not_or.mpr ⟨id_not_mem_fullNames, id_not_mem_fullNames⟩, nodup_fullNames nodup,
      nodup_fullNames nodup', ?_⟩
    rintro full mem _ mem' rfl
    obtain ⟨column, mem, carried, same⟩ := (mem_fullNames head nodup present).mp mem
    obtain ⟨column', mem', carried', same'⟩ := (mem_fullNames head' nodup' present').mp mem'
    exact apart column mem column' mem' carried carried' (collide_iff.mp (same.trans same'.symm))

/-- A dot in the name of a table makes up for one in the name of a column of another table. -/
theorem nodup_joined_iff_dotted :
    let primary : Table := ⟨"a", ⟨"d"⟩, ["id", "b.c", "n"], [], 0⟩
    let secondary : Table := ⟨"a.b", ⟨"d"⟩, ["id", "c", "n"], [], 0⟩
    primary.attributes.head? = some idAttribute ∧ primary.attributes.Nodup ∧
      "n" ∈ primary.attributes ∧ secondary.attributes.head? = some idAttribute ∧
      secondary.attributes.Nodup ∧ "n" ∈ secondary.attributes ∧
      ∃ joined, primary.join "n" secondary "n" = .ok joined ∧ ¬ joined.attributes.Nodup := by
  intro primary secondary
  have head : primary.attributes.head? = some idAttribute := rfl
  have nodup : primary.attributes.Nodup := by decide
  have present : "n" ∈ primary.attributes := by decide
  have head' : secondary.attributes.head? = some idAttribute := rfl
  have nodup' : secondary.attributes.Nodup := by decide
  have present' : "n" ∈ secondary.attributes := by decide
  obtain ⟨joined, run, -, nodup_iff⟩ := nodup_joined_iff head nodup present head' nodup' present'
  refine ⟨head, nodup, present, head', nodup', present', joined, run, fun apart => ?_⟩
  exact nodup_iff.mp apart "b.c" (by decide) "c" (by decide) (by decide) (by decide)
    (.left "b" rfl rfl)

/-- A table that is joined with itself gives each of its other columns twice. -/
theorem not_nodup_joined_with_itself :
    let table : Table := ⟨"t", ⟨"d"⟩, ["id", "n", "m"], [⟨["1", "1", "2"]⟩], 1⟩
    table.attributes.head? = some idAttribute ∧ table.attributes.Nodup ∧
      (∀ name ∈ table.attributes, validateName name = .ok ()) ∧ "m" ∈ table.attributes ∧
      ∃ joined, table.join "m" table "m" = .ok joined ∧ joined.attributes = ["id", "t.n", "t.n"] ∧
        ¬ joined.attributes.Nodup := by
  intro table
  refine ⟨rfl, by decide, by decide, by decide,
    ⟨"t_t", ⟨""⟩, ["id", "t.n", "t.n"], [⟨["1", "1", "1"]⟩], 1⟩, by decide +kernel, rfl, by decide⟩

end Table

end TabStore
