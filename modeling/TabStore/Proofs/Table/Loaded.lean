import TabStore.Proofs.Table.Reread

/-!
# What a loaded table keeps

The files of a table can hold anything. What is loaded from them is checked, with one exception: the
names of the attributes are not compared with each other.

Results:
1. `IsReadFrom.lastId_lt`, `IsReadFrom.lastId_cases`: the last id fits 64 bits, and it is recorded
   or the id of a row;
2. `isValid_iff_of_load`: a loaded table has its first attribute, its widths and its ids right, and
   it is valid exactly if its schema file holds no name twice;
3. `load_repeated_attribute`: a schema file that holds a name twice is loaded.
-/

namespace TabStore

open Text

theorem Number.lt_of_readBelow {limit n : Nat} {text : List Char}
    (h : readBelow limit text = some n) : n < limit := by
  unfold readBelow at h
  dsimp only at h
  split at h
  · next digits =>
    split at h
    · next valid =>
      cases h
      exact of_decide_eq_true (Bool.and_eq_true _ _ ▸ valid).2
    · cases h
  · split at h
    · next valid =>
      cases h
      exact of_decide_eq_true (Bool.and_eq_true _ _ ▸ valid).2
    · cases h

namespace Table

variable {table : Table} {tree : Tree} {directory path : Path} {name schema rows : String}
  {recorded : Nat}

theorem readSequence_lt (sequence : readSequence tree path = .ok recorded) :
    recorded < idLimit := by
  unfold readSequence at sequence
  split at sequence
  · cases sequence
    decide
  · cases sequence
  · dsimp only at sequence
    split at sequence
    · next read =>
      cases sequence
      exact Number.lt_of_readBelow read
    · cases sequence

theorem foldl_max_cases (ids : List Nat) (recorded : Nat) :
    recorded = ids.foldl max recorded ∨ ids.foldl max recorded ∈ ids := by
  induction ids generalizing recorded with
  | nil => exact .inl rfl
  | cons id rest ih =>
    rw [List.foldl_cons, List.mem_cons]
    rcases ih (max recorded id) with start | later
    · rw [← start]
      rcases Nat.le_total id recorded with le | le
      · exact .inl (Nat.max_eq_left le).symm
      · exact .inr (.inl (Nat.max_eq_right le))
    · exact .inr (.inr later)

/-- The ids that are read beside the rows are the ids of the rows. -/
theorem idsOf_readRows {width number : Nat} {lines : List (List Char)}
    {numbered : List (Nat × Row)} (found : readRows width number lines = .ok numbered) :
    idsOf (numbered.map (·.2)) = numbered.map (·.1) := by
  rw [idsOf, List.filterMap_map, ← List.filterMap_eq_map]
  refine List.filterMap_congr fun entry mem => ?_
  obtain ⟨line, -, number, read⟩ := exists_of_mem_readRows found mem
  exact (readRow_eq_ok read).2.2

/-- A last id that is recorded or the id of a row fits 64 bits. -/
theorem lt_of_known {last : Nat} {rows : List Row} (fits : recorded < idLimit)
    (known : recorded = last ∨ last ∈ idsOf rows) : last < idLimit := by
  rcases known with same | used
  · exact same ▸ fits
  · obtain ⟨row, -, readId⟩ := List.mem_filterMap.mp used
    exact Number.lt_of_readBelow readId

namespace IsReadFrom

/-- The last id is at least the recorded one. Where it is higher, a row has it. -/
theorem lastId_cases (read : table.IsReadFrom schema rows recorded) :
    recorded ≤ table.lastId ∧ (recorded = table.lastId ∨ table.lastId ∈ idsOf table.rows) := by
  obtain ⟨numbered, found, sameRows, sameLast⟩ := read.rows_eq
  rw [← sameRows, idsOf_readRows found, ← sameLast]
  exact ⟨(le_foldl_max _ _).1, foldl_max_cases _ _⟩

theorem lastId_lt (read : table.IsReadFrom schema rows recorded) (fits : recorded < idLimit) :
    table.lastId < idLimit :=
  lt_of_known fits read.lastId_cases.2

end IsReadFrom

/-- What the operations on a table rely on. -/
structure IsValid (table : Table) : Prop where
  head : table.attributes.head? = some idAttribute
  nodup : table.attributes.Nodup
  width : ∀ row ∈ table.rows, row.width = table.attributes.length
  numbered : ∀ row ∈ table.rows, ∃ id ≤ table.lastId, readId? row.id.toList = some id

/-- Whatever the files of a table hold, the table that is loaded from them starts with the attribute
`id`, its rows are as wide as its schema, and they have ids up to the last one, which fits 64 bits.
Its attributes are told apart by their names exactly if the schema file holds no name twice. -/
theorem isValid_iff_of_load (loaded : load tree directory name = .ok table) :
    table.attributes.head? = some idAttribute ∧
      (∀ row ∈ table.rows, row.width = table.attributes.length ∧
        ∃ id ≤ table.lastId, readId? row.id.toList = some id) ∧
      table.lastId < idLimit ∧
      ∃ schema, tree.readText (new directory name).schemaPath = .ok schema ∧
        (table.IsValid ↔ (readAttributes schema).Nodup) := by
  obtain ⟨-, -, schema, rows, recorded, readSchema, -, sequence, read⟩ := load_eq_ok.mp loaded
  have storable := read.isStorable
  refine ⟨storable.head, fun row mem => ?_, read.lastId_lt (readSequence_lt sequence), schema,
    readSchema, ?_⟩
  · exact ⟨(storable.rows row mem).width_eq, (storable.rows row mem).numbered⟩
  · rw [read.attributes_eq]
    refine ⟨fun valid => valid.nodup, fun nodup => ⟨storable.head, nodup, ?_, ?_⟩⟩
    · exact fun row mem => (storable.rows row mem).width_eq
    · exact fun row mem => (storable.rows row mem).numbered

/-- The directory `d` with the given files. -/
def directoryOf (files : List (String × String)) : Tree :=
  let home := Location.workingDirectory.child "d"
  ⟨(home, .directory) :: files.map fun file => (home.child file.1, .file (.text file.2))⟩

/-- Blank lines, padded names, a plus sign, and a record that is behind the rows. -/
def untidyTable : Tree :=
  directoryOf [("t.txt", " id\r\n\r\n\tn \n"), ("t.tsv", "\r\n+7\t5\r\n3\t''"), ("t.seq", " 2")]

theorem isValid_iff_of_load_untidy :
    ∃ table, load untidyTable ⟨"d"⟩ "t" = .ok table ∧ table.IsValid ∧ table.lastId = 7 := by
  obtain ⟨-, -, -, schema, readSchema, valid⟩ := @isValid_iff_of_load
    ⟨"t", ⟨"d"⟩, ["id", "n"], [⟨["+7", "5"]⟩, ⟨["3", "''"]⟩], 7⟩ untidyTable ⟨"d"⟩ "t"
    (by decide +kernel)
  have text : untidyTable.readText (new ⟨"d"⟩ "t").schemaPath = .ok " id\r\n\r\n\tn \n" := by
    decide +kernel
  cases text.symm.trans readSchema
  exact ⟨_, by decide +kernel, valid.mpr (by decide +kernel), rfl⟩

/-- A name that stands twice in the schema file passes all checks. -/
theorem load_repeated_attribute :
    let tree := directoryOf [("t.txt", "id\na\na\n"), ("t.tsv", ""), ("t.seq", "0\n")]
    ∃ table, load tree ⟨"d"⟩ "t" = .ok table ∧ ¬ table.attributes.Nodup :=
  ⟨⟨"t", ⟨"d"⟩, ["id", "a", "a"], [], 0⟩, by decide +kernel, by decide⟩

end Table

end TabStore
