import TabStore.Proofs.Table.Reread
import TabStore.Proofs.Table.Sound

/-!
# Tables read back from their texts

The texts of the three files of a table give the table back if its attributes are names and its
cells are ids and literals: no cell has a character that lines or cells could be confused by. Sound
tables are of this kind, but the ids need not count upwards for it, nor the names differ.

Results:
1. `Value.no_break`, `Row.IsSound.no_break`: no cell has a character that would break a line;
2. `Table.IsWellFormed.reread_eq`: such a table is written and read again as itself;
3. `Table.load_of_texts`: a sound table is loaded from its own texts.
-/

namespace TabStore

open Text

/-- The characters that would break a line or a cell apart. -/
def breaks : List Char := ['\t', '\n', '\r']

theorem IsName.no_break {name : String} (h : IsName name) {c : Char} (mem : c ∈ breaks) :
    c ∉ name.toList := by
  have forbidden : ∀ c ∈ breaks, isForbiddenInName c = true := forall_of_all (by decide)
  exact h.not_mem (forbidden c mem)

theorem Value.no_break {raw : String} (h : isLiteral raw = true) {c : Char} (mem : c ∈ breaks) :
    c ∉ raw.toList := by
  rcases isLiteral_cases h with ⟨body, same, -, tab, feed, ret⟩ | plain
  · rw [same]
    simp only [breaks, List.mem_cons, List.not_mem_nil, or_false] at mem
    rcases mem with rfl | rfl | rfl
    · simp [tab]
    · simp [feed]
    · simp [ret]
  · have apart : ∀ c ∈ breaks, isPlainLiteralChar c = false := forall_of_all (by decide)
    intro found
    exact absurd (plain c found) (by simp [apart c mem])

theorem Number.no_break (n : Nat) {c : Char} (mem : c ∈ breaks) : c ∉ (toString n).toList := by
  have digits := isDigits_toString n
  rw [isDigits, Bool.and_eq_true] at digits
  have apart : ∀ c ∈ breaks, c.isDigit = false := forall_of_all (by decide)
  intro found
  exact absurd (List.all_eq_true.mp digits.2 c found) (by simp [apart c mem])

/-! ## Rows -/

namespace Row.IsSound

variable {width n : Nat} {row : Row}

theorem no_break (sound : row.IsSound (width + 1)) (numbered : row.id = toString n) {cell : String}
    (present : cell ∈ row.cells) {c : Char} (mem : c ∈ breaks) : c ∉ cell.toList := by
  obtain ⟨id, rest, same⟩ := sound.exists_cons
  have literals := sound.literals
  rw [Row.id, same] at numbered
  rw [same] at present literals
  rcases List.mem_cons.mp present with first | later
  · rw [first, show id = toString n from numbered]
    exact Number.no_break n mem
  · exact Value.no_break (literals cell later) mem

theorem isStorable {last : Nat} (sound : row.IsSound (width + 1)) (numbered : row.id = toString n)
    (le : n ≤ last) (fits : n < Table.idLimit) : row.IsStorable (width + 1) last where
  width_eq := sound.width_eq
  free _ present := ⟨sound.no_break numbered present (by decide),
    sound.no_break numbered present (by decide)⟩
  numbered := ⟨n, le, by rw [numbered]; exact Number.readBelow_toString fits⟩

theorem reread_eq (sound : row.IsSound (width + 1)) (numbered : row.id = toString n) :
    row.reread = row := by
  obtain ⟨id, rest, same⟩ := sound.exists_cons
  obtain ⟨before, cell, cells⟩ : ∃ before cell, row.cells = before ++ [cell] :=
    ⟨_, _, (List.dropLast_append_getLast (by simp [same])).symm⟩
  have noBreak : ∀ other ∈ row.cells, ∀ c ∈ breaks, c ∉ other.toList :=
    fun _ present _ mem => sound.no_break numbered present mem
  have again := Row.IsStorable.cells_reread (fun other mem => noBreak other mem _ (by decide)) cells
  have noReturn : '\r' ∉ cell.toList := noBreak cell (by simp [cells]) _ (by decide)
  rw [dropReturn_of_not_mem noReturn, String.ofList_toList, ← cells] at again
  exact congrArg Row.mk again

end Row.IsSound

namespace Table

variable {table : Table}

theorem isSchemaLine_of_isName {name : String} (h : IsName name) : IsSchemaLine name where
  noFeed := h.no_break (by decide)
  trimmed := trim_of_ends (fun _ head => h.not_isBlank (List.mem_of_mem_head? head))
    fun _ last => h.not_isBlank (List.mem_of_getLast? last)
  notBlank := by
    obtain ⟨c, rest, same⟩ := List.exists_cons_of_ne_nil h.ne_nil
    have notBlank := h.not_isBlank (same ▸ List.mem_cons_self)
    simp [same, notBlank]

/-- A table of names and literals, with ids in decimal digits up to the last one. -/
structure IsWellFormed (table : Table) : Prop where
  head : table.attributes.head? = some idAttribute
  isName : ∀ name ∈ table.attributes, IsName name
  rows : ∀ row ∈ table.rows, row.IsSound table.attributes.length
  numbered : ∀ row ∈ table.rows, ∃ n ≤ table.lastId, row.id = toString n
  fits : table.lastId < idLimit

namespace IsWellFormed

theorem rows_succ (wellFormed : table.IsWellFormed) : ∃ width,
    table.attributes.length = width + 1 ∧ ∀ row ∈ table.rows, row.IsSound (width + 1) := by
  obtain ⟨rest, attributes⟩ := List.head?_eq_some_iff.mp wellFormed.head
  have width : table.attributes.length = rest.length + 1 := congrArg List.length attributes
  exact ⟨rest.length, width, width ▸ wellFormed.rows⟩

theorem isStorable (wellFormed : table.IsWellFormed) : table.IsStorable where
  head := wellFormed.head
  attributes name mem := isSchemaLine_of_isName (wellFormed.isName name mem)
  rows row mem := by
    obtain ⟨width, same, rows⟩ := wellFormed.rows_succ
    obtain ⟨n, le, numbered⟩ := wellFormed.numbered row mem
    rw [same]
    exact (rows row mem).isStorable numbered le (Nat.lt_of_le_of_lt le wellFormed.fits)

theorem reread_eq (wellFormed : table.IsWellFormed) : table.reread = table := by
  refine reread_eq_iff.mpr fun row mem => ?_
  obtain ⟨width, -, rows⟩ := wellFormed.rows_succ
  obtain ⟨n, -, numbered⟩ := wellFormed.numbered row mem
  exact (rows row mem).reread_eq numbered

end IsWellFormed

namespace IsSound

/-- The number of a row of a sound table. -/
theorem exists_number (sound : table.IsSound) {row : Row} (mem : row ∈ table.rows) :
    ∃ n : Nat, row.id = toString n ∧ n ≤ table.lastId := by
  obtain ⟨ids, numbered, ascend⟩ := sound.ids
  have present : row.id ∈ ids.map toString := numbered ▸ List.mem_map_of_mem mem
  obtain ⟨n, inIds, same⟩ := List.mem_map.mp present
  exact ⟨n, same.symm, (ascend.bounds n inIds).2⟩

theorem isWellFormed (sound : table.IsSound) : table.IsWellFormed where
  head := sound.head
  isName := sound.isName
  rows := sound.rows
  numbered row mem := by
    obtain ⟨n, numbered, le⟩ := sound.exists_number mem
    exact ⟨n, le, numbered⟩
  fits := sound.fits

end IsSound

/-- A sound table is loaded from its texts. -/
theorem load_of_texts {tree : Tree} (sound : table.IsSound)
    (schema : tree.readText table.schemaPath = .ok table.schemaText)
    (rows : tree.readText table.rowsPath = .ok table.rowsText)
    (sequence : tree.readText table.sequencePath = .ok table.sequenceText) :
    load tree table.directory table.name = .ok table := by
  have wellFormed := sound.isWellFormed
  have read := wellFormed.isStorable.isReadFrom_reread
    (readAttributes_unlines wellFormed.isStorable.attributes) (Nat.le_refl _) (.inl rfl)
  rw [wellFormed.reread_eq] at read
  exact load_eq_ok.mpr ⟨rfl, rfl, _, _, _, schema, rows,
    readSequence_of_readText sound.fits sequence, read⟩

end Table

end TabStore
