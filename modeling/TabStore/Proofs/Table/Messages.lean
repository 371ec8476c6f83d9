import TabStore.Proofs.Condition.Words
import TabStore.Proofs.Files.Messages
import TabStore.Proofs.Statement.Refusal
import TabStore.Proofs.Statement.WellFormed
import TabStore.Proofs.Table.Footprint
import TabStore.Proofs.Table.Reread
import TabStore.Proofs.Table.Stored

/-!
# Messages about tables

What is done with a table fails, if it does, with a message of one line, but for the paths of files
that it shows. A table that is loaded has lines as cells, even where no statement has put them
there.

Results:
1. `Table.extends_of_mem_paths`: the paths of a table are written below the root;
2. `Table.ends_load`: a table is loaded with lines as cells, or refused with a message woven from
   lines and copies of the root;
3. `Condition.ends_filter` and one lemma for each operation: how they end on such a table.
-/

namespace TabStore

open Condition (isFit_of_mem_terms isPlain_operatorFault)
open Error (isPlain_of_nil isPlain_of_singleton)
open Text (IsLine isLine_append)

theorem IsName.isLine {name : String} (h : IsName name) : IsLine name := h.no_break (by decide)

theorem Value.isLine {raw : String} (h : isLiteral raw = true) : IsLine raw := no_break h (by decide)

namespace Table

variable {root directory path : Path} {table : Table} {tree : Tree} {db name : String}

theorem failsWoven_removeEach {paths : List Path} (below : ∀ path ∈ paths, path.Extends root)
    (tree : Tree) : FailsWoven root (removeEach paths tree) := by
  induction paths generalizing tree with
  | nil => exact .ok ()
  | cons path rest ih =>
    rw [List.forall_mem_cons] at below
    have applies := Change.ends_apply tree (.remove path)
    have isWoven := @Change.isWoven_action root (.remove path)
      (List.forall_mem_singleton.mpr below.1)
    rw [removeEach]
    split
    · next next _ => exact ih below.2 next
    · exact ih below.2 tree
    · next cause _ failed => exact .error (isWoven (applies.error failed))

theorem IsEntryOf.isLine {entry : String} (h : IsEntryOf name entry) (isName : IsName name) :
    IsLine entry := by
  have fileName : ∀ part : Part, IsLine (part.fileName name) := by
    intro part
    refine isLine_append.mpr ⟨isLine_append.mpr ⟨isName.isLine, by decide⟩, ?_⟩
    cases part <;> decide
  obtain ⟨part, rfl | rfl⟩ := h
  · exact fileName part
  · exact isLine_append.mpr ⟨isLine_append.mpr ⟨fileName part, by decide⟩, by decide⟩

/-- All paths of a table are written below the root. -/
theorem extends_of_mem_paths (isDatabase : IsName db) (isName : IsName name)
    (mem : path ∈ ((Database.under root db).table name).paths) : path.Extends root := by
  obtain ⟨entry, isEntry, rfl⟩ := exists_database_join isDatabase isName mem
  exact ((Path.Extends.refl root).join isDatabase.isFileName isDatabase.isLine).join
    (isEntry.isFileName isName) (isEntry.isLine isName)

/-! ## Loading -/

theorem ends_readRow (width number : Nat) (line : List Char) :
    Ends (fun _ => True) IsLine (readRow width number line) := by
  have numbered : IsLine ("line " ++ toString number) :=
    isLine_append.mpr ⟨by decide, Text.isLine_toString number⟩
  unfold readRow
  dsimp only
  split
  · refine isLine_append.mpr ⟨isLine_append.mpr ⟨?_, Text.isLine_toString _⟩, by decide +kernel⟩
    refine isLine_append.mpr ⟨isLine_append.mpr ⟨?_, Text.isLine_toString _⟩, by decide +kernel⟩
    exact isLine_append.mpr ⟨numbered, by decide⟩
  · split
    · trivial
    · exact isLine_append.mpr ⟨isLine_append.mpr ⟨numbered, by decide⟩, Text.isLine_quoted _⟩

theorem ends_readRows (width number : Nat) (lines : List (List Char)) :
    Ends (fun _ => True) IsLine (readRows width number lines) := by
  induction lines generalizing number with
  | nil => trivial
  | cons line rest ih =>
    rw [readRows]
    split
    · exact ih (number + 1)
    · refine (ends_readRow width number line).bind fun row _ _ => ?_
      exact (ih (number + 1)).bind fun rows _ _ => trivial

theorem ends_readFile (below : path.Extends root) :
    EndsWoven root (fun _ => True) (readFile tree path) := by
  have reads := @Tree.ends_readText tree path
  unfold readFile
  split
  · trivial
  · next failed => exact Error.isWoven_fileFailure below (by decide) (reads.error failed)

theorem ends_readSequence (below : path.Extends root) :
    EndsWoven root (fun _ => True) (readSequence tree path) := by
  have reads := @Tree.ends_readText tree path
  unfold readSequence
  split
  · trivial
  · next failed => exact Error.isWoven_fileFailure below (by decide) (reads.error failed)
  · dsimp only
    split
    · trivial
    · exact Error.isWoven_corruptTable below (isLine_append.mpr ⟨Text.isLine_quoted _, by decide⟩)

/-- A table whose name and cells are lines, in a file below the root. -/
structure IsShown (root : Path) (table : Table) : Prop where
  name : IsLine table.name
  rowsPath : table.rowsPath.Extends root
  cells : ∀ row ∈ table.rows, ∀ cell ∈ row.cells, IsLine cell

theorem isLine_of_isReadFrom {schema rows : String} {recorded : Nat}
    (read : table.IsReadFrom schema rows recorded) {row : Row} (mem : row ∈ table.rows)
    {cell : String} (present : cell ∈ row.cells) : IsLine cell := by
  obtain ⟨numbered, found, sameRows, -⟩ := read.rows_eq
  rw [← sameRows] at mem
  obtain ⟨entry, listed, rfl⟩ := List.mem_map.mp mem
  obtain ⟨line, inLines, number, readLine⟩ := exists_of_mem_readRows found listed
  rw [(readRow_eq_ok readLine).1] at present
  obtain ⟨piece, inPieces, rfl⟩ := List.mem_map.mp present
  exact Text.isLine_ofList.mpr fun feed =>
    Text.not_mem_of_mem_lines inLines (Text.mem_of_mem_splitOn inPieces feed)

theorem ends_load (isDatabase : IsName db) (isName : IsName name) :
    EndsWoven root (IsShown root) (load tree (root.join db) name) := by
  have below : ∀ part : Part, ((new (root.join db) name).partPath part).Extends root :=
    fun part => extends_of_mem_paths isDatabase isName (partPath_mem_paths part)
  have fails : EndsWoven root (fun _ => True) (load tree (root.join db) name) := by
    unfold load
    dsimp only
    split
    · exact Error.isWoven_of_isPlain (isPlain_of_singleton rfl isName.isLine)
    · refine (ends_readFile (below .schema)).bind fun schema _ _ => ?_
      split
      · exact Error.isWoven_corruptTable (below .schema) (by decide)
      · refine (ends_readFile (below .rows)).bind fun rows _ _ => ?_
        have reads := ends_readRows (readAttributes schema).length 1 (Text.lines rows.toList)
        split
        · next reason failed => exact Error.isWoven_corruptTable (below .rows) (reads.error failed)
        · exact (ends_readSequence (below .sequence)).bind fun _ _ _ => trivial
  refine fails.imp fun table loaded _ => ?_
  obtain ⟨directory_eq, rfl, schema, rows, recorded, -, -, -, read⟩ := load_eq_ok.mp loaded
  refine ⟨isName.isLine, ?_, fun row mem cell => isLine_of_isReadFrom read mem⟩
  have same : table.rowsPath = (new (root.join db) table.name).partPath .rows := by
    rw [rowsPath, file, directory_eq]
    rfl
  rw [same]
  exact below .rows

/-! ## Operations on tables -/

theorem endsPlain_attributeIndex (named : IsLine table.name) {key : String}
    (line : IsLine key) : EndsPlain (fun _ => True) (table.attributeIndex key) := by
  unfold attributeIndex
  split
  · trivial
  · intro text mem
    rcases List.mem_cons.mp mem with rfl | mem
    · exact named
    · exact List.mem_singleton.mp mem ▸ line

theorem endsPlain_projectionIndices (named : IsLine table.name) {columns : Projection}
    (lines : ∀ name ∈ columns.names, IsLine name) :
    EndsPlain (fun _ => True) (table.projectionIndices columns) := by
  cases columns with
  | all => trivial
  | columns names => exact Ends.mapM fun name mem => endsPlain_attributeIndex named (lines name mem)

theorem endsPlain_insert {values : List String} (lines : ∀ raw ∈ values, IsLine raw) :
    EndsPlain (fun _ => True) (table.insert values) := by
  unfold Table.insert
  dsimp only
  split
  · exact isPlain_of_nil rfl
  · split
    · next raw found => exact isPlain_of_singleton rfl (lines raw (List.mem_of_find?_eq_some found))
    · trivial

theorem endsPlain_resolveAssignments (named : IsLine table.name) {assignments : List Assignment}
    (lines : ∀ a ∈ assignments, IsLine a.target) :
    EndsPlain (fun _ => True) (table.resolveAssignments assignments) := by
  induction assignments with
  | nil => trivial
  | cons assignment rest ih =>
    rw [List.forall_mem_cons] at lines
    rw [resolveAssignments]
    split
    · exact isPlain_of_singleton rfl lines.1
    · refine (endsPlain_attributeIndex named lines.1).bind fun index _ _ => ?_
      exact (ih lines.2).bind fun _ _ _ => trivial

theorem endsPlain_setCells (changes : List (Nat × String)) (row : Row) :
    EndsPlain (fun _ => True) (setCells changes row).1 := by
  induction changes generalizing row with
  | nil => trivial
  | cons change rest ih =>
    rw [setCells]
    split
    · next next _ => exact ih next
    · next e failed =>
      unfold Row.set at failed
      split at failed
      · cases failed
      · cases failed
        exact isPlain_of_nil rfl

theorem endsPlain_setRows (changes : List (Nat × String)) (mask : List Bool) (rows : List Row) :
    EndsPlain (fun _ => True) (setRows changes mask rows).1 := by
  induction rows generalizing mask with
  | nil =>
    rw [setRows]
    trivial
  | cons row rest ih =>
    cases mask with
    | nil => trivial
    | cons isSelected mask =>
      have sets := endsPlain_setCells changes row
      rw [setRows]
      split
      · split
        · next failed =>
          rw [failed] at sets
          exact sets
        · exact (ih mask).map fun _ _ _ => trivial
      · exact ih mask

theorem endsPlain_update (named : IsLine table.name) {mask : List Bool}
    {assignments : List Assignment} (lines : ∀ a ∈ assignments, IsLine a.target) :
    EndsPlain (fun _ => True) (table.update mask assignments).1 := by
  have resolves := endsPlain_resolveAssignments named lines
  unfold update
  split
  · next failed => exact resolves.error failed
  · exact endsPlain_setRows _ mask table.rows

theorem endsPlain_appendAttribute (line : IsLine name) :
    EndsPlain (fun _ => True) (table.appendAttribute name) := by
  unfold appendAttribute
  split
  · exact isPlain_of_singleton rfl line
  · trivial

theorem endsPlain_removeCells (index : Nat) (rows : List Row) :
    EndsPlain (fun _ => True) (removeCells index rows).1 := by
  induction rows with
  | nil => trivial
  | cons row rest ih =>
    rw [removeCells]
    split
    · next failed =>
      unfold Row.remove at failed
      split at failed
      · cases failed
      · cases failed
        exact isPlain_of_nil rfl
    · exact ih

theorem endsPlain_removeAttribute (named : IsLine table.name) (line : IsLine name) :
    EndsPlain (fun _ => True) (table.removeAttribute name).1 := by
  have finds := endsPlain_attributeIndex named line
  unfold removeAttribute
  split
  · exact isPlain_of_singleton rfl line
  · split
    · next failed => exact finds.error failed
    · exact endsPlain_removeCells _ table.rows

theorem endsPlain_join {other : Table} (named : IsLine table.name) (namedOther : IsLine other.name)
    {on onOther : String} (line : IsLine on) (lineOther : IsLine onOther) :
    EndsPlain (fun _ => True) (table.join on other onOther) := by
  refine (endsPlain_attributeIndex named line).bind fun _ _ _ => ?_
  exact (endsPlain_attributeIndex namedOther lineOther).bind fun _ _ _ => trivial

end Table

/-! ## Conditions -/

namespace Condition

open Table

variable {root : Path} {table : Table} {row : Row}

theorem endsPlain_number {raw : String} (line : IsLine raw) :
    EndsPlain (fun _ => True) (number raw) := by
  unfold number
  split
  · trivial
  · exact isPlain_of_singleton rfl line

theorem endsPlain_text {raw : String} (line : IsLine raw) :
    EndsPlain (fun _ => True) (text raw) := by
  unfold text
  split
  · trivial
  · exact isPlain_of_singleton rfl line

theorem endsPlain_compare {op : Operator} {cell literal : String} (line : IsLine cell)
    (lineLiteral : IsLine literal) : EndsPlain (fun _ => True) (compare op cell literal) := by
  have numbers : ∀ holds, EndsPlain (fun _ => True) (compareNumbers holds cell literal) :=
    fun holds => (endsPlain_number line).bind fun _ _ _ =>
      (endsPlain_number lineLiteral).bind fun _ _ _ => trivial
  cases op with
  | equal | notEqual => trivial
  | less | greater | greaterEqual | lessEqual =>
    rw [compare]
    exact numbers _
  | like =>
    exact (endsPlain_text line).bind fun _ _ _ =>
      (endsPlain_text lineLiteral).bind fun _ _ _ => trivial
  | and | or => exact isPlain_of_singleton rfl line

theorem ends_compareCell (shown : table.IsShown root) (mem : row ∈ table.rows) {op : Operator}
    {name literal : String} (line : IsLine name) (lineLiteral : IsLine literal) :
    EndsWoven root (fun _ => True) (compareCell table row op name literal) := by
  refine (endsPlain_attributeIndex shown.name line).endsWoven.bind fun index _ _ => ?_
  split
  · next cell found =>
    have present : cell ∈ row.cells := List.mem_of_getElem? found
    exact (endsPlain_compare (shown.cells row mem cell present) lineLiteral).endsWoven
  · have id : IsLine row.id := by
      unfold Row.id
      cases cells : row.cells with
      | nil => decide
      | cons id rest => exact shown.cells row mem id (cells ▸ List.mem_cons_self)
    refine Error.isWoven_corruptTable shown.rowsPath ?_
    exact isLine_append.mpr ⟨isLine_append.mpr ⟨isLine_append.mpr ⟨by decide, id⟩, by decide⟩, line⟩

def Slot.IsLine : Slot → Prop
  | .operand text => Text.IsLine text
  | .outcome _ => True

theorem ends_evaluateOperator (shown : table.IsShown root) (mem : row ∈ table.rows) {op : Operator}
    {left right : Slot} (leftLine : left.IsLine) (rightLine : right.IsLine) :
    EndsWoven root (fun _ => True) (evaluateOperator table row op left right) := by
  have evaluated : Error.IsWoven root (operatorFault op " applied to an evaluated result") :=
    Error.isWoven_of_isPlain (isPlain_operatorFault op (by decide +kernel))
  have unevaluated : ∀ {text}, IsLine text → Error.IsWoven root (.nonBooleanOperand text) :=
    fun line => Error.isWoven_of_isPlain (isPlain_of_singleton rfl line)
  unfold evaluateOperator
  split
  · split
    · trivial
    · exact evaluated
  · split
    · exact unevaluated leftLine
    · exact ends_compareCell shown mem leftLine rightLine
  · split
    · exact unevaluated leftLine
    · exact evaluated
  · split
    · exact unevaluated rightLine
    · exact evaluated

theorem ends_evaluateFrom (shown : table.IsShown root) (mem : row ∈ table.rows) {stack : List Slot}
    {terms : List Term} (lines : ∀ slot ∈ stack, slot.IsLine)
    (operands : ∀ text, .operand text ∈ terms → IsLine text) :
    EndsWoven root (fun _ => True) (evaluateFrom table row stack terms) := by
  fun_induction evaluateFrom table row stack terms with
  | case1 => trivial
  | case2 => exact Error.isWoven_of_isPlain (isPlain_of_nil rfl)
  | case3 stack text rest ih =>
    refine ih (List.forall_mem_cons.mpr ⟨?_, lines⟩) fun other mem =>
      operands other (List.mem_cons_of_mem _ mem)
    exact operands text List.mem_cons_self
  | case4 right left stack op rest ih =>
    rw [List.forall_mem_cons, List.forall_mem_cons] at lines
    refine (ends_evaluateOperator shown mem lines.2.1 lines.1).bind fun outcome _ _ => ?_
    exact ih outcome (List.forall_mem_cons.mpr ⟨trivial, lines.2.2⟩) fun other mem =>
      operands other (List.mem_cons_of_mem _ mem)
  | case5 _ op =>
    refine Error.isWoven_of_isPlain (isPlain_of_singleton rfl ?_)
    cases op <;> decide

/-- A condition that is read from some text is evaluated on a table that was loaded. -/
theorem ends_filter {condition : Condition} (compiled : condition.IsCompiled)
    (shown : table.IsShown root) :
    EndsWoven root (fun _ => True) (condition.filter table) := by
  obtain ⟨text, compiled⟩ := compiled
  have checked := check_of_compile compiled
  obtain ⟨e, -, same⟩ := exists_expression_of_check checked
  have operands : ∀ text, .operand text ∈ condition.terms → IsLine text := by
    intro text mem
    rcases isFit_of_mem_terms (same ▸ mem) with isName | literal
    · exact isName.isLine
    · exact Value.isLine literal
  have checks : ∀ names, (∀ name ∈ names, IsName name) →
      EndsWoven root (fun _ => True) (checkAttributesOf table names) := by
    intro names areNames
    induction names with
    | nil => trivial
    | cons name rest ih =>
      rw [List.forall_mem_cons] at areNames
      refine (endsPlain_attributeIndex shown.name areNames.1.isLine).endsWoven.bind fun _ _ _ => ?_
      exact ih areNames.2
  refine (checks _ (isName_of_mem_attributes checked)).bind fun _ _ _ => ?_
  exact Ends.mapM fun row mem => ends_evaluateFrom shown mem (List.forall_mem_nil _) operands

end Condition

end TabStore
