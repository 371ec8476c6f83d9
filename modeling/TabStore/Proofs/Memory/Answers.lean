import TabStore.Proofs.Engine.Messages

/-!
# What selections and joins show

A selection or a join shows lines of cells, with tabs between them. The cells of sound tables are
names, numbers and literals, so no such line is the end-of-transmission character alone, whatever
characters the literals hold.

Results:
1. `Table.IsShowable.unmarked_render`: the lines of a table whose cells are shown;
2. `Memory.unmarked_of_perform`: what is shown of a sound store;
3. `Site.Serves.endsShown_run`: how the requests of a run on files end.
-/

namespace TabStore

open Text (IsLine isLine_append)

/-! ## Cells and lines -/

/-- A line that is not the end-of-transmission character alone. -/
structure IsUnmarkedLine (text : String) : Prop where
  isLine : IsLine text
  ne_mark : text.toList ≠ ['\x04']

/-- A text of such lines. -/
def IsUnmarked (text : String) : Prop :=
  ∃ lines, text = Text.unlines lines ∧ ∀ line ∈ lines, IsUnmarkedLine line

theorem IsName.isUnmarkedLine {name : String} (h : IsName name) : IsUnmarkedLine name := by
  refine ⟨h.isLine, fun same => ?_⟩
  have mem : '\x04' ∈ name.toList := by rw [same]; exact List.mem_singleton_self _
  exact h.not_mem (by decide) mem

theorem Value.isUnmarkedLine {raw : String} (h : isLiteral raw = true) : IsUnmarkedLine raw := by
  refine ⟨Value.isLine h, fun same => ?_⟩
  have text : raw = "\x04" := String.toList_inj.mp same
  rw [text] at h
  revert h
  decide

theorem Number.isUnmarkedLine (n : Nat) : IsUnmarkedLine (toString n) := by
  refine ⟨Text.isLine_toString n, fun same => ?_⟩
  have digits := isDigits_toString n
  rw [same] at digits
  revert digits
  decide

/-- Cells with tabs between them; of two or more, the tab tells the line apart. -/
theorem isUnmarkedLine_intercalate {cells : List String} (h : ∀ cell ∈ cells, IsUnmarkedLine cell) :
    IsUnmarkedLine ("\t".intercalate cells) := by
  refine ⟨Text.isLine_intercalate (by decide) fun cell mem => (h cell mem).isLine, ?_⟩
  rw [String.toList_intercalate]
  match cells with
  | [] => exact nofun
  | [cell] =>
    rw [List.map_singleton, List.intercalate_singleton]
    exact (h cell List.mem_cons_self).ne_mark
  | first :: second :: rest =>
    intro same
    have tab : '\t' ∈ ['\x04'] := by
      rw [← same, List.map_cons, List.map_cons, List.intercalate_cons_cons]
      simp
    revert tab
    decide

namespace Table

variable {table primary secondary joined : Table} {row : Row}

/-- A table whose names and cells are such lines. -/
structure IsShowable (table : Table) : Prop where
  attributes : ∀ name ∈ table.attributes, IsUnmarkedLine name
  cells : ∀ row ∈ table.rows, ∀ cell ∈ row.cells, IsUnmarkedLine cell

theorem IsSound.isShowable (sound : table.IsSound) : table.IsShowable where
  attributes name mem := (sound.isName name mem).isUnmarkedLine
  cells row mem cell present := by
    obtain ⟨rest, attributes⟩ := sound.exists_attributes
    obtain ⟨n, numbered, -⟩ := sound.exists_number mem
    have soundRow := sound.rows row mem
    rw [attributes, List.length_cons] at soundRow
    obtain ⟨id, cells, same⟩ := soundRow.exists_cons
    have literals := soundRow.literals
    rw [Row.id, same] at numbered
    rw [same] at present literals
    rcases List.mem_cons.mp present with rfl | later
    · rw [show cell = toString n from numbered]
      exact Number.isUnmarkedLine n
    · exact Value.isUnmarkedLine (literals cell later)

theorem IsShowable.unmarked_render (h : table.IsShowable) (indices : List Nat)
    (mask : Option (List Bool)) : IsUnmarked (table.render indices mask) := by
  have shownRow : ∀ row ∈ table.rows,
      IsUnmarkedLine ("\t".intercalate (indices.filterMap row.cell?)) := by
    intro row mem
    refine isUnmarkedLine_intercalate fun cell shown => ?_
    obtain ⟨index, -, found⟩ := List.mem_filterMap.mp shown
    exact h.cells row mem cell (List.mem_of_getElem? found)
  have header : IsUnmarkedLine ("\t".intercalate (indices.filterMap (table.attributes[·]?))) := by
    refine isUnmarkedLine_intercalate fun name shown => ?_
    obtain ⟨index, -, found⟩ := List.mem_filterMap.mp shown
    exact h.attributes name (List.mem_of_getElem? found)
  refine ⟨_, rfl, fun line mem => ?_⟩
  rw [List.map_cons, List.map_map] at mem
  rcases List.mem_cons.mp mem with rfl | mem
  · exact header
  · obtain ⟨row, shown, rfl⟩ := List.mem_map.mp mem
    cases mask with
    | none => exact shownRow row shown
    | some mask => exact shownRow row ((selected_sublist mask table.rows).mem shown)

theorem mem_carriedCells {key : Nat} {cell : String} (h : cell ∈ table.carriedCells key row) :
    cell ∈ row.cells := by
  obtain ⟨index, -, found⟩ := List.mem_filterMap.mp h
  exact List.mem_of_getElem? found

/-- A name in front of a dot is no end-of-transmission character. -/
theorem isUnmarkedLine_of_mem_carriedNames (sound : table.IsSound) (isName : IsName table.name)
    {key : Nat} {name : String} (h : name ∈ table.carriedNames key) : IsUnmarkedLine name := by
  obtain ⟨index, -, named⟩ := List.mem_filterMap.mp h
  obtain ⟨other, found, rfl⟩ := Option.map_eq_some_iff.mp named
  have isOther := sound.isName other (List.mem_of_getElem? found)
  refine ⟨isLine_append.mpr ⟨isLine_append.mpr ⟨isName.isLine, by decide⟩, isOther.isLine⟩, ?_⟩
  intro same
  have dot : '.' ∈ ['\x04'] := by
    rw [← same]
    simp
  revert dot
  decide

theorem mem_numberRows {first : Nat} {cells : List (List String)}
    (h : row ∈ numberRows first cells) :
    ∃ n : Nat, ∃ rest ∈ cells, row.cells = toString n :: rest := by
  induction cells generalizing first with
  | nil => cases h
  | cons rest more ih =>
    rw [numberRows] at h
    rcases List.mem_cons.mp h with rfl | later
    · exact ⟨first, rest, List.mem_cons_self, rfl⟩
    · obtain ⟨n, other, mem, same⟩ := ih later
      exact ⟨n, other, List.mem_cons_of_mem rest mem, same⟩

theorem isShowable_join (sound : primary.IsSound) (soundOther : secondary.IsSound)
    (isName : IsName primary.name) (isNameOther : IsName secondary.name) {on onOther : String}
    (h : primary.join on secondary onOther = .ok joined) : joined.IsShowable := by
  obtain ⟨key, -, h⟩ := bind_eq_ok.mp h
  obtain ⟨keyOther, -, h⟩ := bind_eq_ok.mp h
  cases h
  constructor
  · intro name mem
    rcases List.mem_cons.mp mem with rfl | mem
    · exact isName_id.isUnmarkedLine
    · rcases List.mem_append.mp mem with left | right
      · exact isUnmarkedLine_of_mem_carriedNames sound isName left
      · exact isUnmarkedLine_of_mem_carriedNames soundOther isNameOther right
  · intro row mem cell present
    obtain ⟨n, cells, inCells, same⟩ := mem_numberRows mem
    rw [same] at present
    rcases List.mem_cons.mp present with rfl | present
    · exact Number.isUnmarkedLine n
    · obtain ⟨left, inPrimary, inCells⟩ := List.mem_flatMap.mp inCells
      obtain ⟨right, inSecondary, rfl⟩ := List.mem_map.mp inCells
      rcases List.mem_append.mp present with here | there
      · exact sound.isShowable.cells left inPrimary cell (mem_carriedCells here)
      · have inRows := (List.mem_filter.mp inSecondary).1
        exact soundOther.isShowable.cells right inRows cell (mem_carriedCells there)

end Table

/-! ## Statements -/

namespace TableStatement

variable {table left right : Table} {text : String}

theorem unmarked_selectText (sound : table.IsSound) {columns : Projection}
    {condition : Option Condition} (h : selectText table columns condition = .ok text) :
    IsUnmarked text := by
  obtain ⟨indices, -, h⟩ := bind_eq_ok.mp h
  have rendered : ∃ mask, table.render indices mask = text := by
    cases condition with
    | none => exact ⟨none, Except.ok.inj h⟩
    | some c =>
      obtain ⟨mask, -, h⟩ := bind_eq_ok.mp h
      exact ⟨mask, Except.ok.inj h⟩
  obtain ⟨mask, rfl⟩ := rendered
  exact sound.isShowable.unmarked_render indices mask

theorem unmarked_joinText (sound : left.IsSound) (soundRight : right.IsSound)
    (isName : IsName left.name) (isNameRight : IsName right.name) {on onOther : String}
    (h : joinText left right on onOther = .ok text) : IsUnmarked text := by
  obtain ⟨joined, found, h⟩ := bind_eq_ok.mp h
  cases h
  exact (Table.isShowable_join sound soundRight isName isNameRight found).unmarked_render _ none

end TableStatement

namespace Memory

variable {site : Site} {store next : Store} {tables after : Tables} {db : String}

theorem unmarked_of_runTable (sound : site.IsSoundStore store)
    (found : store.lookup db = some tables) {statement : TableStatement} {answer : Option String}
    (h : runTable (Database.under site.root db) tables statement = .ok (answer, after)) :
    ∀ text, answer = some text → IsUnmarked text := by
  rintro text rfl
  have isSound : ∀ {name table}, load (Database.under site.root db) tables name = .ok table →
      table.IsSound ∧ IsName table.name := by
    intro name table loaded
    obtain ⟨isName, -, isSound, named, -⟩ := Represents.follows_load sound found loaded
    exact ⟨isSound, named ▸ isName⟩
  cases statement with
  | select name columns condition =>
    obtain ⟨table, loaded, h⟩ := bind_eq_ok.mp (Outcome.ofResult_eq_ok.mp h)
    obtain ⟨shown, selected, h⟩ := bind_eq_ok.mp h
    cases h
    exact TableStatement.unmarked_selectText (isSound loaded).1 selected
  | join primary secondary =>
    obtain ⟨left, loaded, h⟩ := bind_eq_ok.mp (Outcome.ofResult_eq_ok.mp h)
    obtain ⟨right, loadedRight, h⟩ := bind_eq_ok.mp h
    obtain ⟨shown, joined, h⟩ := bind_eq_ok.mp h
    cases h
    obtain ⟨soundLeft, isLeft⟩ := isSound loaded
    obtain ⟨soundRight, isRight⟩ := isSound loadedRight
    exact TableStatement.unmarked_joinText soundLeft soundRight isLeft isRight joined
  | create name names =>
    obtain ⟨table, -, h⟩ := bind_eq_ok.mp (Outcome.ofResult_eq_ok.mp h)
    split at h <;> cases h
  | drop name =>
    replace h : (if name ∈ tables then _ else _) = _ := Outcome.ofResult_eq_ok.mp h
    split at h <;> cases h
  | insert name values =>
    obtain ⟨table, -, h⟩ := bind_eq_ok.mp h
    obtain ⟨added, -, h⟩ := bind_eq_ok.mp h
    cases added <;> cases h
  | alter | update | delete =>
    obtain ⟨table, -, h⟩ := bind_eq_ok.mp (Outcome.ofResult_eq_ok.mp h)
    obtain ⟨changed, -, same⟩ := map_eq_ok.mp h
    cases same

/-- Whatever a statement shows of a sound store is made of such lines. -/
theorem unmarked_of_perform (sound : site.IsSoundStore store) {session : Session}
    {text : String} {response : Response}
    (h : perform site.root store session text = .ok (response, next)) :
    ∀ shown, response.text = some shown → IsUnmarked shown := by
  obtain ⟨statement, -, h⟩ := bind_eq_ok.mp h
  cases statement with
  | database statement =>
    have silent : response.text = none := by
      cases statement with
      | use name | create name | drop name =>
        replace h : (if name ∈ store then _ else _) = _ := Outcome.ofResult_eq_ok.mp h
        split at h
        all_goals cases h
        rfl
    rw [silent]
    exact nofun
  | table statement =>
    dsimp only at h
    split at h
    · cases h
    · split at h
      · cases h
      · next tables found =>
        obtain ⟨⟨answer, after⟩, ran, h⟩ := bind_eq_ok.mp h
        cases h
        exact unmarked_of_runTable sound found ran

end Memory

/-! ## Runs -/

/-- A request ends with lines to show, or with a message woven from lines and copies of a root, if
it has one. -/
abbrev EndsShown (root : Path) : Outcome Response → Prop :=
  Ends (fun response => ∀ text, response.text = some text → IsUnmarked text) (Failure.IsWoven root)

namespace Site.Serves

variable {site : Site} {σ : Type} [DecidableEq σ] {files : Served σ Tree}
  {memory : Served σ Store} {engine : Engine}

theorem endsShown_step (h : site.Serves files memory) (root : engine.root = site.root)
    {request : σ × String} (line : IsLine request.2) :
    EndsShown engine.root (Served.step engine.perform files request).1 := by
  have valid := h.valid request.1
  rw [← h.sessions] at valid
  refine ends_iff.mpr ⟨fun response succeeds => ?_, fun e failed => ?_⟩
  · obtain ⟨next, -, same | ⟨-, -, e, failed⟩⟩ := h.step root request
    · rw [succeeds] at same
      have ended := congrArg Prod.fst same
      rw [Served.step_fst, Memory.step, root] at ended
      split at ended
      · next inMemory =>
        cases ended
        exact Memory.unmarked_of_perform h.sound inMemory
      · cases ended
    · rw [succeeds] at failed
      cases failed
  · rw [Served.step_fst] at failed
    exact Engine.failsWoven_perform line valid files.data e failed

/-- Requests on one line each end so, whatever their sessions have done before. -/
theorem endsShown_run (h : site.Serves files memory) (root : engine.root = site.root)
    {requests : List (σ × String)} (lines : ∀ request ∈ requests, IsLine request.2) :
    ∀ outcome ∈ (Served.run engine.perform files requests).1, EndsShown engine.root outcome := by
  induction requests generalizing files memory with
  | nil => exact List.forall_mem_nil _
  | cons request rest ih =>
    rw [List.forall_mem_cons] at lines
    obtain ⟨next, serves, -⟩ := h.step root request
    exact List.forall_mem_cons.mpr ⟨h.endsShown_step root lines.1, ih serves lines.2⟩

end Site.Serves

end TabStore
