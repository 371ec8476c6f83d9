import TabStore.Proofs.Files.Faults
import TabStore.Proofs.Files.Path
import TabStore.Proofs.Text.Marks

/-!
# Messages about files

A failure of a file is shown with the path of the file as it is written. Below a root, that is the
root and a line behind it; the root itself may be written on several lines.

Results:
1. `Path.Extends.join`: a path that is written as the root and a line behind it stays one;
2. `Error.isWoven_of_isPlain`, `Error.isWoven_fileFailure`, `Error.isWoven_corruptTable`: a message
   about lines and paths below a root is woven from lines and copies of the root;
3. `Change.failsWoven_applyAll`: changes below a root fail with such messages.
-/

namespace TabStore

open Text (IsLine Woven isLine_append)

/-! ## Paths in messages -/

/-- A path that is written as another one with a line behind it. -/
def Path.Extends (path root : Path) : Prop := ∃ tail, IsLine tail ∧ path.text = root.text ++ tail

namespace Path.Extends

variable {path root : Path} {name : String}

theorem refl (root : Path) : root.Extends root := ⟨"", by decide, by simp⟩

theorem join (h : path.Extends root) (isFileName : IsFileName name) (line : IsLine name) :
    (path.join name).Extends root := by
  obtain ⟨tail, tailLine, same⟩ := h
  obtain ⟨separator, plain, text⟩ := exists_join_text path isFileName
  have separatorLine : IsLine separator := by
    rcases plain with rfl | rfl <;> decide
  refine ⟨tail ++ separator ++ name, ?_, ?_⟩
  · exact isLine_append.mpr ⟨isLine_append.mpr ⟨tailLine, separatorLine⟩, line⟩
  · rw [text, same, String.append_assoc, String.append_assoc, String.append_assoc]

end Path.Extends

/-- The text of a message about lines and about paths below a root. -/
def IsWovenText (root : Path) (text : String) : Prop := Woven root.text.toList text.toList

section

variable {path root : Path} {front text : String}

theorem isWovenText_of_isLine (line : IsLine text) (long : 2 ≤ text.toList.length) :
    IsWovenText root text :=
  .line line long

theorem IsWovenText.append (h : IsWovenText root text) (line : IsLine front) :
    IsWovenText root (front ++ text) := by
  have woven := Woven.append h line
  rwa [← String.toList_append] at woven

theorem isWovenText_path (below : path.Extends root) (line : IsLine front)
    (long : 2 ≤ front.toList.length) (later : IsWovenText root text) :
    IsWovenText root (front ++ path.text ++ text) := by
  obtain ⟨tail, tailLine, same⟩ := below
  have woven := Woven.cons line long (later.append tailLine)
  rw [IsWovenText, same]
  simpa only [String.toList_append, List.append_assoc] using woven

end

namespace Error

/-- An error whose message is woven from lines and copies of a root. -/
def IsWoven (root : Path) (e : Error) : Prop := IsWovenText root ("[ERROR] " ++ e.message)

variable {path other root : Path} {front reason : String} {cause : FileError} {e : Error}

theorem long_append {front text : String} (long : 2 ≤ front.toList.length) :
    2 ≤ (front ++ text).toList.length := by
  rw [String.toList_append, List.length_append]
  exact Nat.le_trans long (Nat.le_add_right _ _)

theorem isWoven_of_isPlain (h : e.IsPlain) : e.IsWoven root :=
  isWovenText_of_isLine (isLine_append.mpr ⟨by decide, isLine_message h⟩) (long_append (by decide))

theorem isWovenText_cause (named : cause.IsNamed) : IsWovenText root (": " ++ cause.message) :=
  isWovenText_of_isLine (isLine_append.mpr ⟨by decide, FileError.isLine_message named⟩)
    (long_append (by decide))

theorem isWoven_fileFailure (below : path.Extends root) (line : IsLine front)
    (named : cause.IsNamed) : IsWoven root (.fileFailure (front ++ path.text) cause) := by
  have start : IsLine ("[ERROR] " ++ front) := isLine_append.mpr ⟨by decide, line⟩
  have woven := isWovenText_path below start (long_append (by decide)) (isWovenText_cause named)
  show IsWovenText root ("[ERROR] " ++ (front ++ path.text ++ ": " ++ cause.message))
  simpa only [String.append_assoc] using woven

theorem isWoven_replacing (below : path.Extends root) (belowOther : other.Extends root)
    (named : cause.IsNamed) :
    IsWoven root (.fileFailure ("replacing " ++ path.text ++ " with " ++ other.text) cause) := by
  have source : IsWovenText root (" with " ++ other.text ++ (": " ++ cause.message)) :=
    isWovenText_path belowOther (by decide) (by decide) (isWovenText_cause named)
  have woven : IsWovenText root ("[ERROR] " ++ "replacing " ++ path.text ++ _) :=
    isWovenText_path below (by decide) (by decide) source
  show IsWovenText root ("[ERROR] " ++
    ("replacing " ++ path.text ++ " with " ++ other.text ++ ": " ++ cause.message))
  simpa only [String.append_assoc] using woven

theorem isWoven_corruptTable (below : path.Extends root) (line : IsLine reason) :
    IsWoven root (.corruptTable path.text reason) := by
  have text : IsWovenText root (" is corrupt: " ++ reason) :=
    isWovenText_of_isLine (isLine_append.mpr ⟨by decide, line⟩) (long_append (by decide))
  have woven : IsWovenText root ("[ERROR] " ++ "Table file " ++ path.text ++ _) :=
    isWovenText_path below (by decide) (by decide) text
  show IsWovenText root ("[ERROR] " ++ ("Table file " ++ path.text ++ " is corrupt: " ++ reason))
  simpa only [String.append_assoc] using woven

end Error

/-- A step that returns what satisfies `P`, or fails with a message woven from lines and copies of
a root. -/
abbrev EndsWoven {α : Type} (root : Path) (P : α → Prop) : Result α → Prop :=
  Ends P (Error.IsWoven root)

theorem EndsPlain.endsWoven {α : Type} {root : Path} {P : α → Prop} {result : Result α}
    (h : EndsPlain P result) : EndsWoven root P result :=
  h.weaken fun _ => Error.isWoven_of_isPlain

/-- Where a step on a tree breaks off, it does so with what satisfies `E`. -/
def FailsWith {ε α : Type} (E : ε → Prop) (step : Except ε α × Tree) : Prop :=
  ∀ e, step.1 = .error e → E e

/-- Where a step fails, its message is woven from lines and copies of a root. -/
abbrev FailsWoven {α : Type} (root : Path) (step : Result α × Tree) : Prop :=
  FailsWith (Error.IsWoven root) step

/-- A panic has no message. -/
def Failure.IsWoven (root : Path) : Failure → Prop
  | .error e => e.IsWoven root
  | .panic => True

namespace FailsWith

variable {ε α β : Type} {E : ε → Prop} {root : Path} {tree : Tree}

theorem of_ends {P : α → Prop} {outcome : Except ε α} (h : Ends P E outcome) :
    FailsWith E (outcome, tree) := fun _ failed => h.error failed

theorem ok (a : α) : FailsWith E (.ok a, tree) := nofun

theorem error {e : ε} (h : E e) : FailsWith E ((.error e, tree) : Except ε α × Tree) := by
  rintro _ ⟨⟩
  exact h

theorem map {step : Except ε α × Tree} (h : FailsWith E step) (f : α → β) :
    FailsWith E (step.1.map f, step.2) := by
  intro e failed
  exact h e (except_map_eq_error.mp failed)

theorem ofResult {step : Result α × Tree} (h : FailsWoven root step) :
    FailsWith (Failure.IsWoven root) (Outcome.ofResult step.1, step.2) := by
  intro failure failed
  obtain ⟨e, rfl, ended⟩ := Outcome.ofResult_eq_error.mp failed
  exact h e ended

end FailsWith

/-! ## Changes -/

def Change.paths : Change → List Path
  | .write path _ | .remove path | .makeDirectory path | .clearDirectory path
  | .removeDirectory path => [path]
  | .rename source target => [source, target]

namespace Change

variable {root : Path} {changes : List Change}

theorem isWoven_action {change : Change} (below : ∀ path ∈ change.paths, path.Extends root)
    {cause : FileError} (named : cause.IsNamed) :
    Error.IsWoven root (.fileFailure change.action cause) := by
  cases change with
  | rename source target =>
    exact Error.isWoven_replacing (below target (by simp [paths])) (below source (by simp [paths]))
      named
  | write path text | remove path | makeDirectory path | clearDirectory path
  | removeDirectory path =>
    exact Error.isWoven_fileFailure (below path List.mem_cons_self) (by decide) named

theorem failsWoven_applyAll
    (below : ∀ change ∈ changes, ∀ path ∈ change.paths, path.Extends root) (tree : Tree) :
    FailsWoven root (applyAll changes tree) := by
  induction changes generalizing tree with
  | nil => exact .ok ()
  | cons change rest ih =>
    rw [List.forall_mem_cons] at below
    have applies := ends_apply tree change
    rw [applyAll]
    split
    · next next _ => exact ih below.2 next
    · next cause failed => exact .error (isWoven_action below.1 (applies.error failed))

end Change

end TabStore
