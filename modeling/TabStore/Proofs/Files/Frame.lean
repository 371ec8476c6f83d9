import TabStore.Proofs.Files.Replacement

/-!
# Frames of changes

A change of files is seen only at the paths that it names: no directory comes or goes, so every
other path leads where it led before. What such a change does depends on these paths alone: in two
trees that agree on them it succeeds or fails alike and leaves the trees in agreement.

Results:
1. `DiffersAt.alike_of_ne`: a path under which something else is found after changes of files leads
   to the same place as one of the paths that were changed;
2. `differsAt_write`, `differsAt_remove`, `differsAt_replacement`: what each change is seen at;
3. `isLocal_applyAll_append`, `isLocal_replacement`, `isLocal_removeEach`: changes in two trees that
   agree on the paths.
-/

namespace TabStore

namespace Tree

variable {tree other next : Tree} {path : Path} {paths : List Path} {location : Location}

/-- What is found under a path, if anything is. -/
def found? (tree : Tree) (path : Path) : Option Entry := (tree.entry path).toOption

/-- Two paths lead to the same place. -/
def LeadAlike (tree : Tree) (path other : Path) : Prop :=
  ∃ location, tree.resolve path = .ok location ∧ tree.resolve other = .ok location

theorem entry_of_resolve (resolved : tree.resolve path = .ok location) :
    tree.entry path = match tree.find? location with
      | some entry => .ok entry
      | none => .error .notFound := by
  rw [entry, resolved]
  rfl

theorem find?_of_entry {entry : Entry} (resolved : tree.resolve path = .ok location)
    (present : tree.entry path = .ok entry) : tree.find? location = some entry := by
  rw [entry_of_resolve resolved] at present
  cases found : tree.find? location with
  | none =>
    rw [found] at present
    cases present
  | some other =>
    rw [found] at present
    cases present
    rfl

theorem exists_enters_of_isDirectory (h : tree.isDirectory path = true) :
    ∃ home, tree.resolve path = .ok home ∧ tree.Enters path home := by
  unfold isDirectory at h
  split at h
  · next found =>
    obtain ⟨home, resolved, -⟩ := bind_eq_ok.mp found
    exact ⟨home, resolved, enters_of_resolve resolved (find?_of_entry resolved found)⟩
  · cases h

theorem found?_of_resolve (resolved : tree.resolve path = .ok location) :
    tree.found? path = tree.find? location := by
  rw [found?, entry_of_resolve resolved]
  cases tree.find? location <;> rfl

theorem found?_of_error {cause : FileError} (failed : tree.resolve path = .error cause) :
    tree.found? path = none := by
  rw [found?, entry, failed]
  rfl

theorem names_ne_nil_of_file {content : Content}
    (found : tree.find? location = some (.file content)) : location.names ≠ [] := by
  intro start
  rw [find?, if_pos start] at found
  cases found

/-! ## What changes are seen at -/

theorem resolve_of_keepsDirectories (keeps : tree.KeepsDirectories other)
    (resolved : tree.resolve path = .ok location) : other.resolve path = .ok location := by
  unfold resolve follow at resolved ⊢
  split at resolved
  · cases resolved
  · exact locate_of_keepsDirectories keeps resolved

/-- A tree with the directories of another one, and with the same files but for those that some
paths lead to. -/
structure DiffersAt (tree other : Tree) (paths : List Path) : Prop where
  keeps : tree.KeepsDirectories other
  kept : other.KeepsDirectories tree
  places : ∀ location, other.find? location ≠ tree.find? location →
    ∃ path ∈ paths, tree.resolve path = .ok location

namespace DiffersAt

theorem refl (tree : Tree) (paths : List Path) : tree.DiffersAt tree paths :=
  ⟨fun _ => id, fun _ => id, fun _ differs => absurd rfl differs⟩

theorem trans (first : tree.DiffersAt next paths) (second : next.DiffersAt other paths) :
    tree.DiffersAt other paths where
  keeps location found := second.keeps location (first.keeps location found)
  kept location found := first.kept location (second.kept location found)
  places location differs := by
    by_cases same : other.find? location = next.find? location
    · exact first.places location (same ▸ differs)
    · obtain ⟨path, mem, resolved⟩ := second.places location same
      exact ⟨path, mem, resolve_of_keepsDirectories first.kept resolved⟩

theorem mono {more : List Path} (h : tree.DiffersAt other paths) (sub : paths ⊆ more) :
    tree.DiffersAt other more where
  keeps := h.keeps
  kept := h.kept
  places location differs := by
    obtain ⟨path, mem, resolved⟩ := h.places location differs
    exact ⟨path, sub mem, resolved⟩

theorem insert (resolved : tree.resolve path = .ok location)
    (plain : tree.find? location ≠ some .directory) (content : Content) :
    tree.DiffersAt (tree.insert location (.file content)) [path] where
  keeps := .insert plain
  kept place found := by
    have inside : location.names ≠ [] := fun start => plain (if_pos start)
    rcases eq_or_ne place location with rfl | apart
    · rw [find?_insert_self _ inside] at found
      cases found
    · rwa [find?_insert_of_ne _ apart] at found
  places place differs := by
    refine ⟨path, List.mem_singleton_self path, ?_⟩
    by_contra elsewhere
    refine differs (find?_insert_of_ne _ ?_ _)
    rintro rfl
    exact elsewhere resolved

theorem erase {content : Content} (resolved : tree.resolve path = .ok location)
    (found : tree.find? location = some (.file content)) :
    tree.DiffersAt (tree.erase location) [path] where
  keeps := by
    refine .erase ?_
    rw [found]
    exact nofun
  kept place present := by
    rcases eq_or_ne place location with rfl | apart
    · rw [find?_erase_self _ (names_ne_nil_of_file found)] at present
      cases present
    · rwa [find?_erase_of_ne _ apart] at present
  places place differs := by
    refine ⟨path, List.mem_singleton_self path, ?_⟩
    by_contra elsewhere
    refine differs (find?_erase_of_ne _ ?_)
    rintro rfl
    exact elsewhere resolved

/-- What is found under a path is something else only if the path leads where one of the changed
paths leads. -/
theorem alike_of_ne (h : tree.DiffersAt other paths)
    (differs : other.found? path ≠ tree.found? path) :
    ∃ own ∈ paths, tree.LeadAlike path own := by
  cases resolved : tree.resolve path with
  | ok location =>
    rw [found?_of_resolve resolved,
      found?_of_resolve (resolve_of_keepsDirectories h.keeps resolved)] at differs
    obtain ⟨own, mem, resolvedOwn⟩ := h.places location differs
    exact ⟨own, mem, location, resolved, resolvedOwn⟩
  | error cause =>
    -- A path that leads nowhere in one of the trees leads nowhere in the other.
    cases resolvedOther : other.resolve path with
    | ok location =>
      rw [resolve_of_keepsDirectories h.kept resolvedOther] at resolved
      cases resolved
    | error later =>
      rw [found?_of_error resolved, found?_of_error resolvedOther] at differs
      exact absurd rfl differs

end DiffersAt

variable {text : String} {content : Content} {source target : Path}

theorem differsAt_write (written : (Change.write path text).apply tree = .ok next) :
    tree.DiffersAt next [path] ∧ next.entry path = .ok (.file (.text text)) := by
  obtain ⟨location, resolved, written⟩ := bind_eq_ok.mp written
  split at written
  · cases written
  · next plain =>
    cases written
    have differs := DiffersAt.insert resolved plain (.text text)
    have inside : location.names ≠ [] := fun start => plain (if_pos start)
    refine ⟨differs, ?_⟩
    rw [entry_of_resolve (resolve_of_keepsDirectories differs.keeps resolved),
      find?_insert_self _ inside]

theorem differsAt_remove (removed : (Change.remove path).apply tree = .ok next) :
    tree.DiffersAt next [path] := by
  obtain ⟨entry, present, removed⟩ := bind_eq_ok.mp removed
  cases entry with
  | directory => cases removed
  | file content =>
    obtain ⟨location, resolved, removed⟩ := bind_eq_ok.mp removed
    cases removed
    exact .erase resolved (find?_of_entry resolved present)

/-- A file that is renamed is seen at its old path and at its new one. -/
theorem differsAt_rename (present : tree.entry source = .ok (.file content))
    (renamed : (Change.rename source target).apply tree = .ok next) :
    tree.DiffersAt next [source, target] := by
  obtain ⟨moved, again, renamed⟩ := bind_eq_ok.mp renamed
  cases present.symm.trans again
  obtain ⟨start, resolved, renamed⟩ := bind_eq_ok.mp renamed
  obtain ⟨goal, resolvedTarget, renamed⟩ := bind_eq_ok.mp renamed
  split at renamed
  · cases renamed
  · next plain =>
    cases renamed
    have erased := DiffersAt.erase resolved (find?_of_entry resolved present)
    have stillPlain : (tree.erase start).find? goal ≠ some .directory :=
      fun directory => plain (erased.kept goal directory)
    have inserted := DiffersAt.insert
      (resolve_of_keepsDirectories erased.keeps resolvedTarget) stillPlain content
    exact (erased.mono (by simp)).trans (inserted.mono (by simp))

theorem differsAt_replacement (tree : Tree) (path : Path) (text : String) :
    tree.DiffersAt (Change.applyAll (Table.replacement path text) tree).2
      [path.addExtension Table.temporaryExtension, path] := by
  let temporary := path.addExtension Table.temporaryExtension
  show tree.DiffersAt (Change.applyAll [.write temporary text, .rename temporary path] tree).2 _
  cases written : (Change.write temporary text).apply tree with
  | error cause =>
    rw [Change.applyAll_of_error written]
    exact .refl tree _
  | ok next =>
    obtain ⟨differs, present⟩ := differsAt_write written
    have first : tree.DiffersAt next [temporary, path] := differs.mono (by simp)
    rw [Change.applyAll_of_ok written]
    cases renamed : (Change.rename temporary path).apply next with
    | error cause =>
      rw [Change.applyAll_of_error renamed]
      exact first
    | ok after =>
      rw [Change.applyAll_of_ok renamed]
      exact first.trans (differsAt_rename present renamed)

/-! ## Two trees -/

/-- A path leads to one place, or nowhere for one reason, as long as no directory goes. -/
def Fixes (tree : Tree) (path : Path) (place : Except FileError Location) : Prop :=
  ∀ other, tree.KeepsDirectories other → other.resolve path = place

/-- The same is found under some paths in two trees, and stays so as long as no directory goes. -/
def AgreeOn (paths : List Path) (left right : Tree) : Prop :=
  ∀ path ∈ paths, ∃ place, left.Fixes path place ∧ right.Fixes path place ∧
    ∀ location, place = .ok location → left.find? location = right.find? location

theorem Fixes.resolve_eq {place : Except FileError Location} (h : tree.Fixes path place) :
    tree.resolve path = place := h tree fun _ => id

theorem Fixes.of_keepsDirectories {place : Except FileError Location} (h : tree.Fixes path place)
    (keeps : tree.KeepsDirectories other) : other.Fixes path place :=
  fun later still => h later fun location found => still location (keeps location found)

section

variable {left right : Tree} {place : Location}

theorem find?_insert_congr (location : Location) (entry : Entry)
    (same : left.find? place = right.find? place) :
    (left.insert location entry).find? place = (right.insert location entry).find? place := by
  rcases eq_or_ne place location with rfl | apart
  · by_cases start : place.names = []
    · rw [find?, find?, if_pos start, if_pos start]
    · rw [find?_insert_self _ start, find?_insert_self _ start]
  · rw [find?_insert_of_ne _ apart, find?_insert_of_ne _ apart, same]

theorem find?_erase_congr (location : Location) (same : left.find? place = right.find? place) :
    (left.erase location).find? place = (right.erase location).find? place := by
  rcases eq_or_ne place location with rfl | apart
  · by_cases start : place.names = []
    · rw [find?, find?, if_pos start, if_pos start]
    · rw [find?_erase_self _ start, find?_erase_self _ start]
  · rw [find?_erase_of_ne _ apart, find?_erase_of_ne _ apart, same]

end

namespace AgreeOn

variable {left right left' right' : Tree} {content : Content}

theorem mono {more : List Path} (h : AgreeOn more left right) (sub : paths ⊆ more) :
    AgreeOn paths left right := fun path mem => h path (sub mem)

theorem resolve_eq (h : AgreeOn paths left right) (mem : path ∈ paths) :
    left.resolve path = right.resolve path := by
  obtain ⟨place, fixesLeft, fixesRight, -⟩ := h path mem
  rw [fixesLeft.resolve_eq, fixesRight.resolve_eq]

theorem find?_eq (h : AgreeOn paths left right) (mem : path ∈ paths)
    (resolved : right.resolve path = .ok location) :
    left.find? location = right.find? location := by
  obtain ⟨place, -, fixesRight, same⟩ := h path mem
  exact same location (fixesRight.resolve_eq.symm.trans resolved)

theorem entry_eq (h : AgreeOn paths left right) (mem : path ∈ paths) :
    left.entry path = right.entry path := by
  unfold entry
  rw [h.resolve_eq mem]
  cases resolved : right.resolve path with
  | error cause => rfl
  | ok location => rw [ok_bind, ok_bind, h.find?_eq mem resolved]

/-- Trees that have changed in the same places still agree. -/
theorem step (h : AgreeOn paths left right) (keepsLeft : left.KeepsDirectories left')
    (keepsRight : right.KeepsDirectories right')
    (alike : ∀ location, left.find? location = right.find? location →
      left'.find? location = right'.find? location) : AgreeOn paths left' right' := by
  intro path mem
  obtain ⟨place, fixesLeft, fixesRight, same⟩ := h path mem
  exact ⟨place, fixesLeft.of_keepsDirectories keepsLeft, fixesRight.of_keepsDirectories keepsRight,
    fun location located => alike location (same location located)⟩

theorem insert (h : AgreeOn paths left right) (mem : path ∈ paths)
    (resolved : right.resolve path = .ok location)
    (plain : right.find? location ≠ some .directory) (content : Content) :
    AgreeOn paths (left.insert location (.file content)) (right.insert location (.file content)) :=
  h.step (.insert (h.find?_eq mem resolved ▸ plain)) (.insert plain)
    fun _ => find?_insert_congr location _

theorem erase (h : AgreeOn paths left right) (mem : path ∈ paths)
    (resolved : right.resolve path = .ok location)
    (plain : right.find? location ≠ some .directory) :
    AgreeOn paths (left.erase location) (right.erase location) :=
  h.step (.erase (h.find?_eq mem resolved ▸ plain)) (.erase plain)
    fun _ => find?_erase_congr location

end AgreeOn

/-- A change in two trees fails for one reason, or is done in both and leaves them in agreement. -/
inductive Lockstep (paths : List Path) : Except FileError Tree → Except FileError Tree → Prop
  | failed (cause : FileError) : Lockstep paths (.error cause) (.error cause)
  | done {left right : Tree} (agree : AgreeOn paths left right) :
    Lockstep paths (.ok left) (.ok right)

namespace Lockstep

variable {left : Except FileError Tree}

theorem eq_error {cause : FileError} (h : Lockstep paths left (.error cause)) :
    left = .error cause := by
  cases h
  rfl

theorem exists_ok {right : Tree} (h : Lockstep paths left (.ok right)) :
    ∃ tree, left = .ok tree ∧ AgreeOn paths tree right := by
  cases h with
  | done agree => exact ⟨_, rfl, agree⟩

end Lockstep

/-- Two steps end with the same outcome and leave trees that agree. -/
structure EndAlike {α : Type} (paths : List Path) (left right : α × Tree) : Prop where
  outcome : left.1 = right.1
  agree : AgreeOn paths left.2 right.2

section

variable {left right : Tree}

theorem lockstep_write (agree : AgreeOn paths left right) (mem : path ∈ paths) (text : String) :
    Lockstep paths ((Change.write path text).apply left)
      ((Change.write path text).apply right) := by
  show Lockstep paths (left.write path _) (right.write path _)
  unfold write
  rw [agree.resolve_eq mem]
  cases resolved : right.resolve path with
  | error cause => exact .failed cause
  | ok location =>
    rw [ok_bind, ok_bind, agree.find?_eq mem resolved]
    split
    · exact .failed _
    · next plain => exact .done (agree.insert mem resolved plain _)

theorem lockstep_remove (agree : AgreeOn paths left right) (mem : path ∈ paths) :
    Lockstep paths ((Change.remove path).apply left) ((Change.remove path).apply right) := by
  unfold Change.apply
  dsimp only
  rw [agree.entry_eq mem, agree.resolve_eq mem]
  cases present : right.entry path with
  | error cause => exact .failed cause
  | ok entry =>
    cases entry with
    | directory => exact .failed _
    | file content =>
      cases resolved : right.resolve path with
      | error cause => exact .failed cause
      | ok location =>
        refine .done (agree.erase mem resolved ?_)
        rw [find?_of_entry resolved present]
        exact nofun

theorem lockstep_rename (agree : AgreeOn paths left right) (mem : source ∈ paths)
    (memTarget : target ∈ paths) (present : right.entry source = .ok (.file content)) :
    Lockstep paths ((Change.rename source target).apply left)
      ((Change.rename source target).apply right) := by
  unfold Change.apply
  dsimp only
  rw [agree.entry_eq mem, agree.resolve_eq mem, agree.resolve_eq memTarget, present, ok_bind,
    ok_bind]
  cases resolved : right.resolve source with
  | error cause => exact .failed cause
  | ok start =>
    cases resolvedTarget : right.resolve target with
    | error cause => exact .failed cause
    | ok goal =>
      rw [ok_bind, ok_bind, ok_bind, ok_bind, agree.find?_eq memTarget resolvedTarget]
      split
      · exact .failed _
      · next plain =>
        have isFile := find?_of_entry resolved present
        have erased := DiffersAt.erase resolved isFile
        refine .done ((agree.erase mem resolved ?_).insert memTarget
          (resolve_of_keepsDirectories erased.keeps resolvedTarget) ?_ content)
        · rw [isFile]
          exact nofun
        · exact fun directory => plain (erased.kept goal directory)

end

/-! ## Steps of work -/

/-- A step of work is seen at some paths only, and does the same in all trees that agree on them. -/
structure IsLocal {α : Type} (paths : List Path) (step : Tree → α × Tree) : Prop where
  differsAt : ∀ tree : Tree, tree.DiffersAt (step tree).2 paths
  endAlike : ∀ {more : List Path} {left right : Tree}, paths ⊆ more → AgreeOn more left right →
    EndAlike more (step left) (step right)

theorem isLocal_replacement (path : Path) (text : String) :
    IsLocal [path.addExtension Table.temporaryExtension, path]
      (Change.applyAll (Table.replacement path text)) where
  differsAt tree := differsAt_replacement tree path text
  endAlike {more left right} sub agree := by
    let temporary := path.addExtension Table.temporaryExtension
    let changes : List Change := [.write temporary text, .rename temporary path]
    show EndAlike more (Change.applyAll changes left) (Change.applyAll changes right)
    have memTemporary : temporary ∈ more := sub List.mem_cons_self
    have mem : path ∈ more := sub (List.mem_cons_of_mem _ List.mem_cons_self)
    have write := lockstep_write agree memTemporary text
    cases written : (Change.write temporary text).apply right with
    | error cause =>
      rw [Change.applyAll_of_error written, Change.applyAll_of_error (written ▸ write).eq_error]
      exact ⟨rfl, agree⟩
    | ok next =>
      obtain ⟨nextLeft, writtenLeft, agreeNext⟩ := (written ▸ write).exists_ok
      rw [Change.applyAll_of_ok written, Change.applyAll_of_ok writtenLeft]
      have rename := lockstep_rename agreeNext memTemporary mem (differsAt_write written).2
      cases renamed : (Change.rename temporary path).apply next with
      | error cause =>
        rw [Change.applyAll_of_error renamed, Change.applyAll_of_error (renamed ▸ rename).eq_error]
        exact ⟨rfl, agreeNext⟩
      | ok after =>
        obtain ⟨afterLeft, renamedLeft, agreeAfter⟩ := (renamed ▸ rename).exists_ok
        rw [Change.applyAll_of_ok renamed, Change.applyAll_of_ok renamedLeft]
        exact ⟨rfl, agreeAfter⟩

namespace IsLocal

variable {α β : Type} {step : Tree → α × Tree}

theorem mono {more : List Path} (h : IsLocal paths step) (sub : paths ⊆ more) :
    IsLocal more step where
  differsAt tree := (h.differsAt tree).mono sub
  endAlike subMore := h.endAlike fun _ mem => subMore (sub mem)

/-- A step that only tells what is known already. -/
theorem same (paths : List Path) (outcome : α) :
    IsLocal paths fun tree => (outcome, tree) where
  differsAt tree := .refl tree paths
  endAlike _ agree := ⟨rfl, agree⟩

theorem map (h : IsLocal paths step) (f : α → β) :
    IsLocal paths fun tree => (f (step tree).1, (step tree).2) where
  differsAt := h.differsAt
  endAlike sub agree := by
    obtain ⟨outcome, agreeAfter⟩ := h.endAlike sub agree
    exact ⟨congrArg f outcome, agreeAfter⟩

/-- Which of two steps is taken may be found out by looking at the paths. -/
theorem ite {other : Tree → α × Tree} {test : Tree → Bool} (h : IsLocal paths step)
    (hOther : IsLocal paths other)
    (looks : ∀ {left right}, AgreeOn paths left right → test left = test right) :
    IsLocal paths fun tree => if test tree then step tree else other tree where
  differsAt tree := by
    split
    · exact h.differsAt tree
    · exact hOther.differsAt tree
  endAlike sub agree := by
    rw [looks (agree.mono sub)]
    split
    · exact h.endAlike sub agree
    · exact hOther.endAlike sub agree

end IsLocal

theorem isLocal_applyAll_append {first second : List Change}
    (h : IsLocal paths (Change.applyAll first)) (hSecond : IsLocal paths (Change.applyAll second)) :
    IsLocal paths (Change.applyAll (first ++ second)) where
  differsAt tree := by
    rw [Change.applyAll_append]
    have before := h.differsAt tree
    match ended : Change.applyAll first tree, before with
    | (.ok (), next), before => exact before.trans (hSecond.differsAt next)
    | (.error e, next), before => exact before
  endAlike {more left right} sub agree := by
    rw [Change.applyAll_append, Change.applyAll_append]
    have before := h.endAlike sub agree
    match Change.applyAll first left, Change.applyAll first right, before with
    | (.ok (), nextLeft), (.ok (), nextRight), before => exact hSecond.endAlike sub before.agree
    | (.error e, nextLeft), (.error e', nextRight), before => exact ⟨before.outcome, before.agree⟩
    | (.ok (), _), (.error _, _), before => cases before.outcome
    | (.error _, _), (.ok (), _), before => cases before.outcome

/-- Files are removed alike in trees that agree on them. -/
theorem isLocal_removeEach (paths : List Path) : IsLocal paths (Table.removeEach paths) := by
  induction paths with
  | nil => exact .same [] _
  | cons path rest ih =>
    refine ⟨fun tree => ?_, fun {more left right} sub agree => ?_⟩
    · rw [Table.removeEach]
      split
      · next next removed =>
        have first : tree.DiffersAt next (path :: rest) := (differsAt_remove removed).mono (by simp)
        exact first.trans ((ih.differsAt next).mono (List.subset_cons_self path rest))
      · exact (ih.differsAt tree).mono (List.subset_cons_self path rest)
      · exact .refl tree _
    · have subRest : rest ⊆ more := fun _ mem => sub (List.mem_cons_of_mem path mem)
      have remove := lockstep_remove agree (sub List.mem_cons_self)
      rw [Table.removeEach, Table.removeEach]
      cases removed : (Change.remove path).apply right with
      | error cause =>
        rw [removed] at remove
        rw [remove.eq_error]
        cases cause with
        | notFound => exact ih.endAlike subRest agree
        | _ => exact ⟨rfl, agree⟩
      | ok next =>
        rw [removed] at remove
        obtain ⟨nextLeft, removedLeft, agreeNext⟩ := remove.exists_ok
        rw [removedLeft]
        exact ih.endAlike subRest agreeNext

end Tree

end TabStore
