import TabStore.Proofs.Files.Changes
import TabStore.Table.Stored

/-!
# Replaced entries of a directory

Replacing an entry of a directory writes a new file beside it and renames that over it. Nothing is
assumed of the path to the directory: what matters is that some step has succeeded there.

Results:
1. `exists_enters_of_resolve`, `Enters.of_keepsDirectories`: the directory that a path goes on in is
   found from any entry, and it is the same one after changes of files;
2. `Enters.readText_of_write`, `Enters.readText_of_replacement`: what is read of the entries after
   the first step and after both;
3. `Enters.exists_replacement`: both steps succeed where the paths are short enough and no directory
   is in the way.
-/

namespace TabStore

namespace Change

variable {change : Change} {changes : List Change} {tree after : Tree}

theorem applyAll_of_ok {next : Tree} (applied : change.apply tree = .ok next) :
    applyAll (change :: changes) tree = applyAll changes next := by
  rw [applyAll, applied]

theorem applyAll_of_error {cause : FileError} (failed : change.apply tree = .error cause) :
    applyAll (change :: changes) tree = (.error (.fileFailure change.action cause), tree) := by
  rw [applyAll, failed]

/-- Changes go on in the tree that those before them have left, unless one of those failed. -/
theorem applyAll_append (first second : List Change) (tree : Tree) :
    applyAll (first ++ second) tree = match applyAll first tree with
      | (.ok (), next) => applyAll second next
      | (.error e, next) => (.error e, next) := by
  induction first generalizing tree with
  | nil => rfl
  | cons change rest ih =>
    rw [List.cons_append]
    cases applied : change.apply tree with
    | error cause => rw [applyAll_of_error applied, applyAll_of_error applied]
    | ok next => rw [applyAll_of_ok applied, applyAll_of_ok applied, ih]

theorem applyAll_cons_eq_ok : applyAll (change :: changes) tree = (.ok (), after) ↔
    ∃ next, change.apply tree = .ok next ∧ applyAll changes next = (.ok (), after) := by
  cases applied : change.apply tree with
  | error cause => simp [applyAll_of_error applied]
  | ok next => simp [applyAll_of_ok applied]

/-- The trees in which a sequence of changes may stop: its first changes are done. -/
def StopsIn (changes : List Change) (tree stopped : Tree) : Prop :=
  ∃ done, done <+: changes ∧ applyAll done tree = (.ok (), stopped)

/-- A change that fails is where a sequence of changes stops. -/
theorem stopsIn_applyAll (changes : List Change) (tree : Tree) :
    StopsIn changes tree (applyAll changes tree).2 := by
  induction changes generalizing tree with
  | nil => exact ⟨[], List.nil_prefix, rfl⟩
  | cons change rest ih =>
    cases applied : change.apply tree with
    | error cause =>
      rw [applyAll_of_error applied]
      exact ⟨[], List.nil_prefix, rfl⟩
    | ok next =>
      rw [applyAll_of_ok applied]
      obtain ⟨done, begun, ran⟩ := ih next
      exact ⟨change :: done, List.cons_prefix_cons.mpr ⟨rfl, begun⟩,
        applyAll_cons_eq_ok.mpr ⟨next, applied, ran⟩⟩

end Change

namespace Tree

variable {tree other next : Tree} {path : Path} {home location : Location}
  {name entry extension : String}

/-! ## Locating entries -/

theorem locate_dots (here : Location) (steps : List String) (dots : Nat) {rest : List String}
    (some : rest ≠ []) :
    tree.locate here (steps ++ List.replicate dots "." ++ rest) =
      tree.locate here (steps ++ rest) := by
  induction dots with
  | zero => rw [List.replicate_zero, List.append_nil]
  | succ dots ih =>
    have goesOn : List.replicate dots "." ++ rest ≠ [] := by simp [some]
    rw [List.append_assoc] at ih
    rw [List.append_assoc, List.replicate_succ, List.cons_append, locate_dot _ _ goesOn, ih]

theorem locate_of_resolve_join (h : IsFileName name)
    (resolved : tree.resolve (path.join name) = .ok location) :
    tree.locate (.start (Origin.ofPath path)) (path.names ++ [name]) = .ok location := by
  unfold resolve follow at resolved
  rw [Path.steps_join h, Path.ofPath_join h] at resolved
  split at resolved
  · cases resolved
  · exact resolved

theorem locate_of_resolve_addExtension (h : IsFileName name)
    (added : IsFileName (name ++ "." ++ extension))
    (resolved : tree.resolve ((path.join name).addExtension extension) = .ok location) :
    tree.locate (.start (Origin.ofPath path)) (path.names ++ [name ++ "." ++ extension]) =
      .ok location := by
  obtain ⟨directory, dots, same, names, origin⟩ := Path.exists_addExtension_join h extension
  rw [same] at resolved
  rw [names, locate_dots _ _ _ (List.cons_ne_nil _ _), ← origin]
  exact locate_of_resolve_join added resolved

theorem exists_enters_of_resolve (h : IsFileName name)
    (resolved : tree.resolve (path.join name) = .ok location) : ∃ home, tree.Enters path home :=
  exists_of_locate_append (locate_of_resolve_join h resolved)

theorem exists_enters_of_resolve_addExtension (h : IsFileName name)
    (added : IsFileName (name ++ "." ++ extension))
    (resolved : tree.resolve ((path.join name).addExtension extension) = .ok location) :
    ∃ home, tree.Enters path home :=
  exists_of_locate_append (locate_of_resolve_addExtension h added resolved)

theorem exists_enters_of_readText {text : String} (h : IsFileName name)
    (read : tree.readText (path.join name) = .ok text) : ∃ home, tree.Enters path home := by
  obtain ⟨entry, found, -⟩ := bind_eq_ok.mp read
  obtain ⟨location, resolved, -⟩ := bind_eq_ok.mp found
  exact exists_enters_of_resolve h resolved

theorem find?_ne_directory (resolved : tree.resolve path = .ok location)
    (plain : tree.isDirectory path = false) : tree.find? location ≠ some .directory := by
  intro found
  rw [isDirectory, entry, resolved, ok_bind, found] at plain
  cases plain

/-! ## What keeps directories -/

theorem KeepsDirectories.insert {content : Content}
    (plain : tree.find? location ≠ some .directory) :
    tree.KeepsDirectories (tree.insert location (.file content)) := by
  intro place found
  have apart : place ≠ location := by
    rintro rfl
    exact plain found
  rw [find?_insert_of_ne _ apart, found]

theorem KeepsDirectories.erase (plain : tree.find? location ≠ some .directory) :
    tree.KeepsDirectories (tree.erase location) := by
  intro place found
  have apart : place ≠ location := by
    rintro rfl
    exact plain found
  rw [find?_erase_of_ne _ apart, found]

theorem readText_of_find? {text : String} (resolved : tree.resolve path = .ok location)
    (found : tree.find? location = some (.file (.text text))) : tree.readText path = .ok text := by
  rw [readText, Tree.entry, resolved, ok_bind, found]
  rfl

theorem ne_addExtension (name extension : String) : name ≠ name ++ "." ++ extension := by
  intro same
  have sizes := congrArg String.utf8ByteSize same
  have dot : ".".utf8ByteSize = 1 := rfl
  rw [String.utf8ByteSize_append, String.utf8ByteSize_append, dot] at sizes
  omega

namespace Enters

theorem eq_child_of_locate (enters : tree.Enters path home) (h : IsFileName name)
    (located : tree.locate (.start (Origin.ofPath path)) (path.names ++ [name]) = .ok location) :
    location = home.child name := by
  rw [enters, locate_singleton h] at located
  split at located
  · cases located
  · cases located
    rfl

theorem locate_entry (enters : tree.Enters path home) :
    tree.locate (.start (Origin.ofPath path)) (path.names ++ ["x"]) = .ok (home.child "x") := by
  have isFileName : IsFileName "x" := ⟨by decide, by decide, by decide, by decide, by decide⟩
  rw [enters, locate_singleton isFileName]
  rfl

theorem unique {again : Location} (enters : tree.Enters path home)
    (entersAgain : other.Enters path again) : home = again :=
  congrArg Location.parent (locate_unique enters.locate_entry entersAgain.locate_entry)

theorem of_keepsDirectories (enters : tree.Enters path home)
    (keeps : tree.KeepsDirectories other) : other.Enters path home := by
  obtain ⟨again, entersAgain⟩ :=
    exists_of_locate_append (locate_of_keepsDirectories keeps enters.locate_entry)
  exact enters.unique entersAgain ▸ entersAgain

/-- Dots at the end of a path to a directory do not matter. -/
theorem of_dots (enters : tree.Enters path home) {directory : Path} {dots : Nat}
    (names : path.names = directory.names ++ List.replicate dots ".")
    (origin : Origin.ofPath directory = Origin.ofPath path) : tree.Enters directory home := by
  intro name rest
  rw [origin, ← enters, names, locate_dots _ _ _ (List.cons_ne_nil _ _)]

/-- Where an entry is does not depend on the files. -/
theorem resolve_join_eq (enters : tree.Enters path home) (entersOther : other.Enters path home)
    (h : IsFileName name) : other.resolve (path.join name) = tree.resolve (path.join name) := by
  unfold resolve follow
  rw [Path.steps_join h, Path.ofPath_join h, enters, entersOther, locate_singleton h,
    locate_singleton h]

theorem readText_join_eq (enters : tree.Enters path home) (entersOther : other.Enters path home)
    (h : IsFileName name) (same : other.find? (home.child name) = tree.find? (home.child name)) :
    other.readText (path.join name) = tree.readText (path.join name) := by
  have sameEntry : other.entry (path.join name) = tree.entry (path.join name) := by
    unfold entry
    rw [resolve_join_eq enters entersOther h]
    cases resolved : tree.resolve (path.join name) with
    | error cause => rfl
    | ok location =>
      rw [eq_child_of_locate enters h (locate_of_resolve_join h resolved), ok_bind, ok_bind, same]
  rw [readText, sameEntry]
  rfl

/-! ## Steps of a replacement -/

variable {text : String}

/-- A new file beside an entry is written, if at all, in the same directory. -/
theorem of_write (enters : tree.Enters path home) (h : IsFileName name)
    (added : IsFileName (name ++ "." ++ extension))
    (written : (Change.write ((path.join name).addExtension extension) text).apply tree =
      .ok next) :
    next = tree.insert (home.child (name ++ "." ++ extension)) (.file (.text text)) ∧
      next.Enters path home := by
  obtain ⟨location, resolved, written⟩ := bind_eq_ok.mp written
  have place := eq_child_of_locate enters added (locate_of_resolve_addExtension h added resolved)
  rw [place] at written
  split at written
  · cases written
  · next plain =>
    cases written
    exact ⟨rfl, of_keepsDirectories enters (.insert plain)⟩

/-- The new file takes the place of the entry. -/
theorem of_rename (enters : tree.Enters path home) (h : IsFileName name)
    (added : IsFileName (name ++ "." ++ extension))
    (found : tree.find? (home.child (name ++ "." ++ extension)) = some (.file (.text text)))
    (renamed : (Change.rename ((path.join name).addExtension extension) (path.join name)).apply
      tree = .ok next) :
    next = (tree.erase (home.child (name ++ "." ++ extension))).insert (home.child name)
        (.file (.text text)) ∧
      next.Enters path home ∧ tree.resolve (path.join name) = .ok (home.child name) := by
  obtain ⟨moved, present, renamed⟩ := bind_eq_ok.mp renamed
  obtain ⟨start, resolved, renamed⟩ := bind_eq_ok.mp renamed
  obtain ⟨goal, resolvedGoal, renamed⟩ := bind_eq_ok.mp renamed
  have place := eq_child_of_locate enters added (locate_of_resolve_addExtension h added resolved)
  have placeGoal := eq_child_of_locate enters h (locate_of_resolve_join h resolvedGoal)
  rw [Tree.entry, resolved, ok_bind, place, found] at present
  cases present
  rw [place, placeGoal] at renamed
  rw [placeGoal] at resolvedGoal
  split at renamed
  · cases renamed
  · next plain =>
    cases renamed
    have apart : home.child name ≠ home.child (name ++ "." ++ extension) := fun same =>
      ne_addExtension name extension (Location.child_inj.mp same)
    have isFile : tree.find? (home.child (name ++ "." ++ extension)) ≠ some .directory := by
      rw [found]
      rintro ⟨⟩
    have erased := of_keepsDirectories enters (.erase isFile)
    rw [← find?_erase_of_ne _ apart] at plain
    exact ⟨rfl, of_keepsDirectories erased (.insert plain), resolvedGoal⟩

/-- The new file beside an entry is not read yet. -/
theorem readText_of_write (enters : tree.Enters path home) (h : IsFileName name)
    (added : IsFileName (name ++ "." ++ extension))
    (written : (Change.write ((path.join name).addExtension extension) text).apply tree =
      .ok next) (hEntry : IsFileName entry) (apart : entry ≠ name ++ "." ++ extension) :
    next.readText (path.join entry) = tree.readText (path.join entry) := by
  obtain ⟨rfl, stillEnters⟩ := of_write enters h added written
  exact readText_join_eq enters stillEnters hEntry
    (find?_insert_of_ne _ (fun same => apart (Location.child_inj.mp same)) _)

/-- An entry that is replaced is read as the new text, and the others are read as before. -/
theorem readText_of_replacement (enters : tree.Enters path home) (h : IsFileName name)
    (added : IsFileName (name ++ "." ++ Table.temporaryExtension))
    (replaced : Change.applyAll (Table.replacement (path.join name) text) tree = (.ok (), next)) :
    next.Enters path home ∧ ∀ entry, IsFileName entry →
      entry ≠ name ++ "." ++ Table.temporaryExtension → next.readText (path.join entry) =
        if entry = name then .ok text else tree.readText (path.join entry) := by
  obtain ⟨between, written, replaced⟩ := Change.applyAll_cons_eq_ok.mp replaced
  obtain ⟨after, renamed, replaced⟩ := Change.applyAll_cons_eq_ok.mp replaced
  cases replaced
  obtain ⟨place, entersBetween⟩ := of_write enters h added written
  have found : between.find? (home.child _) = some (.file (.text text)) :=
    place ▸ find?_insert_self tree (List.cons_ne_nil _ _) _
  obtain ⟨rfl, entersNext, resolved⟩ := of_rename entersBetween h added found renamed
  refine ⟨entersNext, fun entry hEntry apart => ?_⟩
  split
  · next same =>
    subst same
    rw [← resolve_join_eq entersBetween entersNext h] at resolved
    exact readText_of_find? resolved (find?_insert_self _ (List.cons_ne_nil _ _) _)
  · next other =>
    rw [← readText_of_write enters h added written hEntry apart]
    refine readText_join_eq entersBetween entersNext hEntry ?_
    rw [find?_insert_of_ne _ fun same => other (Location.child_inj.mp same),
      find?_erase_of_ne _ fun same => apart (Location.child_inj.mp same)]

/-! ## Replacements that succeed -/

theorem resolve_join (enters : tree.Enters path home) (h : IsFileName name)
    (valid : (path.join name).fault? = none) (short : name.utf8ByteSize ≤ nameLimit) :
    tree.resolve (path.join name) = .ok (home.child name) := by
  rw [resolve, follow, valid]
  dsimp only
  rw [Path.steps_join h, Path.ofPath_join h, enters, locate_singleton h,
    if_neg (Nat.not_lt.mpr short)]

theorem resolve_addExtension (enters : tree.Enters path home) (h : IsFileName name)
    (added : IsFileName (name ++ "." ++ extension))
    (valid : ((path.join name).addExtension extension).fault? = none)
    (short : (name ++ "." ++ extension).utf8ByteSize ≤ nameLimit) :
    tree.resolve ((path.join name).addExtension extension) =
      .ok (home.child (name ++ "." ++ extension)) := by
  obtain ⟨directory, dots, same, names, origin⟩ :=
    @Path.exists_addExtension_join path name h extension
  rw [same] at valid ⊢
  exact (enters.of_dots names origin).resolve_join added valid short

/-- Where an entry can be replaced, it then is a file with the new text, the new file has gone from
beside it, and the other entries are as before. -/
theorem exists_replacement (enters : tree.Enters path home) (h : IsFileName name)
    (added : IsFileName (name ++ "." ++ Table.temporaryExtension))
    (valid : (path.join name).fault? = none)
    (validBeside : ((path.join name).addExtension Table.temporaryExtension).fault? = none)
    (short : (name ++ "." ++ Table.temporaryExtension).utf8ByteSize ≤ nameLimit)
    (plain : tree.find? (home.child name) ≠ some .directory)
    (plainBeside : tree.find? (home.child (name ++ "." ++ Table.temporaryExtension)) ≠
      some .directory) (text : String) :
    ∃ next, Change.applyAll (Table.replacement (path.join name) text) tree = (.ok (), next) ∧
      next.Enters path home ∧ ∀ entry, next.find? (home.child entry) =
        if entry = name then some (.file (.text text))
        else if entry = name ++ "." ++ Table.temporaryExtension then none
        else tree.find? (home.child entry) := by
  have shortName : name.utf8ByteSize ≤ nameLimit := by
    rw [String.utf8ByteSize_append, String.utf8ByteSize_append] at short
    omega
  have apart : home.child name ≠ home.child (name ++ "." ++ Table.temporaryExtension) := fun same =>
    ne_addExtension name _ (Location.child_inj.mp same)
  have written := write_of_resolve (enters.resolve_addExtension h added validBeside short)
    plainBeside text
  have entersBetween := (enters.of_write h added written).2
  have found := @find?_insert_self tree (home.child (name ++ "." ++ Table.temporaryExtension))
    (List.cons_ne_nil _ _) (.file (.text text))
  have stillPlain : (tree.insert (home.child (name ++ "." ++ Table.temporaryExtension))
      (.file (.text text))).find? (home.child name) ≠ some .directory := by
    rwa [find?_insert_of_ne _ apart]
  have renamed := rename_of_resolve (entersBetween.resolve_addExtension h added validBeside short)
    found (entersBetween.resolve_join h valid shortName) stillPlain
  refine ⟨_, Change.applyAll_cons_eq_ok.mpr ⟨_, written, Change.applyAll_cons_eq_ok.mpr
    ⟨_, renamed, rfl⟩⟩, (entersBetween.of_rename h added found renamed).2.1, fun entry => ?_⟩
  split
  · next same =>
    rw [same, find?_insert_self _ (List.cons_ne_nil _ _)]
  · next other =>
    rw [find?_insert_of_ne _ fun same => other (Location.child_inj.mp same)]
    split
    · next same => rw [same, find?_erase_self _ (List.cons_ne_nil _ _)]
    · next elsewhere =>
      have away : home.child entry ≠ home.child (name ++ "." ++ Table.temporaryExtension) :=
        fun same => elsewhere (Location.child_inj.mp same)
      rw [find?_erase_of_ne _ away, find?_insert_of_ne _ away]

end Enters

end Tree

end TabStore
