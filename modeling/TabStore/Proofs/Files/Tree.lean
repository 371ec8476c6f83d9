import TabStore.Proofs.Files.Path
import TabStore.Proofs.Result

/-!
# Trees below a directory

What paths lead to below one directory of a tree.

Results:
1. `leadsTo_of_isEmptyAt`: a path to an empty directory leads there in every tree that differs only
   below it;
2. `LeadsTo.resolve_join`, `LeadsTo.child`: an entry of the directory is found under its name, and
   an entry that is a directory leads on;
3. `locate_of_keepsDirectories`, `locate_unique`: steps lead where they led in every tree that keeps
   the directories, and in no tree do they lead to another place.
-/

namespace TabStore

namespace Location

/-- Whether a location lies strictly below another one. -/
def IsAbove (home location : Location) : Prop :=
  home.origin = location.origin ∧ ∃ name rest, location.names = name :: (rest ++ home.names)

variable {home location : Location} {name : String}

theorem isAbove_child : home.IsAbove (home.child name) := ⟨rfl, name, [], rfl⟩

theorem IsAbove.child (h : home.IsAbove location) : home.IsAbove (location.child name) := by
  obtain ⟨origin, first, rest, same⟩ := h
  exact ⟨origin, name, first :: rest, by rw [names_child, same]; rfl⟩

theorem IsAbove.of_child (h : (home.child name).IsAbove location) : home.IsAbove location := by
  obtain ⟨origin, first, rest, same⟩ := h
  exact ⟨origin, first, rest ++ [name], by rw [same, names_child, List.append_assoc]; rfl⟩

theorem not_isAbove_self (home : Location) : ¬ home.IsAbove home := by
  rintro ⟨-, name, rest, same⟩
  have lengths := congrArg List.length same
  rw [List.length_cons, List.length_append] at lengths
  omega

theorem IsAbove.names_ne_nil (h : home.IsAbove location) : location.names ≠ [] := by
  obtain ⟨-, name, rest, same⟩ := h
  rw [same]
  exact List.cons_ne_nil _ _

theorem child_inj {other : String} : home.child name = home.child other ↔ name = other := by
  simp [child]

theorem child_ne_self : home.child name ≠ home := by
  intro same
  have lengths := congrArg (List.length ∘ Location.names) same
  simp [child] at lengths

end Location

namespace Tree

open Location (IsAbove)

variable {tree other : Tree} {path : Path} {home location : Location} {name : String}

/-- Every directory of a tree is one of another tree. -/
def KeepsDirectories (tree other : Tree) : Prop :=
  ∀ location, tree.find? location = some .directory → other.find? location = some .directory

/-- Two trees have the same entries, except below a directory. -/
def AgreesOutside (home : Location) (tree other : Tree) : Prop :=
  ∀ location, ¬ home.IsAbove location → other.find? location = tree.find? location

theorem AgreesOutside.refl (home : Location) (tree : Tree) : tree.AgreesOutside home tree :=
  fun _ _ => rfl

/-- A path leads to a directory in which there is nothing yet. -/
def IsEmptyAt (tree : Tree) (path : Path) : Prop :=
  ∃ home, tree.resolve path = .ok home ∧ tree.find? home = some .directory ∧
    ∀ entry ∈ tree.entries, ¬ home.IsAbove entry.1

/-- Steps that go on behind a path are taken from `home`. -/
def Enters (tree : Tree) (path : Path) (home : Location) : Prop :=
  ∀ name rest, tree.locate (.start (Origin.ofPath path)) (path.names ++ name :: rest) =
    tree.locate home (name :: rest)

/-- Steps that go on behind a path, which is a path indeed, are taken from `home`. -/
structure LeadsTo (tree : Tree) (path : Path) (home : Location) : Prop where
  valid : path.fault? = none
  goesOn : ∀ name rest, tree.locate (.start (Origin.ofPath path)) (path.names ++ name :: rest) =
    tree.locate home (name :: rest)

/-- An entry that is there already is set in its place. -/
theorem insert_of_find? (inside : location.names ≠ []) {entry : Entry}
    (found : tree.find? location = some entry) : tree.insert location entry = tree := by
  rw [find?, if_neg inside] at found
  obtain ⟨entries⟩ := tree
  refine congrArg mk ?_
  dsimp only at found ⊢
  induction entries with
  | nil => cases found
  | cons head rest ih =>
    rw [lookup_cons_eq_ite] at found
    by_cases here : location = head.1
    · rw [if_pos here, Option.some.injEq] at found
      rw [put, if_pos here.symm, here, ← found]
    · rw [if_neg here] at found
      rw [put, if_neg (Ne.symm here), ih found]

/-! ## Steps -/

theorem locate_append {here : Location} {steps : List String}
    (h : tree.locate here steps = .ok home) (directory : tree.find? home = some .directory)
    (rest : List String) : tree.locate here (steps ++ rest) = tree.locate home rest := by
  -- The last step may lead to anything that is there; to go on, it must be a directory.
  induction steps generalizing here with
  | nil =>
    cases h
    rfl
  | cons step more ih =>
    rw [locate] at h
    rw [List.cons_append]
    split at h
    · next dot =>
      rw [locate, if_pos dot]
      exact ih h
    · next notDot =>
      split at h
      · next dots =>
        rw [locate, if_neg notDot, if_pos dots]
        exact ih h
      · next notDots =>
        split at h
        · cases h
        · next short =>
          rw [locate, if_neg notDot, if_neg notDots, if_neg short]
          split at h
          · next last =>
            cases h
            rw [List.isEmpty_iff] at last
            subst last
            rw [List.nil_append]
            cases rest with
            | nil => rfl
            | cons next later => rw [directory]; rfl
          · next goesOn =>
            have some : ¬ (more ++ rest).isEmpty = true := by
              intro empty
              rw [List.isEmpty_iff, List.append_eq_nil_iff] at empty
              exact goesOn (List.isEmpty_iff.mpr empty.1)
            rw [if_neg some]
            split at h
            · cases h
            · cases h
            · exact ih h

theorem locate_singleton (h : IsFileName name) (here : Location) : tree.locate here [name] =
    if nameLimit < name.utf8ByteSize then .error .nameTooLong else .ok (here.child name) := by
  rw [locate, if_neg h.ne_dot, if_neg h.ne_dots]
  rfl

/-- A dot on the way changes nothing. -/
theorem locate_dot (here : Location) (steps : List String) {rest : List String} (some : rest ≠ []) :
    tree.locate here (steps ++ "." :: rest) = tree.locate here (steps ++ rest) := by
  induction steps generalizing here with
  | nil => rw [List.nil_append, List.nil_append, locate, if_pos rfl]
  | cons step more ih =>
    have left : (more ++ "." :: rest).isEmpty = false := by simp
    have right : (more ++ rest).isEmpty = false := by simp [some]
    rw [List.cons_append, List.cons_append, locate, locate, left, right, ih here, ih here.parent,
      ih (here.child step)]

/-- Steps lead to the same place in a tree that has the same directories and maybe more. -/
theorem locate_of_keepsDirectories (keeps : tree.KeepsDirectories other) {here : Location}
    {steps : List String} (h : tree.locate here steps = .ok location) :
    other.locate here steps = .ok location := by
  induction steps generalizing here with
  | nil =>
    cases h
    rfl
  | cons step more ih =>
    rw [locate] at h ⊢
    split at h
    · next dot =>
      rw [if_pos dot]
      exact ih h
    · next notDot =>
      rw [if_neg notDot]
      split at h
      · next dots =>
        rw [if_pos dots]
        exact ih h
      · next notDots =>
        rw [if_neg notDots]
        split at h
        · cases h
        · next short =>
          rw [if_neg short]
          split at h
          · next last =>
            rw [if_pos last]
            exact h
          · next goesOn =>
            rw [if_neg goesOn]
            split at h
            · cases h
            · cases h
            · next found =>
              rw [keeps _ found]
              exact ih h

/-- What leads on through a directory leads to its other entries as well. -/
theorem exists_of_locate_append {here : Location} {steps more : List String}
    (h : tree.locate here (steps ++ name :: more) = .ok location) :
    ∃ home, ∀ next rest,
      tree.locate here (steps ++ next :: rest) = tree.locate home (next :: rest) := by
  induction steps generalizing here with
  | nil => exact ⟨here, fun _ _ => rfl⟩
  | cons step later ih =>
    have goesOn : ∀ next rest, (later ++ next :: rest : List String).isEmpty = false := by simp
    rw [List.cons_append, locate, goesOn] at h
    split at h
    · next dot =>
      obtain ⟨home, same⟩ := ih h
      exact ⟨home, fun next rest => by rw [List.cons_append, locate, if_pos dot, same]⟩
    · next notDot =>
      split at h
      · next dots =>
        obtain ⟨home, same⟩ := ih h
        refine ⟨home, fun next rest => ?_⟩
        rw [List.cons_append, locate, if_neg notDot, if_pos dots, same]
      · next notDots =>
        split at h
        · cases h
        · next short =>
          rw [if_neg Bool.false_ne_true] at h
          split at h
          · cases h
          · cases h
          · next found =>
            obtain ⟨home, same⟩ := ih h
            refine ⟨home, fun next rest => ?_⟩
            rw [List.cons_append, locate, if_neg notDot, if_neg notDots, if_neg short, goesOn,
              if_neg Bool.false_ne_true, found]
            exact same next rest

/-- A directory is where steps behind its path go on. -/
theorem enters_of_resolve (resolved : tree.resolve path = .ok home)
    (directory : tree.find? home = some .directory) : tree.Enters path home := by
  unfold resolve follow at resolved
  split at resolved
  · cases resolved
  · intro name rest
    have goesOn := locate_append resolved directory (name :: rest)
    rw [Path.steps] at goesOn
    split at goesOn
    · rw [List.append_assoc] at goesOn
      rw [← goesOn]
      exact (locate_dot _ _ (List.cons_ne_nil _ _)).symm
    · exact goesOn

/-- Where steps lead, if they lead anywhere, is the same in all trees. -/
theorem locate_unique {here again : Location} {steps : List String}
    (h : tree.locate here steps = .ok location) (h' : other.locate here steps = .ok again) :
    location = again := by
  induction steps generalizing here with
  | nil =>
    cases h
    cases h'
    rfl
  | cons step more ih =>
    rw [locate] at h h'
    split at h
    · next dot =>
      rw [if_pos dot] at h'
      exact ih h h'
    · next notDot =>
      rw [if_neg notDot] at h'
      split at h
      · next dots =>
        rw [if_pos dots] at h'
        exact ih h h'
      · next notDots =>
        rw [if_neg notDots] at h'
        split at h
        · cases h
        · next short =>
          rw [if_neg short] at h'
          split at h
          · next last =>
            rw [if_pos last] at h'
            cases h
            cases h'
            rfl
          · next goesOn =>
            rw [if_neg goesOn] at h'
            split at h
            · cases h
            · cases h
            · split at h'
              · cases h'
              · cases h'
              · exact ih h h'

theorem find?_eq_none_of_not_mem (inside : location.names ≠ [])
    (h : ∀ entry ∈ tree.entries, entry.1 ≠ location) : tree.find? location = none := by
  rw [find?, if_neg inside, List.lookup_eq_none_iff]
  intro entry mem
  exact bne_iff_ne.mpr (Ne.symm (h entry mem))

/-- A path to an empty directory leads there in every tree that differs only below it. -/
theorem leadsTo_of_isEmptyAt (h : tree.IsEmptyAt path) :
    ∃ home, (∀ entry ∈ tree.entries, ¬ home.IsAbove entry.1) ∧
      ∀ other, tree.AgreesOutside home other →
        other.LeadsTo path home ∧ other.resolve path = .ok home ∧
          other.find? home = some .directory := by
  obtain ⟨home, resolved, directory, empty⟩ := h
  refine ⟨home, empty, fun other agrees => ?_⟩
  unfold resolve follow at resolved
  split at resolved
  · cases resolved
  · next valid =>
    have nothing : ∀ location, home.IsAbove location → tree.find? location = none := by
      intro location below
      refine find?_eq_none_of_not_mem below.names_ne_nil fun entry mem same => ?_
      exact empty entry mem (same ▸ below)
    -- A directory is not below the empty one, so it is seen outside.
    have keeps : tree.KeepsDirectories other := by
      intro location found
      have outside : ¬ home.IsAbove location := by
        intro below
        rw [nothing _ below] at found
        cases found
      rw [agrees _ outside, found]
    have stillDirectory := keeps home directory
    have stillResolved : other.resolve path = .ok home := by
      rw [resolve, follow, valid]
      exact locate_of_keepsDirectories keeps resolved
    exact ⟨⟨valid, enters_of_resolve stillResolved stillDirectory⟩, stillResolved, stillDirectory⟩

/-! ## Entries of a directory -/

/-- An entry whose path and name are short enough. -/
def EntryFits (path : Path) (name : String) : Prop :=
  (path.join name).text.utf8ByteSize ≤ Path.lengthLimit ∧ name.utf8ByteSize ≤ nameLimit

instance (path : Path) (name : String) : Decidable (EntryFits path name) :=
  inferInstanceAs (Decidable (_ ∧ _))

namespace LeadsTo

variable {isFileName : IsFileName name}

theorem follow_join (leads : tree.LeadsTo path home) (h : IsFileName name) :
    tree.follow (path.join name) (path.names ++ [name]) =
      if EntryFits path name then .ok (home.child name) else .error .nameTooLong := by
  rw [follow, Path.fault?_join h leads.valid]
  split
  · next long =>
    split at long
    · next tooLong =>
      cases long
      rw [if_neg fun fits => absurd fits.1 (Nat.not_le.mpr tooLong)]
    · cases long
  · next valid =>
    split at valid
    · cases valid
    · next short =>
      rw [Path.ofPath_join h, leads.goesOn, locate_singleton h]
      split
      · next long => rw [if_neg fun fits => absurd fits.2 (Nat.not_le.mpr long)]
      · next shortName => exact (if_pos ⟨Nat.not_lt.mp short, Nat.not_lt.mp shortName⟩).symm

theorem resolve_join (leads : tree.LeadsTo path home) (h : IsFileName name) :
    tree.resolve (path.join name) =
      if EntryFits path name then .ok (home.child name) else .error .nameTooLong := by
  rw [resolve, Path.steps_join h, leads.follow_join h]

theorem resolveNew_join (leads : tree.LeadsTo path home) (h : IsFileName name) :
    tree.resolveNew (path.join name) =
      if EntryFits path name then .ok (home.child name) else .error .nameTooLong := by
  rw [resolveNew, Path.names_join h, leads.follow_join h]

/-- A path goes on through an entry that is a directory. -/
theorem child (leads : tree.LeadsTo path home) (h : IsFileName name) (fits : EntryFits path name)
    (directory : tree.find? (home.child name) = some .directory) :
    tree.LeadsTo (path.join name) (home.child name) where
  valid := by
    rw [Path.fault?_join h leads.valid, if_neg (Nat.not_lt.mpr fits.1)]
  goesOn := by
    intro next rest
    rw [Path.ofPath_join h, Path.names_join h, List.append_assoc, List.singleton_append,
      leads.goesOn, locate, if_neg h.ne_dot, if_neg h.ne_dots, if_neg (Nat.not_lt.mpr fits.2),
      if_neg (by simp), directory]

theorem entry_join (leads : tree.LeadsTo path home) (h : IsFileName name)
    (fits : EntryFits path name) : tree.entry (path.join name) =
      match tree.find? (home.child name) with
      | some entry => .ok entry
      | none => .error .notFound := by
  rw [entry, leads.resolve_join h, if_pos fits]
  rfl

theorem entry_join_of_not_fits (leads : tree.LeadsTo path home) (h : IsFileName name)
    (long : ¬ EntryFits path name) : tree.entry (path.join name) = .error .nameTooLong := by
  rw [entry, leads.resolve_join h, if_neg long]
  rfl

theorem contains_join (leads : tree.LeadsTo path home) (h : IsFileName name)
    (fits : EntryFits path name) :
    tree.contains (path.join name) = (tree.find? (home.child name)).isSome := by
  rw [contains, leads.entry_join h fits]
  cases tree.find? (home.child name) with
  | none => rfl
  | some entry => rfl

theorem readText_join (leads : tree.LeadsTo path home) (h : IsFileName name)
    (fits : EntryFits path name) {text : String}
    (found : tree.find? (home.child name) = some (.file (.text text))) :
    tree.readText (path.join name) = .ok text := by
  rw [readText, leads.entry_join h fits, found]
  rfl

end LeadsTo

end Tree

end TabStore
