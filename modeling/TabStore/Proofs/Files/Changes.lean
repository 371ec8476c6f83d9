import TabStore.Proofs.Files.Tree

/-!
# Changes of a tree

What the changes of a tree do to the entries below a directory.

Results:
1. `find?_eraseBelow`, `eraseBelow_clear`, `erase_insert`: what is left when entries are erased;
2. `AgreesOutside.insert`, `AgreesOutside.erase`, `AgreesOutside.clear`, `AgreesOutside.eraseBelow`:
   what changes below a directory is not seen outside;
3. `LeadsTo.write_join`, `LeadsTo.rename_join`, `LeadsTo.remove_join`, `LeadsTo.makeDirectory_join`,
   `LeadsTo.removeDirectory_join`: changes of one entry of a directory;
4. `makeDirectories_mk`, `isEmptyAt_ofDirectory`: a root that is made is empty.
-/

namespace TabStore.Tree

open Location (IsAbove)

variable {tree other : Tree} {path : Path} {home location : Location} {name : String}

theorem covers_iff : home.covers location = true ↔
    home.origin = location.origin ∧ ∃ rest, location.names = rest ++ home.names := by
  rw [Location.covers, Bool.and_eq_true, beq_iff_eq, List.isSuffixOf_iff_suffix]
  constructor
  · rintro ⟨origin, rest, same⟩
    exact ⟨origin, rest, same.symm⟩
  · rintro ⟨origin, rest, same⟩
    exact ⟨origin, rest, same.symm⟩

/-- Where a filter keeps an entry depends on its location only. -/
theorem find?_filter {p : Location → Bool} (inside : location.names ≠ []) :
    (Tree.mk (tree.entries.filter fun entry => p entry.1)).find? location =
      if p location = true then tree.find? location else none := by
  simp only [find?, if_neg inside]
  induction tree.entries with
  | nil => simp
  | cons head rest ih =>
    by_cases kept : p head.1 = true
    · rw [List.filter_cons, if_pos kept, lookup_cons_eq_ite, ih, lookup_cons_eq_ite]
      by_cases same : location = head.1
      · rw [same, if_pos rfl, if_pos rfl, if_pos kept]
      · rw [if_neg same, if_neg same]
    · rw [List.filter_cons, if_neg kept, ih, lookup_cons_eq_ite]
      by_cases same : location = head.1
      · rw [same, if_neg kept, if_neg kept]
      · rw [if_neg same]

theorem find?_eraseBelow (inside : location.names ≠ []) : (tree.eraseBelow home).find? location =
    if home.covers location then none else tree.find? location := by
  have kept := @find?_filter tree location (fun other => !home.covers other) inside
  rw [eraseBelow, kept]
  cases home.covers location with
  | true => rfl
  | false => rfl

theorem isAbove_of_covers {inner : Location} (h : home.IsAbove inner)
    (covers : inner.covers location = true) : home.IsAbove location := by
  obtain ⟨origin, name, rest, same⟩ := h
  obtain ⟨sameOrigin, front, names⟩ := covers_iff.mp covers
  refine ⟨origin.trans sameOrigin, ?_⟩
  rw [names, same]
  cases front with
  | nil => exact ⟨name, rest, rfl⟩
  | cons first more => exact ⟨first, more ++ name :: rest, by simp⟩

theorem find?_clear_self : (tree.clear home).find? home = tree.find? home := by
  by_cases inside : home.names = []
  · rw [find?, find?, if_pos inside, if_pos inside]
  · have kept := @find?_filter tree home (fun other => !(home.covers other && home != other)) inside
    rw [clear, kept]
    simp

theorem eraseBelow_clear : (tree.clear home).eraseBelow home = tree.eraseBelow home := by
  unfold eraseBelow clear
  rw [List.filter_filter]
  congr 2
  funext entry
  cases home.covers entry.1 with
  | true => rfl
  | false => rfl

/-! ## What is not seen outside -/

theorem AgreesOutside.insert (h : tree.AgreesOutside home other) (below : home.IsAbove location)
    (entry : Entry) : tree.AgreesOutside home (other.insert location entry) := by
  intro place outside
  have apart : place ≠ location := fun same => outside (same ▸ below)
  rw [find?_insert_of_ne _ apart, h place outside]

theorem AgreesOutside.erase (h : tree.AgreesOutside home other) (below : home.IsAbove location) :
    tree.AgreesOutside home (other.erase location) := by
  intro place outside
  have apart : place ≠ location := fun same => outside (same ▸ below)
  rw [find?_erase_of_ne _ apart, h place outside]

theorem AgreesOutside.filter {p : Location → Bool} (h : tree.AgreesOutside home other)
    (keeps : ∀ place, ¬ home.IsAbove place → p place = true) :
    tree.AgreesOutside home ⟨other.entries.filter fun entry => p entry.1⟩ := by
  intro place outside
  rw [← h place outside]
  by_cases inside : place.names = []
  · rw [find?, find?, if_pos inside, if_pos inside]
  · rw [find?_filter inside, if_pos (keeps place outside)]

theorem AgreesOutside.eraseBelow (h : tree.AgreesOutside home other)
    (below : home.IsAbove location) : tree.AgreesOutside home (other.eraseBelow location) := by
  refine AgreesOutside.filter h (p := fun place => !location.covers place) fun place outside => ?_
  rw [Bool.not_eq_true', Bool.eq_false_iff]
  exact fun covers => outside (isAbove_of_covers below covers)

theorem AgreesOutside.clear (h : tree.AgreesOutside home other) (below : home.IsAbove location) :
    tree.AgreesOutside home (other.clear location) := by
  refine AgreesOutside.filter h (p := fun place => !(location.covers place && location != place))
    fun place outside => ?_
  rw [Bool.not_eq_true', Bool.eq_false_iff, Ne, Bool.and_eq_true]
  exact fun covers => outside (isAbove_of_covers below covers.1)

/-! ## Inserting and erasing -/

theorem mem_insert {entry : Entry} {other : Location × Entry}
    (h : other ∈ (tree.insert location entry).entries) :
    other.1 = location ∨ other ∈ tree.entries := by
  have put_mem : ∀ entries, other ∈ put location entry entries →
      other.1 = location ∨ other ∈ entries := by
    intro entries
    induction entries with
    | nil =>
      intro mem
      exact .inl (by rw [List.mem_singleton.mp mem])
    | cons head rest ih =>
      intro mem
      rw [put] at mem
      split at mem
      · rcases List.mem_cons.mp mem with rfl | old
        · exact .inl rfl
        · exact .inr (List.mem_cons_of_mem head old)
      · rcases List.mem_cons.mp mem with rfl | later
        · exact .inr List.mem_cons_self
        · rcases ih later with new | old
          · exact .inl new
          · exact .inr (List.mem_cons_of_mem head old)
  exact put_mem tree.entries h

theorem erase_of_not_mem (h : ∀ entry ∈ tree.entries, entry.1 ≠ location) :
    tree.erase location = tree := by
  rw [erase, List.filter_eq_self.mpr fun entry mem => by simpa using h entry mem]

theorem erase_insert (entry : Entry) :
    (tree.insert location entry).erase location = tree.erase location := by
  have same : ∀ entries, (put location entry entries).filter (·.1 ≠ location) =
      entries.filter (·.1 ≠ location) := by
    intro entries
    induction entries with
    | nil => simp [put]
    | cons head rest ih =>
      rw [put]
      split
      · next here => simp [here]
      · next apart => rw [List.filter_cons, List.filter_cons, ih]
  rw [erase, erase, insert, same]

/-! ## Changes of entries -/

theorem write_of_resolve (resolved : tree.resolve path = .ok location)
    (plain : tree.find? location ≠ some .directory) (text : String) :
    (Change.write path text).apply tree = .ok (tree.insert location (.file (.text text))) := by
  show tree.write _ _ = _
  rw [write, resolved, ok_bind]
  split
  · next found => exact absurd found plain
  · rfl

theorem rename_of_resolve {source target : Path} {start goal : Location} {moved : Entry}
    (resolved : tree.resolve source = .ok start) (found : tree.find? start = some moved)
    (resolvedTarget : tree.resolve target = .ok goal)
    (plain : tree.find? goal ≠ some .directory) :
    (Change.rename source target).apply tree = .ok ((tree.erase start).insert goal moved) := by
  have present : tree.entry source = .ok moved := by
    rw [entry, resolved, ok_bind, found]
  show (tree.entry source >>= _) = _
  rw [present, ok_bind, resolved, ok_bind, resolvedTarget, ok_bind]
  split
  · next found => exact absurd found plain
  · rfl

namespace LeadsTo

variable {target : String} {moved : Entry} {content : Content}

theorem write_join (leads : tree.LeadsTo path home) (h : IsFileName name)
    (fits : EntryFits path name)
    (plain : tree.find? (home.child name) ≠ some .directory) (text : String) :
    (Change.write (path.join name) text).apply tree =
      .ok (tree.insert (home.child name) (.file (.text text))) :=
  write_of_resolve ((leads.resolve_join h).trans (if_pos fits)) plain text

theorem write_join_of_not_fits (leads : tree.LeadsTo path home) (h : IsFileName name)
    (long : ¬ EntryFits path name) (text : String) :
    (Change.write (path.join name) text).apply tree = .error .nameTooLong := by
  show tree.write _ _ = _
  rw [write, leads.resolve_join h, if_neg long]
  rfl

theorem rename_join (leads : tree.LeadsTo path home) (h : IsFileName name)
    (hTarget : IsFileName target) (fits : EntryFits path name) (fitsTarget : EntryFits path target)
    (found : tree.find? (home.child name) = some moved)
    (plain : tree.find? (home.child target) ≠ some .directory) :
    (Change.rename (path.join name) (path.join target)).apply tree =
      .ok ((tree.erase (home.child name)).insert (home.child target) moved) :=
  rename_of_resolve ((leads.resolve_join h).trans (if_pos fits)) found
    ((leads.resolve_join hTarget).trans (if_pos fitsTarget)) plain

theorem remove_join (leads : tree.LeadsTo path home) (h : IsFileName name)
    (fits : EntryFits path name)
    (found : tree.find? (home.child name) = some (.file content)) :
    (Change.remove (path.join name)).apply tree = .ok (tree.erase (home.child name)) := by
  show (tree.entry (path.join name) >>= _) = _
  rw [leads.entry_join h fits, found]
  show (tree.resolve (path.join name) >>= _) = _
  rw [leads.resolve_join h, if_pos fits]
  rfl

theorem makeDirectory_join (leads : tree.LeadsTo path home) (h : IsFileName name)
    (fits : EntryFits path name) (free : tree.find? (home.child name) = none) :
    (Change.makeDirectory (path.join name)).apply tree =
      .ok (tree.insert (home.child name) .directory) := by
  show (tree.resolveNew (path.join name) >>= _) = _
  rw [leads.resolveNew_join h, if_pos fits, ok_bind, free]

theorem makeDirectory_join_of_not_fits (leads : tree.LeadsTo path home) (h : IsFileName name)
    (long : ¬ EntryFits path name) :
    (Change.makeDirectory (path.join name)).apply tree = .error .nameTooLong := by
  show (tree.resolveNew (path.join name) >>= _) = _
  rw [leads.resolveNew_join h, if_neg long]
  rfl

theorem clearDirectory_join (leads : tree.LeadsTo path home) (h : IsFileName name)
    (fits : EntryFits path name) (found : tree.find? (home.child name) = some .directory) :
    (Change.clearDirectory (path.join name)).apply tree = .ok (tree.clear (home.child name)) := by
  show (tree.entry (path.join name) >>= _) = _
  rw [leads.entry_join h fits, found]
  show (tree.resolve (path.join name) >>= _) = _
  rw [leads.resolve_join h, if_pos fits]
  rfl

theorem removeDirectory_join (leads : tree.LeadsTo path home) (h : IsFileName name)
    (fits : EntryFits path name) (found : tree.find? (home.child name) = some .directory) :
    (Change.removeDirectory (path.join name)).apply tree =
      .ok (tree.eraseBelow (home.child name)) := by
  rw [Change.apply, leads.entry_join h fits, found]
  dsimp only
  rw [Path.endsInDot_join h, leads.resolve_join h, if_pos fits]
  rfl

end LeadsTo

/-! ## A new root -/

/-- The tree with one directory and nothing else. -/
def ofDirectory (name : String) : Tree := ⟨[(Location.workingDirectory.child name, .directory)]⟩

theorem resolve_mk (h : IsFileName name) (short : name.utf8ByteSize ≤ nameLimit) :
    tree.resolve ⟨name⟩ = .ok (Location.workingDirectory.child name) := by
  have valid := Path.fault?_mk h (Nat.le_trans short (by decide))
  rw [resolve, follow, valid, Path.steps_mk h, Path.ofPath_mk h]
  exact (locate_singleton h _).trans (if_neg (Nat.not_lt.mpr short))

theorem isEmptyAt_ofDirectory (h : IsFileName name) (short : name.utf8ByteSize ≤ nameLimit) :
    (ofDirectory name).IsEmptyAt ⟨name⟩ := by
  refine ⟨_, resolve_mk h short, ?_, fun entry mem => ?_⟩
  · exact find?_insert_self empty (List.cons_ne_nil _ _) .directory
  · rw [List.mem_singleton.mp mem]
    exact Location.not_isAbove_self _

/-- A directory that is missing is made, with nothing in it. -/
theorem makeDirectories_mk (h : IsFileName name) (short : name.utf8ByteSize ≤ nameLimit) :
    empty.makeDirectories ⟨name⟩ = (.ok (), ofDirectory name) := by
  have valid := Path.fault?_mk h (Nat.le_trans short (by decide))
  have missing : ∀ location : Location, location.names ≠ [] → empty.find? location = none :=
    fun _ inside => if_neg inside
  have absent : empty.isDirectory ⟨name⟩ = false := by
    rw [isDirectory, entry, resolve_mk h short, ok_bind, missing _ (List.cons_ne_nil _ _)]
  have noDot : (Path.mk name).endsInDot = false := by
    rw [Path.endsInDot, Path.names_mk h]
    simpa using h.ne_dot
  rw [makeDirectories, absent, if_neg (by decide), valid]
  dsimp only
  rw [noDot, if_neg (by decide), Path.names_mk h, Path.ofPath_mk h, makeSteps, if_neg h.ne_dot,
    if_neg h.ne_dots, if_neg (Nat.not_lt.mpr short), missing _ (List.cons_ne_nil _ _)]
  rfl

end TabStore.Tree
