import TabStore.Proofs.Files.Changes

/-!
# Listings

A listing of a directory has each of its entries once.

Results: `mem_children`, `nodup_children`.
-/

namespace TabStore.Tree

variable {tree : Tree} {path : Path} {home location : Location} {name : String}

/-- No location below a directory has two entries. -/
def DistinctBelow (home : Location) (tree : Tree) : Prop :=
  tree.entries.Pairwise fun a b => home.IsAbove a.1 → a.1 ≠ b.1

theorem DistinctBelow.of_isAbove {inner : Location} (h : DistinctBelow home tree)
    (above : ∀ location, inner.IsAbove location → home.IsAbove location) :
    DistinctBelow inner tree :=
  List.Pairwise.imp (fun distinct below => distinct (above _ below)) h

theorem DistinctBelow.filter {p : Location × Entry → Bool} (h : DistinctBelow home tree) :
    DistinctBelow home ⟨tree.entries.filter p⟩ :=
  List.Pairwise.filter p h

theorem DistinctBelow.insert (h : DistinctBelow home tree) (location : Location) (entry : Entry) :
    DistinctBelow home (tree.insert location entry) := by
  have distinct : ∀ entries : List (Location × Entry),
      entries.Pairwise (fun a b => home.IsAbove a.1 → a.1 ≠ b.1) →
        (put location entry entries).Pairwise fun a b => home.IsAbove a.1 → a.1 ≠ b.1 := by
    intro entries
    induction entries with
    | nil => exact fun _ => List.pairwise_singleton _ _
    | cons head rest ih =>
      intro pairwise
      rw [List.pairwise_cons] at pairwise
      rw [put]
      split
      · next here =>
        rw [List.pairwise_cons]
        exact ⟨fun b mem below => here ▸ pairwise.1 b mem (here ▸ below), pairwise.2⟩
      · next apart =>
        rw [List.pairwise_cons]
        refine ⟨fun b mem below => ?_, ih pairwise.2⟩
        rcases @mem_insert ⟨rest⟩ location entry b mem with new | old
        · rw [new]
          exact apart
        · exact pairwise.1 b old below
  exact distinct tree.entries h

/-- What lies in a directory is an entry of it and no location that was made up otherwise. -/
def PlacedBelow (home : Location) (tree : Tree) : Prop :=
  ∀ entry ∈ tree.entries, home.IsAbove entry.1 → entry.1.parent = home →
    ∃ name, entry.1 = home.child name

theorem isAbove_of_parent (parent : location.parent = home)
    (head : location.names.head? = some name) :
    home.IsAbove location := by
  obtain ⟨rest, same⟩ := List.head?_eq_some_iff.mp head
  rw [Location.parent, same] at parent
  subst parent
  exact ⟨rfl, name, [], same⟩

theorem find?_eq_some_of_mem (inside : location.names ≠ [])
    (h : ∃ entry ∈ tree.entries, entry.1 = location) : (tree.find? location).isSome = true := by
  obtain ⟨entry, mem, same⟩ := h
  cases found : tree.find? location with
  | some other => rfl
  | none =>
    rw [find?, if_neg inside, List.lookup_eq_none_iff] at found
    have apart := found entry mem
    rw [same] at apart
    simp at apart

theorem exists_of_find?_eq_some (inside : location.names ≠ [])
    (h : (tree.find? location).isSome = true) : ∃ entry ∈ tree.entries, entry.1 = location := by
  by_cases present : ∃ entry ∈ tree.entries, entry.1 = location
  · exact present
  · rw [find?_eq_none_of_not_mem inside fun entry mem same => present ⟨entry, mem, same⟩] at h
    cases h

theorem mem_children (placed : PlacedBelow home tree) :
    name ∈ tree.children home ↔ (tree.find? (home.child name)).isSome = true := by
  have inside : (home.child name).names ≠ [] := List.cons_ne_nil _ _
  rw [children, List.mem_filterMap]
  constructor
  · rintro ⟨entry, mem, found⟩
    split at found
    · next parent =>
      obtain ⟨other, same⟩ := placed entry mem (isAbove_of_parent parent found) parent
      rw [same] at found
      cases found
      exact find?_eq_some_of_mem inside ⟨entry, mem, same⟩
    · cases found
  · intro found
    obtain ⟨entry, mem, same⟩ := exists_of_find?_eq_some inside found
    refine ⟨entry, mem, ?_⟩
    rw [same, Location.parent_child, if_pos rfl]
    rfl

theorem nodup_children (placed : PlacedBelow home tree) (distinct : DistinctBelow home tree) :
    (tree.children home).Nodup := by
  have keyed : ∀ entries : List (Location × Entry), (∀ entry ∈ entries, entry ∈ tree.entries) →
      entries.Pairwise (fun a b => home.IsAbove a.1 → a.1 ≠ b.1) →
        (Tree.children ⟨entries⟩ home).Nodup := by
    intro entries
    induction entries with
    | nil => exact fun _ _ => List.Pairwise.nil
    | cons head rest ih =>
      intro present pairwise
      rw [List.forall_mem_cons] at present
      rw [List.pairwise_cons] at pairwise
      have later := ih present.2 pairwise.2
      rw [children, List.filterMap_cons]
      split
      · exact later
      · next name found =>
        refine List.nodup_cons.mpr ⟨fun again => ?_, later⟩
        -- Both entries with this name are the same location.
        obtain ⟨entry, mem, foundAgain⟩ := List.mem_filterMap.mp again
        split at found
        · next parent =>
          split at foundAgain
          · next parentAgain =>
            have below := isAbove_of_parent parent found
            obtain ⟨first, same⟩ := placed head present.1 below parent
            obtain ⟨second, sameAgain⟩ := placed entry (present.2 entry mem)
              (isAbove_of_parent parentAgain foundAgain) parentAgain
            rw [same] at found
            rw [sameAgain] at foundAgain
            cases found
            cases foundAgain
            exact pairwise.1 entry mem below (same.trans sameAgain.symm)
          · cases foundAgain
        · cases found
  exact keyed tree.entries (fun _ mem => mem) distinct

theorem list_of_entry (resolved : tree.resolve path = .ok location)
    (directory : tree.find? location = some .directory) :
    tree.list path = .ok (tree.children location) := by
  rw [list, entry, resolved, ok_bind, directory]
  rfl

end TabStore.Tree
