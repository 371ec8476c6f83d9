import TabStore.Files.Tree
import TabStore.Proofs.Error
import TabStore.Proofs.Result

/-!
# Why work on trees fails

Work on a tree fails for one of the causes that have a fixed text, whatever the tree and the path.

Results:
1. `Tree.ends_resolve`, `Tree.ends_readText`, `Tree.ends_list`: looking at a tree;
2. `Change.ends_apply`: changing it.
-/

namespace TabStore

/-- A cause that has a text of its own. -/
def FileError.IsNamed : FileError → Prop
  | .other _ => False
  | _ => True

theorem FileError.isLine_message {cause : FileError} (h : cause.IsNamed) :
    Text.IsLine cause.message := by
  cases cause with
  | other text => cases h
  | notFound | alreadyExists | notDirectory | isDirectory | invalidArgument | nameTooLong | nulByte
  | invalidText => decide +kernel

/-- A step that returns something or fails for a named cause. -/
abbrev EndsNamed {α : Type} : Except FileError α → Prop := Ends (fun _ => True) FileError.IsNamed

namespace Tree

variable {tree : Tree} {path : Path}

theorem isNamed_fault? {cause : FileError} (h : path.fault? = some cause) : cause.IsNamed := by
  unfold Path.fault? at h
  split at h
  · cases h
    trivial
  · split at h
    · cases h
      trivial
    · split at h
      · cases h
        trivial
      · cases h

theorem ends_locate (here : Location) (steps : List String) :
    EndsNamed (tree.locate here steps) := by
  induction steps generalizing here with
  | nil => trivial
  | cons step rest ih =>
    rw [locate]
    split
    · exact ih here
    split
    · exact ih here.parent
    split
    · trivial
    split
    · trivial
    split
    · trivial
    · trivial
    · exact ih (here.child step)

theorem ends_follow (steps : List String) : EndsNamed (tree.follow path steps) := by
  unfold follow
  split
  · next cause fault => exact isNamed_fault? fault
  · exact ends_locate _ steps

theorem ends_resolve : EndsNamed (tree.resolve path) := ends_follow path.steps

theorem ends_entry : EndsNamed (tree.entry path) := by
  refine ends_resolve.bind fun location _ _ => ?_
  split <;> trivial

theorem ends_readText : EndsNamed (tree.readText path) := by
  refine ends_entry.bind fun entry _ _ => ?_
  split <;> trivial

theorem ends_list : EndsNamed (tree.list path) := by
  refine ends_entry.bind fun entry _ _ => ?_
  split
  · exact ends_resolve.bind fun _ _ _ => trivial
  · trivial

theorem ends_write (content : Content) : EndsNamed (tree.write path content) := by
  refine ends_resolve.bind fun location _ _ => ?_
  split <;> trivial

end Tree

open TabStore.Tree (ends_entry ends_follow ends_resolve ends_write)

theorem Change.ends_apply (tree : Tree) (change : Change) : EndsNamed (change.apply tree) := by
  cases change with
  | write path text => exact ends_write (.text text)
  | rename source target =>
    refine ends_entry.bind fun moved _ _ => ?_
    refine ends_resolve.bind fun start _ _ => ?_
    refine ends_resolve.bind fun goal _ _ => ?_
    split <;> trivial
  | remove path =>
    refine ends_entry.bind fun entry _ _ => ?_
    split
    · trivial
    · exact ends_resolve.bind fun _ _ _ => trivial
  | makeDirectory path =>
    refine (ends_follow path.names).bind fun location _ _ => ?_
    split <;> trivial
  | clearDirectory path =>
    refine ends_entry.bind fun entry _ _ => ?_
    split
    · exact ends_resolve.bind fun _ _ _ => trivial
    · trivial
  | removeDirectory path =>
    have entry := @ends_entry tree path
    rw [apply]
    split
    · trivial
    · next cause _ failed => exact entry.error failed
    · trivial
    · split
      · trivial
      · exact ends_resolve.bind fun _ _ _ => trivial

end TabStore
