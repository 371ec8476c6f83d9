import TabStore.Proofs.Memory.Run

/-!
# The engine on files refines the engine in memory

Whatever sessions ask of an engine that was opened on an empty root, in whatever order, every answer
and every listing is the one that the engine in memory gives. This takes room for all files.

Result: `Engine.run_eq_memory`.
-/

namespace TabStore

open TabStore.Tree (EntryFits)

/-- An empty root represents the empty store. -/
theorem exists_site {tree : Tree} {root : Path} (empty : tree.IsEmptyAt root) :
    ∃ site : Site, site.root = root ∧ Represents site tree ∅ := by
  obtain ⟨home, nothing, anchored⟩ := Tree.leadsTo_of_isEmptyAt empty
  refine ⟨⟨root, home, tree, anchored⟩, rfl, ?_⟩
  constructor
  case outside => exact Tree.AgreesOutside.refl home tree
  case distinct =>
    exact List.pairwise_of_forall_mem_list fun a mem b _ below => absurd below (nothing a mem)
  case located => exact fun entry mem below => absurd below (nothing entry mem)
  case databases =>
    intro db
    rw [if_neg (AList.notMem_empty db)]
    refine Tree.find?_eq_none_of_not_mem (List.cons_ne_nil _ _) fun entry mem same => ?_
    exact nothing entry mem (same ▸ Location.isAbove_child)
  case files =>
    intro db tables found
    cases found

/-- The root lists the databases of a store, and each database its tables in order. -/
structure Engine.Lists (engine : Engine) (tree : Tree) (store : Store) : Prop where
  databases : ∃ names, tree.list engine.root = .ok names ∧ names.Perm store.keys
  tables : ∀ db tables, store.lookup db = some tables →
    (Database.under engine.root db).tables tree = .ok (tables.keys.mergeSort fun a b => a ≤ b)

namespace Engine

variable {σ : Type} {engine : Engine} {root : Path} {start tree : Tree}

theorem root_eq_of_openAt (opened : openAt root start = (.ok engine, tree)) :
    engine.root = root := by
  unfold openAt at opened
  split at opened
  · cases opened
    rfl
  · cases opened

/-- Opening a root that is missing makes an empty one. -/
theorem openAt_mk {name : String} (h : IsFileName name)
    (short : name.utf8ByteSize ≤ Tree.nameLimit) :
    openAt ⟨name⟩ .empty = (.ok ⟨⟨name⟩⟩, .ofDirectory name) := by
  rw [openAt, Tree.makeDirectories_mk h short]

theorem exists_serves (opened : openAt root start = (.ok engine, tree))
    (empty : tree.IsEmptyAt root) : ∃ site : Site, engine.root = site.root ∧
      site.Serves (Served.start tree : Served σ Tree) (Served.start ∅) := by
  obtain ⟨site, same, represents⟩ := exists_site empty
  refine ⟨site, (root_eq_of_openAt opened).trans same.symm, represents, .start, rfl, fun who => ?_⟩
  exact nofun

theorem lists_of_serves {site : Site} {files : Served σ Tree} {memory : Served σ Store}
    (h : site.Serves files memory) (root : engine.root = site.root) :
    engine.Lists files.data memory.data where
  databases := root ▸ h.represents.list_root
  tables := fun _ _ found => root ▸ h.represents.tables_eq h.sound found

/-- Any number of sessions see an engine on files as the engine in memory: the same answers and
errors, the same working databases and, after each request, the same databases and tables. -/
theorem run_eq_memory [DecidableEq σ] (opened : openAt root start = (.ok engine, tree))
    (empty : tree.IsEmptyAt root) (requests : List (σ × String))
    (room : (Served.start tree).Throughout engine.perform engine.HasRoom requests) :
    ∀ first, first <+: requests →
      let files := Served.run engine.perform (.start tree) first
      let memory := Served.run (Memory.step root) (.start ∅) first
      files.1 = memory.1 ∧ files.2.sessions = memory.2.sessions ∧
        engine.Lists files.2.data memory.2.data := by
  intro first isPrefix
  obtain ⟨site, same, serves⟩ := @exists_serves σ _ _ _ _ opened empty
  obtain ⟨outcomes, served⟩ := serves.run_eq same first (room.of_isPrefix isPrefix)
  rw [root_eq_of_openAt opened] at outcomes served
  exact ⟨outcomes, served.sessions, lists_of_serves served same⟩

/-- One session sees its row, and then finds that another one has dropped the table. -/
theorem run_eq_memory_of_two_sessions :
    let requests : List (Nat × String) :=
      [(0, "CREATE DATABASE a;"), (0, "USE a;"), (0, "CREATE TABLE t (x);"),
        (0, "INSERT INTO t VALUES ('y');"), (1, "USE a;"), (0, "SELECT * FROM t;"),
        (1, "DROP TABLE t;"), (0, "SELECT * FROM t;")]
    openAt ⟨"db"⟩ .empty = (.ok ⟨⟨"db"⟩⟩, .ofDirectory "db") ∧
      (Tree.ofDirectory "db").IsEmptyAt ⟨"db"⟩ ∧
      (Served.start (.ofDirectory "db")).Throughout (perform ⟨⟨"db"⟩⟩) (HasRoom ⟨⟨"db"⟩⟩) requests ∧
      (∀ first, first <+: requests →
        let files := Served.run (perform ⟨⟨"db"⟩⟩) (.start (.ofDirectory "db")) first
        let memory := Served.run (Memory.step ⟨"db"⟩) (.start ∅) first
        files.1 = memory.1 ∧ files.2.sessions = memory.2.sessions ∧
          (Engine.mk ⟨"db"⟩).Lists files.2.data memory.2.data) ∧
      (Served.run (perform ⟨⟨"db"⟩⟩) (.start (.ofDirectory "db")) requests).1 =
        [.ok ⟨none, ⟨none⟩⟩, .ok ⟨none, ⟨some "a"⟩⟩, .ok ⟨none, ⟨some "a"⟩⟩,
          .ok ⟨none, ⟨some "a"⟩⟩, .ok ⟨none, ⟨some "a"⟩⟩,
          .ok ⟨some "id\tx\n1\t'y'\n", ⟨some "a"⟩⟩, .ok ⟨none, ⟨some "a"⟩⟩,
          .error (.error (.tableNotFound "t"))] := by
  intro requests
  have isFileName : IsFileName "db" := by constructor <;> decide
  have short : "db".utf8ByteSize ≤ Tree.nameLimit := by decide
  have opened := openAt_mk isFileName short
  have empty := Tree.isEmptyAt_ofDirectory isFileName short
  have room : (Served.start (.ofDirectory "db")).Throughout (perform ⟨⟨"db"⟩⟩) (HasRoom ⟨⟨"db"⟩⟩)
      requests := by decide +kernel
  have agrees := run_eq_memory opened empty requests room
  refine ⟨opened, empty, room, agrees, ?_⟩
  rw [(agrees requests (List.prefix_refl requests)).1]
  decide +kernel

end Engine

end TabStore
