import Mathlib.Data.List.Forall2
import TabStore.Error

/-!
# Outcomes of steps in sequence

A sequence of steps succeeds exactly when every step does. What is known of the value and of the
error that each step may end with carries over to the sequence.
-/

namespace TabStore

variable {ε α β : Type}

@[simp] theorem ok_bind (a : α) (f : α → Except ε β) : (Except.ok a >>= f) = f a := rfl

@[simp] theorem error_bind (e : ε) (f : α → Except ε β) :
    (Except.error e >>= f) = Except.error e := rfl

@[simp] theorem pure_eq_ok (a : α) : (pure a : Except ε α) = .ok a := rfl

@[simp] theorem map_ok (f : α → β) (a : α) : (f <$> (Except.ok a : Except ε α)) = .ok (f a) := rfl

@[simp] theorem map_error (f : α → β) (e : ε) :
    (f <$> (Except.error e : Except ε α)) = .error e := rfl

theorem bind_eq_ok {x : Except ε α} {f : α → Except ε β} {b : β} :
    (x >>= f) = .ok b ↔ ∃ a, x = .ok a ∧ f a = .ok b := by
  cases x with
  | error e => simp
  | ok a => simp

theorem check_bind_eq_ok {x : Except ε Unit} {y : Except ε β} {b : β} :
    (x >>= fun _ => y) = .ok b ↔ x = .ok () ∧ y = .ok b := by
  cases x with
  | error e => simp
  | ok a => simp

theorem bind_eq_error {x : Except ε α} {f : α → Except ε β} {e : ε} :
    (x >>= f) = .error e ↔ x = .error e ∨ ∃ a, x = .ok a ∧ f a = .error e := by
  cases x with
  | error e => simp
  | ok a => simp

theorem map_eq_ok {x : Except ε α} {f : α → β} {b : β} :
    (f <$> x) = .ok b ↔ ∃ a, x = .ok a ∧ f a = b := by
  cases x with
  | error e => simp
  | ok a => simp

theorem except_map_eq_ok {x : Except ε α} {f : α → β} {b : β} :
    x.map f = .ok b ↔ ∃ a, x = .ok a ∧ f a = b := by
  cases x with
  | error e => simp [Except.map]
  | ok a => simp [Except.map]

theorem except_map_eq_error {x : Except ε α} {f : α → β} {e : ε} :
    x.map f = .error e ↔ x = .error e := by
  cases x with
  | error e => simp [Except.map]
  | ok a => simp [Except.map]

/-! ## Steps that do not panic -/

namespace Outcome

variable {x : Result α}

@[simp] theorem ofResult_ok (a : α) : ofResult (.ok a : Result α) = .ok a := rfl

@[simp] theorem ofResult_error (e : Error) :
    ofResult (.error e : Result α) = .error (.error e) := rfl

theorem ofResult_eq_ok {a : α} : ofResult x = .ok a ↔ x = .ok a := by
  cases x with
  | error e => simp
  | ok a => simp

theorem ofResult_eq_error {failure : Failure} :
    ofResult x = .error failure ↔ ∃ e, failure = .error e ∧ x = .error e := by
  cases x with
  | error e => simp [eq_comm]
  | ok a => simp

end Outcome

/-! ## Steps for lists -/

/-- A step for each element of a list succeeds exactly if each of them does. -/
theorem mapM_eq_ok {f : α → Except ε β} {list : List α} {outcomes : List β} :
    list.mapM f = .ok outcomes ↔ List.Forall₂ (fun a b => f a = .ok b) list outcomes := by
  induction list generalizing outcomes with
  | nil => simp [eq_comm]
  | cons a rest ih =>
    simp only [List.mapM_cons, bind_eq_ok, pure_eq_ok, Except.ok.injEq, ih,
      List.forall₂_cons_left_iff]
    constructor
    · rintro ⟨b, first, later, run, rfl⟩
      exact ⟨b, later, first, run, rfl⟩
    · rintro ⟨b, later, first, run, rfl⟩
      exact ⟨b, first, later, run, rfl⟩

/-- A step for each element of a list fails with the first of them that fails. -/
theorem mapM_eq_error {f : α → Except ε β} {list : List α} {e : ε} :
    list.mapM f = .error e ↔ ∃ before a after, list = before ++ a :: after ∧
      (∀ b ∈ before, ∃ outcome, f b = .ok outcome) ∧ f a = .error e := by
  induction list with
  | nil => simp
  | cons first rest ih =>
    rw [List.mapM_cons]
    constructor
    · intro failed
      rcases bind_eq_error.mp failed with here | ⟨outcome, run, failed⟩
      · exact ⟨[], first, rest, rfl, by simp, here⟩
      · rcases bind_eq_error.mp failed with later | ⟨_, _, failed⟩
        · obtain ⟨before, a, after, rfl, run', fails⟩ := ih.mp later
          refine ⟨first :: before, a, after, rfl, ?_, fails⟩
          exact List.forall_mem_cons.mpr ⟨⟨outcome, run⟩, run'⟩
        · cases failed
    · rintro ⟨before, a, after, same, run, fails⟩
      cases before with
      | nil =>
        cases same
        rw [fails, error_bind]
      | cons b before =>
        cases same
        obtain ⟨⟨outcome, run⟩, run'⟩ := List.forall_mem_cons.mp run
        rw [run, ok_bind, ih.mpr ⟨before, a, after, rfl, run', fails⟩, error_bind]

/-! ## How steps end -/

/-- A value that satisfies `P` or an error that satisfies `E`. -/
def Ends (P : α → Prop) (E : ε → Prop) : Except ε α → Prop
  | .ok a => P a
  | .error e => E e

theorem ends_iff {P : α → Prop} {E : ε → Prop} {x : Except ε α} :
    Ends P E x ↔ (∀ a, x = .ok a → P a) ∧ ∀ e, x = .error e → E e := by
  cases x with
  | error e => simp [Ends]
  | ok a => simp [Ends]

namespace Ends

variable {P P' : α → Prop} {Q : β → Prop} {E : ε → Prop} {x : Except ε α}

theorem ok (h : Ends P E x) {a : α} (same : x = .ok a) : P a := (ends_iff.mp h).1 a same

theorem error (h : Ends P E x) {e : ε} (same : x = .error e) : E e := (ends_iff.mp h).2 e same

theorem imp (h : Ends P E x) (weaker : ∀ a, x = .ok a → P a → P' a) : Ends P' E x :=
  ends_iff.mpr ⟨fun a same => weaker a same (h.ok same), fun _ same => h.error same⟩

theorem weaken {E' : ε → Prop} (h : Ends P E x) (weaker : ∀ e, E e → E' e) : Ends P E' x :=
  ends_iff.mpr ⟨fun _ same => h.ok same, fun e same => weaker e (h.error same)⟩

theorem bind {f : α → Except ε β} (h : Ends P E x)
    (next : ∀ a, x = .ok a → P a → Ends Q E (f a)) : Ends Q E (x >>= f) := by
  cases x with
  | error e => exact h
  | ok a => exact next a rfl h

/-- A step for each element of a list: it fails with what one of them fails with. -/
theorem mapM {f : α → Except ε β} {list : List α}
    (h : ∀ a ∈ list, Ends (fun _ => True) E (f a)) : Ends (fun _ => True) E (list.mapM f) := by
  induction list with
  | nil => trivial
  | cons a rest ih =>
    rw [List.forall_mem_cons] at h
    rw [List.mapM_cons]
    exact h.1.bind fun _ _ _ => (ih h.2).bind fun _ _ _ => trivial

theorem map {f : α → β} (h : Ends P E x) (goes : ∀ a, x = .ok a → P a → Q (f a)) :
    Ends Q E (f <$> x) := by
  cases x with
  | error e => exact h
  | ok a => exact goes a rfl h

end Ends

end TabStore
