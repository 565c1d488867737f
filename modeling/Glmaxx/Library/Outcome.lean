import Mathlib

/-!
# Postconditions of fallible computations

`Yields x good bad` says what `x` guarantees of its value and of its error. The rules below follow
the combinators that `do` blocks elaborate to, so that a caller uses the statement about a callee
and never its body.
-/

namespace Glmaxx.Library

variable {ε α β : Type}

def Yields (x : Except ε α) (good : α → Prop) (bad : ε → Prop) : Prop :=
  match x with
  | .ok value => good value
  | .error failure => bad failure

theorem Yields.value {x : Except ε α} {good : α → Prop} {bad : ε → Prop} {value : α}
    (h : Yields x good bad) (ok : x = .ok value) : good value := by
  subst ok
  exact h

theorem Yields.failure {x : Except ε α} {good : α → Prop} {bad : ε → Prop} {failure : ε}
    (h : Yields x good bad) (error : x = .error failure) : bad failure := by
  subst error
  exact h

theorem Yields.mono {x : Except ε α} {good good' : α → Prop} {bad bad' : ε → Prop}
    (h : Yields x good bad) (value : ∀ a, good a → good' a) (failure : ∀ e, bad e → bad' e) :
    Yields x good' bad' := by
  cases x with
  | ok a => exact value a h
  | error e => exact failure e h

theorem Yields.bind {x : Except ε α} {f : α → Except ε β} {middle : α → Prop} {good : β → Prop}
    {bad : ε → Prop} (h : Yields x middle bad) (next : ∀ a, middle a → Yields (f a) good bad) :
    Yields (x >>= f) good bad := by
  cases x with
  | ok a => exact next a h
  | error e => exact h

theorem Yields.pure {value : α} {good : α → Prop} {bad : ε → Prop} (h : good value) :
    Yields (Pure.pure value : Except ε α) good bad := h

theorem Yields.throw {failure : ε} {good : α → Prop} {bad : ε → Prop} (h : bad failure) :
    Yields (MonadExcept.throw failure : Except ε α) good bad := h

theorem Yields.bind_ok {x : Except ε α} {f : α → Except ε β} {value : α} {good : β → Prop}
    {bad : ε → Prop} (ok : x = .ok value) (next : Yields (f value) good bad) :
    Yields (x >>= f) good bad := by
  subst ok
  exact next

/-- `Option::ok_or`. -/
def okOr (value : Option α) (failure : ε) : Except ε α :=
  match value with
  | some a => .ok a
  | none => .error failure

@[simp] theorem okOr_some {a : α} {failure : ε} : okOr (some a) failure = .ok a := rfl

@[simp] theorem okOr_none {failure : ε} : okOr (none : Option α) failure = .error failure := rfl

theorem okOr_eq_ok {value : Option α} {failure : ε} {a : α} : okOr value failure = .ok a ↔ value = some a := by
  cases value <;> simp [okOr]

theorem okOr_eq_error {value : Option α} {failure e : ε} :
    okOr value failure = .error e ↔ value = none ∧ failure = e := by
  cases value <;> simp [okOr]

theorem Yields.okOr_cases {value : Option α} {failure : ε} {good : α → Prop} {bad : ε → Prop}
    (some_ : ∀ a, value = some a → good a) (none_ : value = none → bad failure) :
    Yields (Library.okOr value failure) good bad := by
  cases value with
  | some a => exact some_ a rfl
  | none => exact none_ rfl

theorem Yields.okOr {value : Option α} {failure : ε} {good : α → Prop} {bad : ε → Prop}
    (some_ : ∀ a, value = some a → good a) (none_ : bad failure) :
    Yields (Library.okOr value failure) good bad :=
  Yields.okOr_cases some_ fun _ => none_

theorem bind_eq_ok {x : Except ε α} {f : α → Except ε β} {result : β} :
    x >>= f = .ok result ↔ ∃ value, x = .ok value ∧ f value = .ok result := by
  cases x with
  | ok a => exact ⟨fun h => ⟨a, rfl, h⟩, fun ⟨_, same, h⟩ => by cases same; exact h⟩
  | error e => exact ⟨fun h => (by cases h), fun ⟨_, same, _⟩ => by cases same⟩

/-- `map_err` leaves what succeeds alone. -/
theorem mapError_eq_ok {failed : Type} {x : Except ε α} {wrap : ε → failed} {value : α} :
    x.mapError wrap = .ok value ↔ x = .ok value := by
  cases x with
  | ok a => exact ⟨fun same => by cases same; rfl, fun same => by cases same; rfl⟩
  | error e => exact ⟨fun impossible => (by cases impossible), fun impossible => (by cases impossible)⟩

section Lists
variable {f : α → Except ε β} {xs : List α} {ys : List β}

/-- `mapM` succeeds with the results of the elements, in order. -/
theorem mapM_eq_ok : xs.mapM f = .ok ys ↔ List.Forall₂ (fun x y => f x = .ok y) xs ys := by
  induction xs generalizing ys with
  | nil =>
    rw [List.mapM_nil, List.forall₂_nil_left_iff]
    exact ⟨fun same => by cases same; rfl, fun same => by rw [same]; rfl⟩
  | cons x xs ih =>
    rw [List.mapM_cons, bind_eq_ok, List.forall₂_cons_left_iff]
    constructor
    · rintro ⟨y, first, rest⟩
      obtain ⟨later, isLater, same⟩ := bind_eq_ok.mp rest
      cases same
      exact ⟨y, later, first, ih.mp isLater, rfl⟩
    · rintro ⟨y, later, first, isLater, rfl⟩
      exact ⟨y, first, bind_eq_ok.mpr ⟨later, ih.mpr isLater, rfl⟩⟩

theorem mapM_ok_of_forall {g : α → β} (xs : List α) (each : ∀ x ∈ xs, f x = .ok (g x)) :
    xs.mapM f = .ok (xs.map g) := by
  rw [mapM_eq_ok, List.forall₂_map_right_iff]
  exact List.forall₂_same.mpr each

/-- Each result of a `mapM` comes from an element. -/
theorem results_of_mapM_ok (ok : xs.mapM f = .ok ys) :
    ys.length = xs.length ∧ ∀ y ∈ ys, ∃ x ∈ xs, f x = .ok y := by
  have each := mapM_eq_ok.mp ok
  refine ⟨each.length_eq.symm, fun y member => ?_⟩
  obtain ⟨i, within, rfl⟩ := List.getElem_of_mem member
  have within' : i < xs.length := each.length_eq ▸ within
  exact ⟨xs[i], List.getElem_mem within', each.get within' within⟩

theorem forall_of_mapM_ok (ok : xs.mapM f = .ok ys) : ∀ x ∈ xs, ∃ y, f x = .ok y := by
  have each := mapM_eq_ok.mp ok
  intro x member
  obtain ⟨i, within, rfl⟩ := List.getElem_of_mem member
  have within' : i < ys.length := each.length_eq ▸ within
  exact ⟨ys[i], each.get within within'⟩

theorem forM_eq_ok {f : α → Except ε Unit} {xs : List α} : xs.forM f = .ok ⟨⟩ ↔ ∀ x ∈ xs, f x = .ok ⟨⟩ := by
  induction xs with
  | nil => exact ⟨fun _ => nofun, fun _ => rfl⟩
  | cons x xs ih =>
    rw [List.forM_eq_forM, List.forM_cons, bind_eq_ok, List.forall_mem_cons, ← ih]
    exact ⟨fun ⟨⟨⟩, first, rest⟩ => ⟨first, rest⟩, fun ⟨first, rest⟩ => ⟨⟨⟩, first, rest⟩⟩

theorem forM_ok_of_forall {f : α → Except ε Unit} (xs : List α) (each : ∀ x ∈ xs, f x = .ok ⟨⟩) :
    xs.forM f = .ok ⟨⟩ := forM_eq_ok.mpr each

end Lists

end Glmaxx.Library
