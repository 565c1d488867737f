import Mathlib

/-!
# Runs of a transition function

A run folds a list of actions into a state. What every action preserves holds at the end, and a
property of the states along a run that appears must appear at one of its steps.
-/

namespace Glmaxx.Library

variable {σ α : Type} {step : σ → α → σ}

theorem foldl_invariant (invariant : σ → Prop) (keep : ∀ s a, invariant s → invariant (step s a))
    (actions : List α) (s : σ) (start : invariant s) : invariant (actions.foldl step s) := by
  induction actions generalizing s with
  | nil => exact start
  | cons action rest ih => exact ih (step s action) (keep s action start)

theorem foldl_take_succ (step : σ → α → σ) {s : σ} {actions : List α} {k : Nat} {action : α}
    (get : actions[k]? = some action) :
    (actions.take (k + 1)).foldl step s = step ((actions.take k).foldl step s) action := by
  rw [List.take_add_one, get, List.foldl_append]
  rfl

theorem foldl_take_of_none (step : σ → α → σ) {s : σ} {actions : List α} {k : Nat} (get : actions[k]? = none) :
    (actions.take (k + 1)).foldl step s = (actions.take k).foldl step s := by
  rw [List.take_add_one, get]
  simp

/-- A property that fails at `i` and holds at `j` has a last step at which it starts to hold. -/
theorem exists_last_start (holds : Nat → Prop) {i j : Nat} (ordered : i ≤ j) (before : ¬holds i)
    (after : holds j) : ∃ k, i ≤ k ∧ k < j ∧ ¬holds k ∧ ∀ m, k < m → m ≤ j → holds m := by
  induction j, ordered using Nat.le_induction with
  | base => exact absurd after before
  | succ j ordered ih =>
    by_cases earlier : holds j
    · obtain ⟨k, lower, upper, fails, since⟩ := ih earlier
      refine ⟨k, lower, by omega, fails, ?_⟩
      intro m above within
      rcases Nat.le_succ_iff.mp within with old | rfl
      · exact since m above old
      · exact after
    · refine ⟨j, ordered, by omega, earlier, ?_⟩
      intro m above within
      obtain rfl : m = j + 1 := by omega
      exact after

theorem sum_Ico_le_of_counter (counter : Nat → Nat) {amount : Nat → Nat} {i j bound : Nat} (most : counter j ≤ bound)
    (counts : ∀ k ∈ Finset.Ico i j, counter (k + 1) = counter k + amount k) :
    ∑ k ∈ Finset.Ico i j, amount k ≤ bound := by
  rcases Nat.le_total j i with empty | ordered
  · rw [Finset.Ico_eq_empty_of_le empty, Finset.sum_empty]
    exact Nat.zero_le _
  · have exact : counter j = counter i + ∑ k ∈ Finset.Ico i j, amount k := by
      clear most
      induction j, ordered using Nat.le_induction with
      | base => simp
      | succ j ordered ih =>
        have before := ih fun k inside => counts k (Finset.mem_Ico.mpr
          ⟨(Finset.mem_Ico.mp inside).1, Nat.lt_succ_of_lt (Finset.mem_Ico.mp inside).2⟩)
        rw [Finset.sum_Ico_succ_top ordered, counts j (Finset.mem_Ico.mpr ⟨ordered, Nat.lt_succ_self j⟩), before,
          Nat.add_assoc]
    omega

section Guarded
variable {σ α : Type} {enabled : σ → α → Prop} {next : σ → α → σ}

/-- A run that takes only enabled steps. -/
inductive GuardedRun (enabled : σ → α → Prop) (next : σ → α → σ) : σ → List α → σ → Prop where
  | nil (s : σ) : GuardedRun enabled next s [] s
  | cons {s s' : σ} {a : α} {steps : List α} (step : enabled s a)
      (rest : GuardedRun enabled next (next s a) steps s') : GuardedRun enabled next s (a :: steps) s'

variable {P : σ → Prop} {μ : σ → Nat} {s s' : σ} {steps : List α}

theorem GuardedRun.length_le (run : GuardedRun enabled next s steps s')
    (decreases : ∀ s a, P s → enabled s a → P (next s a) ∧ μ (next s a) < μ s) (start : P s) :
    P s' ∧ steps.length + μ s' ≤ μ s := by
  induction run with
  | nil s => exact ⟨start, by simp⟩
  | cons step rest ih =>
    obtain ⟨holds, lower⟩ := decreases _ _ start step
    obtain ⟨last, bound⟩ := ih holds
    exact ⟨last, by rw [List.length_cons]; omega⟩

theorem exists_maximal_run (decreases : ∀ s a, P s → enabled s a → P (next s a) ∧ μ (next s a) < μ s) (start : P s) :
    ∃ steps s', GuardedRun enabled next s steps s' ∧ ∀ a, ¬enabled s' a := by
  induction bound : μ s using Nat.strong_induction_on generalizing s with
  | _ n ih =>
    by_cases stuck : ∃ a, enabled s a
    · obtain ⟨a, step⟩ := stuck
      obtain ⟨holds, lower⟩ := decreases s a start step
      obtain ⟨steps, s', rest, maximal⟩ := ih _ (bound ▸ lower) holds rfl
      exact ⟨a :: steps, s', .cons step rest, maximal⟩
    · exact ⟨[], s, .nil s, not_exists.mp stuck⟩

end Guarded

section Limits
open Filter

theorem eventually_not_of_falls {f : Nat → Nat} {P : Nat → Prop}
    (falls : ∀ᶠ n in atTop, f (n + 1) ≤ f n ∧ (P n → f (n + 1) < f n)) : ∀ᶠ n in atTop, ¬P n := by
  obtain ⟨start, falls⟩ := eventually_atTop.mp falls
  have below (n : Nat) (late : start ≤ n) (m : Nat) (later : n ≤ m) : f m ≤ f n := by
    induction m, later using Nat.le_induction with
    | base => exact le_rfl
    | succ m later ih => exact (falls m (late.trans later)).1.trans ih
  suffices ∀ bound n, start ≤ n → f n = bound → ∀ᶠ n in atTop, ¬P n from this _ start le_rfl rfl
  intro bound
  induction bound using Nat.strong_induction_on with
  | _ bound ih =>
    intro n late isBound
    by_cases happens : ∃ m ≥ n, P m
    · obtain ⟨m, later, holds⟩ := happens
      have less := (falls m (late.trans later)).2 holds
      exact ih (f (m + 1)) (by have := below n late m later; omega) (m + 1) (by omega) rfl
    · refine eventually_atTop.mpr ⟨n, fun m later holds => happens ⟨m, later, holds⟩⟩

theorem eventually_const_of_step {α : Type} {f : Nat → α} (same : ∀ᶠ n in atTop, f (n + 1) = f n) :
    ∃ c, ∀ᶠ n in atTop, f n = c := by
  obtain ⟨start, same⟩ := eventually_atTop.mp same
  refine ⟨f start, eventually_atTop.mpr ⟨start, fun n late => ?_⟩⟩
  induction n, late using Nat.le_induction with
  | base => rfl
  | succ n late ih => exact (same n late).trans ih

theorem eventually_rests {f : Nat → Nat} (bound : Nat) (rises : ∀ n, f n ≤ f (n + 1)) (bounded : ∀ n, f n ≤ bound) :
    ∀ᶠ n in atTop, f (n + 1) = f n := by
  have falls := eventually_not_of_falls (f := fun n => bound - f n) (P := fun n => f (n + 1) ≠ f n)
    (Eventually.of_forall fun n => by
      have := rises n
      have := bounded n
      have := bounded (n + 1)
      exact ⟨by omega, fun differs => by omega⟩)
  exact falls.mono fun n same => not_not.mp same

end Limits

end Glmaxx.Library
