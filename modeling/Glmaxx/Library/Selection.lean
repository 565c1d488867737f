import Mathlib

/-!
# The best of a list

`best k xs` sorts `xs` and keeps the first `k`. An element is among them when fewer than `k` elements
lie below it, so that a selection may be made in parts and repeated on what the parts selected.
-/

namespace Glmaxx.Library

variable {α : Type} [LinearOrder α]

def best (k : Nat) (xs : List α) : List α := (xs.mergeSort fun a b => a ≤ b).take k

def below (x : α) (xs : List α) : Nat := xs.countP (· < x)

section Sorted

theorem below_perm {xs ys : List α} (same : xs.Perm ys) (x : α) : below x xs = below x ys :=
  same.countP_eq _

theorem below_take {xs : List α} (sorted : xs.Pairwise (· ≤ ·)) (k : Nat) (x : α) :
    below x (xs.take k) = min k (below x xs) := by
  induction xs generalizing k with
  | nil => simp [below]
  | cons a xs ih =>
    obtain ⟨least, sorted⟩ := List.pairwise_cons.mp sorted
    cases k with
    | zero => simp [below]
    | succ k =>
      have rest := ih sorted k
      unfold below at rest ⊢
      rw [List.take_succ_cons, List.countP_cons, List.countP_cons, rest]
      by_cases less : a < x
      · simp only [less, decide_true, if_true]
        omega
      · have none : xs.countP (· < x) = 0 := by
          refine List.countP_eq_zero.mpr fun b member => ?_
          simpa using (not_lt.mp less).trans (least b member)
        simp [less, none]

theorem mem_take_iff {xs : List α} (sorted : xs.Pairwise (· < ·)) (k : Nat) (x : α) :
    x ∈ xs.take k ↔ x ∈ xs ∧ below x xs < k := by
  induction xs generalizing k with
  | nil => simp
  | cons a xs ih =>
    obtain ⟨least, sorted⟩ := List.pairwise_cons.mp sorted
    cases k with
    | zero => simp
    | succ k =>
      have rest := ih sorted k
      unfold below at rest ⊢
      rw [List.take_succ_cons, List.mem_cons, List.mem_cons, rest, List.countP_cons]
      by_cases first : x = a
      · subst first
        have none : xs.countP (· < x) = 0 := by
          refine List.countP_eq_zero.mpr fun b member => ?_
          simpa using (least b member).le
        simp [none]
      · constructor
        · rintro (here | ⟨member, few⟩)
          · exact absurd here first
          · simp only [least x member, decide_true, if_true]
            exact ⟨.inr member, by omega⟩
        · rintro ⟨here | member, few⟩
          · exact absurd here first
          · simp only [least x member, decide_true, if_true] at few
            exact .inr ⟨member, by omega⟩

end Sorted

section Best
variable {k : Nat} {xs ys : List α}

theorem below_best (x : α) : below x (best k xs) = min k (below x xs) := by
  unfold best
  rw [below_take (List.pairwise_mergeSort' (· ≤ ·) xs), below_perm (List.mergeSort_perm xs _)]

theorem best_sublist_sort : (best k xs).Sublist (xs.mergeSort fun a b => a ≤ b) := List.take_sublist _ _

theorem mem_of_mem_best {x : α} (member : x ∈ best k xs) : x ∈ xs :=
  (List.mergeSort_perm xs _).subset (best_sublist_sort.subset member)

theorem sort_strict (distinct : xs.Nodup) : (xs.mergeSort fun a b => a ≤ b).Pairwise (· < ·) := by
  have unique : (xs.mergeSort fun a b => a ≤ b).Nodup := (List.mergeSort_perm xs _).nodup_iff.mpr distinct
  have sorted := List.pairwise_mergeSort' (· ≤ ·) xs
  exact (sorted.and unique).imp fun both => lt_of_le_of_ne both.1 both.2

theorem sorted_best (distinct : xs.Nodup) : (best k xs).Pairwise (· < ·) :=
  (sort_strict distinct).sublist best_sublist_sort

theorem mem_best_iff (distinct : xs.Nodup) {x : α} : x ∈ best k xs ↔ x ∈ xs ∧ below x xs < k := by
  have perm := List.mergeSort_perm xs fun a b => a ≤ b
  unfold best
  rw [mem_take_iff (sort_strict distinct), perm.mem_iff, below_perm perm]

theorem best_perm (same : xs.Perm ys) (distinct : xs.Nodup) : best k xs = best k ys := by
  have distinct' := same.nodup_iff.mp distinct
  refine (sorted_best distinct).eq_of_mem_iff (sorted_best distinct') fun x => ?_
  rw [mem_best_iff distinct, mem_best_iff distinct', same.mem_iff, below_perm same]

end Best

section Parts
variable {k : Nat} {parts : List (List α)}

theorem below_flatten (x : α) (parts : List (List α)) : below x parts.flatten = (parts.map (below x)).sum := by
  unfold below
  rw [List.countP_flatten]

/-- What the parts select holds all that lies below `x`, or `k` elements of it. -/
theorem below_selected (x : α) (few : below x (parts.map (best k)).flatten < k) :
    below x (parts.map (best k)).flatten = below x parts.flatten := by
  rw [below_flatten, below_flatten, List.map_map] at *
  induction parts with
  | nil => rfl
  | cons part parts ih =>
    simp only [List.map_cons, List.sum_cons, Function.comp_apply, below_best] at few ⊢
    rw [ih (by omega)]
    omega

theorem selected_nodup (distinct : parts.flatten.Nodup) : (parts.map (best k)).flatten.Nodup := by
  induction parts with
  | nil => exact List.nodup_nil
  | cons part parts ih =>
    rw [List.flatten_cons, List.nodup_append] at distinct
    rw [List.map_cons, List.flatten_cons, List.nodup_append]
    obtain ⟨own, others, apart⟩ := distinct
    refine ⟨(sorted_best own).imp ne_of_lt, ih others, ?_⟩
    intro a here b there
    obtain ⟨_, isPart, inPart⟩ := List.mem_flatten.mp there
    obtain ⟨other, isOther, rfl⟩ := List.mem_map.mp isPart
    exact apart a (mem_of_mem_best here) b (List.mem_flatten.mpr ⟨other, isOther, mem_of_mem_best inPart⟩)

theorem best_flatten (distinct : parts.flatten.Nodup) :
    best k (parts.map (best k)).flatten = best k parts.flatten := by
  refine (sorted_best (selected_nodup distinct)).eq_of_mem_iff (sorted_best distinct) fun x => ?_
  rw [mem_best_iff (selected_nodup distinct), mem_best_iff distinct]
  constructor
  · rintro ⟨member, few⟩
    obtain ⟨_, isPart, inPart⟩ := List.mem_flatten.mp member
    obtain ⟨part, isIn, rfl⟩ := List.mem_map.mp isPart
    exact ⟨List.mem_flatten.mpr ⟨part, isIn, mem_of_mem_best inPart⟩, below_selected x few ▸ few⟩
  · rintro ⟨member, few⟩
    obtain ⟨part, isIn, inPart⟩ := List.mem_flatten.mp member
    have least : below x part ≤ below x parts.flatten := by
      rw [below_flatten]
      exact List.le_sum_of_mem (List.mem_map_of_mem isIn)
    have own : part.Nodup := (List.nodup_flatten.mp distinct).1 part isIn
    refine ⟨List.mem_flatten.mpr ⟨_, List.mem_map_of_mem isIn, (mem_best_iff own).mpr ⟨inPart, by omega⟩⟩, ?_⟩
    refine lt_of_le_of_lt ?_ few
    rw [below_flatten, below_flatten, List.map_map]
    refine List.sum_le_sum fun part _ => ?_
    rw [Function.comp_apply, below_best]
    exact min_le_right _ _

end Parts

section Segment
variable {β : Type} {p : β → Bool}

theorem takeWhile_eq_take (xs : List β) : xs.takeWhile p = xs.take (xs.takeWhile p).length :=
  List.prefix_iff_eq_take.mp (List.takeWhile_prefix p)

theorem takeWhile_isGreatest (xs : List β) :
    IsGreatest {n | n ≤ xs.length ∧ ∀ x ∈ xs.take n, p x = true} (xs.takeWhile p).length := by
  constructor
  · refine ⟨(List.takeWhile_prefix p).length_le, ?_⟩
    rw [← takeWhile_eq_take]
    exact fun x member => List.mem_takeWhile_imp member
  · intro n ⟨within, passes⟩
    have split : (xs.take n ++ xs.drop n).takeWhile p = xs.take n ++ (xs.drop n).takeWhile p :=
      List.takeWhile_append_of_pos passes
    rw [List.take_append_drop] at split
    rw [split, List.length_append, List.length_take, Nat.min_eq_left within]
    exact Nat.le_add_right _ _

end Segment

end Glmaxx.Library
