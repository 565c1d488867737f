import Mathlib.Data.List.Sort
import Mathlib.Data.Multiset.Basic

/-!
# Priority queues

A `Heap` holds its elements in order, so that `pop` takes a least one.
-/

namespace Glmaxx.Library

structure Heap (α : Type) [LinearOrder α] where
  items : List α
  ordered : items.Pairwise (· ≤ ·)
deriving DecidableEq

namespace Heap
variable {α : Type} [LinearOrder α] {heap rest : Heap α} {a b : α}

def empty : Heap α := ⟨[], List.Pairwise.nil⟩

def push (a : α) (heap : Heap α) : Heap α := ⟨heap.items.orderedInsert (· ≤ ·) a, heap.ordered.orderedInsert a _⟩

def pop (heap : Heap α) : Option (α × Heap α) :=
  match heap with
  | ⟨[], _⟩ => none
  | ⟨a :: items, ordered⟩ => some (a, ⟨items, ordered.of_cons⟩)

def peek (heap : Heap α) : Option α := heap.items.head?

def isEmpty (heap : Heap α) : Bool := heap.items.isEmpty

def toMultiset (heap : Heap α) : Multiset α := heap.items

@[simp] theorem toMultiset_push : (push a heap).toMultiset = a ::ₘ heap.toMultiset :=
  Multiset.coe_eq_coe.mpr (List.perm_orderedInsert _ a heap.items)

theorem two_le_length_push (nonempty : heap.isEmpty = false) : 2 ≤ (push a heap).items.length := by
  have same : (push a heap).items.length = heap.items.length + 1 := List.orderedInsert_length _ _ _
  have some : heap.items ≠ [] := List.isEmpty_eq_false_iff.mp nonempty
  have := List.length_pos_iff.mpr some
  omega

theorem isEmpty_iff : heap.isEmpty = true ↔ heap = .empty := by
  obtain ⟨items, ordered⟩ := heap
  cases items with
  | nil => exact ⟨fun _ => rfl, fun _ => rfl⟩
  | cons least items => exact ⟨nofun, nofun⟩

theorem isEmpty_push : (push a heap).isEmpty = false := by
  have same : (push a heap).items.length = heap.items.length + 1 := List.orderedInsert_length _ _ _
  exact List.isEmpty_eq_false_iff.mpr (List.ne_nil_of_length_eq_add_one same)

theorem pop_eq_some (popped : heap.pop = some (a, rest)) :
    heap.toMultiset = a ::ₘ rest.toMultiset ∧ heap.peek = some a ∧ ∀ b ∈ heap.toMultiset, a ≤ b := by
  obtain ⟨items, ordered⟩ := heap
  cases items with
  | nil => cases popped
  | cons least items =>
    cases popped
    refine ⟨rfl, rfl, fun b member => ?_⟩
    rcases List.mem_cons.mp (Multiset.mem_coe.mp member) with rfl | later
    · exact le_rfl
    · exact List.rel_of_pairwise_cons ordered later

theorem pop_of_nonempty (nonempty : heap.isEmpty = false) : ∃ a rest, heap.pop = some (a, rest) := by
  obtain ⟨items, ordered⟩ := heap
  cases items with
  | nil => cases nonempty
  | cons least items => exact ⟨_, _, rfl⟩

end Heap

end Glmaxx.Library
