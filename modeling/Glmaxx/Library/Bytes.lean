import Mathlib

/-!
# Encodings

Little-endian words, and encodings that are `Unambiguous`: what follows one cannot be taken for a part of it.
-/

namespace Glmaxx.Library

section Words

/-- `to_le_bytes` of an unsigned type of `width` bytes. -/
def leBytes : Nat → Nat → List UInt8
  | 0, _ => []
  | width + 1, value => UInt8.ofNat value :: leBytes width (value / 256)

/-- `from_le_bytes`. -/
def ofLe : List UInt8 → Nat
  | [] => 0
  | byte :: rest => byte.toNat + 256 * ofLe rest

@[simp] theorem leBytes_length (width value : Nat) : (leBytes width value).length = width := by
  induction width generalizing value with
  | zero => rfl
  | succ width ih => rw [leBytes, List.length_cons, ih]

theorem ofLe_leBytes (width value : Nat) : ofLe (leBytes width value) = value % 256 ^ width := by
  induction width generalizing value with
  | zero => simp [leBytes, ofLe, Nat.mod_one]
  | succ width ih =>
    rw [leBytes, ofLe, ih, Nat.pow_succ', Nat.mod_mul]
    simp

theorem ofLe_leBytes_of_lt {width value : Nat} (small : value < 256 ^ width) : ofLe (leBytes width value) = value := by
  rw [ofLe_leBytes, Nat.mod_eq_of_lt small]

end Words

section Cancelling
variable {α : Type} {rest rest' : List UInt8}

theorem leBytes_append_inj (width : Nat) {a b : Nat} (smallA : a < 256 ^ width) (smallB : b < 256 ^ width) :
    leBytes width a ++ rest = leBytes width b ++ rest' ↔ a = b ∧ rest = rest' := by
  constructor
  · intro same
    obtain ⟨words, tails⟩ := List.append_inj same (by simp)
    have values := congrArg ofLe words
    rw [ofLe_leBytes_of_lt smallA, ofLe_leBytes_of_lt smallB] at values
    exact ⟨values, tails⟩
  · rintro ⟨rfl, rfl⟩
    rfl

@[simp] theorem u16_append_inj {a b : UInt16} :
    leBytes 2 a.toNat ++ rest = leBytes 2 b.toNat ++ rest' ↔ a = b ∧ rest = rest' := by
  rw [leBytes_append_inj _ a.toNat_lt b.toNat_lt, UInt16.toNat_inj]

@[simp] theorem u32_append_inj {a b : UInt32} :
    leBytes 4 a.toNat ++ rest = leBytes 4 b.toNat ++ rest' ↔ a = b ∧ rest = rest' := by
  rw [leBytes_append_inj _ a.toNat_lt b.toNat_lt, UInt32.toNat_inj]

@[simp] theorem u64_append_inj {a b : UInt64} :
    leBytes 8 a.toNat ++ rest = leBytes 8 b.toNat ++ rest' ↔ a = b ∧ rest = rest' := by
  rw [leBytes_append_inj _ a.toNat_lt b.toNat_lt, UInt64.toNat_inj]

@[simp] theorem vector_append_inj {n : Nat} {a b : List.Vector UInt8 n} :
    a.toList ++ rest = b.toList ++ rest' ↔ a = b ∧ rest = rest' := by
  constructor
  · intro same
    obtain ⟨lists, tails⟩ := List.append_inj same (by simp)
    exact ⟨List.Vector.toList_injective lists, tails⟩
  · rintro ⟨rfl, rfl⟩
    rfl

/-- No encoding of a valid value begins an encoding of another one. -/
def Unambiguous (valid : α → Prop) (encode : α → List UInt8) : Prop :=
  ∀ ⦃x y : α⦄, valid x → valid y → ∀ ⦃rest rest' : List UInt8⦄,
    encode x ++ rest = encode y ++ rest' → x = y ∧ rest = rest'

namespace Unambiguous
variable {valid : α → Prop} {encode : α → List UInt8} {xs ys : List α}

section
variable (unambiguous : Unambiguous valid encode)
include unambiguous

theorem injective {x y : α} (validX : valid x) (validY : valid y) (same : encode x = encode y) : x = y :=
  (unambiguous validX validY (congrArg (· ++ []) same)).1

theorem flatMap (length : xs.length = ys.length) (validXs : ∀ x ∈ xs, valid x) (validYs : ∀ y ∈ ys, valid y)
    (same : xs.flatMap encode ++ rest = ys.flatMap encode ++ rest') : xs = ys ∧ rest = rest' := by
  induction xs generalizing ys with
  | nil =>
    cases ys with
    | nil => exact ⟨rfl, same⟩
    | cons y ys => cases length
  | cons x xs ih =>
    cases ys with
    | nil => cases length
    | cons y ys =>
      simp only [List.flatMap_cons, List.append_assoc] at same
      obtain ⟨rfl, remaining⟩ := unambiguous (validXs x (by simp)) (validYs y (by simp)) same
      obtain ⟨rfl, tails⟩ := ih (Nat.succ.inj length) (fun x isIn => validXs x (List.mem_cons_of_mem _ isIn))
        (fun y isIn => validYs y (List.mem_cons_of_mem _ isIn)) remaining
      exact ⟨rfl, tails⟩

/-- A list behind its length, where the length does not saturate. -/
theorem counted (width : Nat) {limit : Nat}
    (fits : limit < 256 ^ width) : Unambiguous (fun xs : List α => xs.length ≤ limit ∧ ∀ x ∈ xs, valid x)
      (fun xs : List α => leBytes width (min xs.length limit) ++ xs.flatMap encode) := by
  rintro xs ys ⟨shortX, validXs⟩ ⟨shortY, validYs⟩ rest rest' same
  simp only [List.append_assoc, Nat.min_eq_left shortX, Nat.min_eq_left shortY] at same
  obtain ⟨length, same⟩ := (leBytes_append_inj width (by omega) (by omega)).mp same
  exact unambiguous.flatMap length validXs validYs same

end

end Unambiguous

end Cancelling

end Glmaxx.Library
