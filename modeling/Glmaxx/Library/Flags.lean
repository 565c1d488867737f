import Mathlib

/-!
# A count and three flags in one word

`packed p c e n` has the flags in its top three bits and the count below them. Bitwise operations
act on each part by itself.
-/

namespace Glmaxx.Library

def packed (p c e : Bool) (n : BitVec 61) : BitVec 64 := BitVec.ofBool p ++ BitVec.ofBool c ++ BitVec.ofBool e ++ n

theorem getLsbD_packed (p c e : Bool) (n : BitVec 61) (i : Nat) : (packed p c e n).getLsbD i =
      if i < 61 then n.getLsbD i else if i = 61 then e else if i = 62 then c else if i = 63 then p else false := by
  unfold packed
  simp only [BitVec.getLsbD_append, BitVec.getLsbD_ofBool]
  by_cases low : i < 61
  · simp [low]
  rcases (by omega : i = 61 ∨ i = 62 ∨ i = 63 ∨ 64 ≤ i) with rfl | rfl | rfl | outside
  · simp
  · simp
  · simp
  · have first : ¬i - 61 < 1 := by omega
    have second : ¬i - 61 - 1 < 1 := by omega
    have third : ¬i - 61 - 1 - 1 = 0 := by omega
    have flags : i ≠ 61 ∧ i ≠ 62 ∧ i ≠ 63 := by omega
    simp [low, first, second, third, flags]

theorem packed_inj {p c e p' c' e' : Bool} {n n' : BitVec 61} :
    packed p c e n = packed p' c' e' n' ↔ p = p' ∧ c = c' ∧ e = e' ∧ n = n' := by
  constructor
  · intro same
    have bit (i : Nat) := congrArg (BitVec.getLsbD · i) same
    simp only [getLsbD_packed] at bit
    refine ⟨by simpa using bit 63, by simpa using bit 62, by simpa using bit 61, ?_⟩
    refine BitVec.eq_of_getLsbD_eq fun i inside => ?_
    simpa [inside] using bit i
  · rintro ⟨rfl, rfl, rfl, rfl⟩
    rfl

@[simp] theorem packed_eq_zero {p c e : Bool} {n : BitVec 61} :
    packed p c e n = 0#64 ↔ p = false ∧ c = false ∧ e = false ∧ n = 0#61 := by
  have zero : 0#64 = packed false false false 0#61 := by decide
  rw [zero, packed_inj]

theorem packed_and (p c e p' c' e' : Bool) (n n' : BitVec 61) :
    packed p c e n &&& packed p' c' e' n' = packed (p && p') (c && c') (e && e') (n &&& n') := by
  refine BitVec.eq_of_getLsbD_eq fun i _ => ?_
  simp only [BitVec.getLsbD_and, getLsbD_packed]
  split_ifs <;> simp

theorem packed_or (p c e p' c' e' : Bool) (n n' : BitVec 61) :
    packed p c e n ||| packed p' c' e' n' = packed (p || p') (c || c') (e || e') (n ||| n') := by
  refine BitVec.eq_of_getLsbD_eq fun i _ => ?_
  simp only [BitVec.getLsbD_or, getLsbD_packed]
  split_ifs <;> simp

theorem packed_not (p c e : Bool) (n : BitVec 61) : ~~~packed p c e n = packed (!p) (!c) (!e) (~~~n) := by
  refine BitVec.eq_of_getLsbD_eq fun i inside => ?_
  simp only [BitVec.getLsbD_not, getLsbD_packed, inside, decide_true, Bool.true_and]
  have : i < 61 ∨ i = 61 ∨ i = 62 ∨ i = 63 := by omega
  rcases this with low | rfl | rfl | rfl
  · simp [low]
  all_goals simp

theorem toNat_packed (n : BitVec 61) : (packed false false false n).toNat = n.toNat := by
  have flags : (BitVec.ofBool false ++ BitVec.ofBool false ++ BitVec.ofBool false : BitVec 3).toNat = 0 := by decide
  rw [packed, BitVec.toNat_append, flags, Nat.zero_shiftLeft, Nat.zero_or]

theorem packed_add_one {n : BitVec 61} (room : n.toNat + 1 < 2 ^ 61) :
    packed false false false n + 1 = packed false false false (n + 1) := by
  have one : (1 : BitVec 64).toNat = 1 ∧ (1 : BitVec 61).toNat = 1 := by decide
  refine BitVec.eq_of_toNat_eq ?_
  rw [BitVec.toNat_add, toNat_packed, toNat_packed, BitVec.toNat_add, one.1, one.2]
  omega

end Glmaxx.Library
