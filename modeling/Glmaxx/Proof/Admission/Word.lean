import Glmaxx.Engine.Admission
import Glmaxx.Library.Flags

namespace Glmaxx.Proof.Admission
open Library Engine

variable {closed exclusive : Bool} {n m word : Nat}

def wordOf (closed exclusive : Bool) (count : Nat) : BitVec 64 := packed false closed exclusive (BitVec.ofNat 61 count)

theorem poisoned_eq : workerStatePoisoned = packed true false false 0 := by decide
theorem closed_eq : workerStateClosed = packed false true false 0 := by decide
theorem exclusive_eq : workerStateExclusive = packed false false true 0 := by decide
theorem countMask_eq : workerStateCountMask = packed false false false (BitVec.allOnes 61) := by decide

theorem ofNat_eq_zero (small : n < 2 ^ 61) : BitVec.ofNat 61 n = 0#61 ↔ n = 0 := by
  rw [← BitVec.toNat_inj, BitVec.toNat_ofNat, Nat.mod_eq_of_lt small]
  simp

theorem setClosed_wordOf : setClosed (wordOf closed exclusive n) = wordOf true exclusive n := by
  simp [setClosed, wordOf, closed_eq, packed_or]

theorem setClosed_closed (current : BitVec 64) : setClosed current &&& workerStateClosed ≠ 0 := by
  intro zero
  have flag : workerStateClosed.getLsbD 62 = true := by decide
  have bit : (setClosed current &&& workerStateClosed).getLsbD 62 = (0 : BitVec 64).getLsbD 62 := by rw [zero]
  rw [BitVec.getLsbD_and, setClosed, BitVec.getLsbD_or, flag, Bool.or_true, Bool.and_true] at bit
  exact absurd bit (by decide)

theorem poisoned_wordOf : wordOf closed exclusive n &&& workerStatePoisoned = 0 := by
  simp [wordOf, poisoned_eq, packed_and]

theorem closed_wordOf : wordOf closed exclusive n &&& workerStateClosed ≠ 0 ↔ closed = true := by
  cases closed <;> simp [wordOf, closed_eq, packed_and]

theorem exclusive_wordOf : wordOf closed exclusive n &&& workerStateExclusive ≠ 0 ↔ exclusive = true := by
  cases exclusive <;> simp [wordOf, exclusive_eq, packed_and]

theorem count_wordOf : wordOf closed exclusive n &&& workerStateCountMask = packed false false false (BitVec.ofNat 61 n) := by
  rw [wordOf, countMask_eq, packed_and, BitVec.and_allOnes, Bool.and_false, Bool.and_false, Bool.and_false]

theorem toNat_count (small : n < 2 ^ 61) : (packed false false false (BitVec.ofNat 61 n)).toNat = n := by
  rw [toNat_packed, BitVec.toNat_ofNat, Nat.mod_eq_of_lt small]

theorem reserveSlot_wordOf {maximum : BitVec 64} (bound : maximum.toNat < 2 ^ 61) (small : n ≤ maximum.toNat) :
    reserveSlot maximum (wordOf closed exclusive n) =
      if closed = false ∧ exclusive = false ∧ n < maximum.toNat then .ok (wordOf false false (n + 1))
      else .error (workerAdmissionError (wordOf closed exclusive n)) := by
  have flags : wordOf closed exclusive n &&& ~~~workerStateCountMask = 0 ↔ closed = false ∧ exclusive = false := by
    simp [wordOf, countMask_eq, packed_not, packed_and]
  have below : wordOf closed exclusive n &&& workerStateCountMask < maximum ↔ n < maximum.toNat := by
    rw [count_wordOf, BitVec.lt_def, toNat_count (by omega)]
  refine if_ctx_congr ((and_congr flags below).trans and_assoc) ?_ fun _ => rfl
  rintro ⟨rfl, rfl, room⟩
  have value : (BitVec.ofNat 61 n).toNat = n := by rw [BitVec.toNat_ofNat, Nat.mod_eq_of_lt (by omega)]
  rw [wordOf, packed_add_one (by omega), wordOf]
  simp [BitVec.ofNat_add]

theorem tryReserveExclusive_wordOf (small : n < 2 ^ 61) : tryReserveExclusive (wordOf closed exclusive n) =
      if closed = false ∧ exclusive = false ∧ n = 0 then .ok (wordOf false true 0)
      else .error (workerAdmissionError (wordOf closed exclusive n)) := by
  have unused : wordOf closed exclusive n = 0 ↔ closed = false ∧ exclusive = false ∧ n = 0 := by
    refine packed_eq_zero.trans ?_
    rw [ofNat_eq_zero small]
    simp
  refine if_ctx_congr unused (fun _ => ?_) fun _ => rfl
  rw [exclusive_eq]
  rfl

theorem dropOutstandingPermit_wordOf (small : n + 1 < 2 ^ 61) :
    dropOutstandingPermit (wordOf closed exclusive (n + 1)) = wordOf closed exclusive n := by
  have nonzero : packed false false false (BitVec.ofNat 61 (n + 1)) ≠ 0 := by
    refine fun zero => Nat.succ_ne_zero n ((ofNat_eq_zero small).mp (packed_eq_zero.mp zero).2.2.2)
  have fewer : packed false false false (BitVec.ofNat 61 (n + 1)) - 1 = packed false false false (BitVec.ofNat 61 n) := by
    have value : (BitVec.ofNat 61 n).toNat = n := by rw [BitVec.toNat_ofNat, Nat.mod_eq_of_lt (by omega)]
    have counted : packed false false false (BitVec.ofNat 61 (n + 1)) = packed false false false (BitVec.ofNat 61 n) + 1 := by
      rw [packed_add_one (by omega), BitVec.ofNat_add]
      rfl
    rw [counted, BitVec.add_sub_cancel]
  unfold dropOutstandingPermit
  dsimp only
  rw [count_wordOf, if_neg nonzero, fewer, wordOf, countMask_eq, packed_not, packed_and, packed_or]
  simp [wordOf]

theorem dropExclusivePermit_wordOf : dropExclusivePermit (wordOf closed true 0) = wordOf closed false 0 := by
  unfold dropExclusivePermit
  rw [if_pos ⟨exclusive_wordOf.mpr rfl, by rw [count_wordOf]; rfl, poisoned_wordOf⟩, wordOf, exclusive_eq, packed_not,
    packed_and]
  simp [wordOf]

end Glmaxx.Proof.Admission
