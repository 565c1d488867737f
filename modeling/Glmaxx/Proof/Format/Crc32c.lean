import Mathlib
import Glmaxx.Format.Crc32c

namespace Glmaxx.Proof.Format
open Glmaxx.Format

variable {c d : UInt32} {xs ys zs : List UInt8} {bits : List Bool}

section Rounds

theorem crcRound_eq (c : UInt32) : crcRound c = if c.toNat % 2 = 0 then c >>> 1 else (c >>> 1) ^^^ 0x82f63b78 := by
  have low : (c &&& 1).toNat = c.toNat % 2 := by
    rw [UInt32.toNat_and]
    exact Nat.and_one_is_mod _
  split
  next even =>
    have bit : c &&& 1 = 0 := UInt32.toNat_inj.mp (low.trans even)
    simp [crcRound, bit]
  next odd =>
    have bit : c &&& 1 = 1 := UInt32.toNat_inj.mp (low.trans (Nat.mod_two_ne_zero.mp odd))
    simp only [crcRound, bit]
    rfl

theorem xor_cancel (x y p : UInt32) : x ^^^ p ^^^ (y ^^^ p) = x ^^^ y := by
  rw [UInt32.xor_assoc, UInt32.xor_comm y p, ← UInt32.xor_assoc p p y, UInt32.xor_self, UInt32.zero_xor]

/-- A round is linear over exclusive or. -/
theorem crcRound_xor (c d : UInt32) : crcRound (c ^^^ d) = crcRound c ^^^ crcRound d := by
  rw [crcRound_eq, crcRound_eq, crcRound_eq, UInt32.toNat_xor, Nat.xor_mod_two_eq, UInt32.shiftRight_xor]
  rcases Nat.mod_two_eq_zero_or_one c.toNat with even | odd <;>
    rcases Nat.mod_two_eq_zero_or_one d.toNat with even' | odd'
  · rw [if_pos even, if_pos even', if_pos (by omega)]
  · rw [if_pos even, if_neg (by omega), if_neg (by omega), UInt32.xor_assoc]
  · rw [if_neg (by omega), if_neg (by omega), if_pos even', UInt32.xor_assoc, UInt32.xor_assoc, UInt32.xor_comm (d >>> 1)]
  · rw [if_pos (by omega), if_neg (by omega), if_neg (by omega), xor_cancel]

/-- The polynomial has its top bit set, so that a round loses nothing. -/
theorem crcRound_eq_zero (zero : crcRound c = 0) : c = 0 := by
  have half : (c >>> 1).toNat = c.toNat / 2 := by
    rw [UInt32.toNat_shiftRight]
    exact Nat.shiftRight_one _
  rw [crcRound_eq] at zero
  split at zero
  next even =>
    rw [zero] at half
    apply UInt32.toNat_inj.mp
    rw [UInt32.toNat_zero] at half ⊢
    omega
  next =>
    rw [UInt32.xor_eq_zero_iff] at zero
    rw [zero] at half
    have bound := c.toNat_lt
    have polynomial : (0x82f63b78 : UInt32).toNat = 2197175160 := rfl
    omega

theorem crcRound_injective : Function.Injective crcRound := by
  intro c d same
  have zero : crcRound (c ^^^ d) = 0 := by rw [crcRound_xor, same, UInt32.xor_self]
  exact UInt32.xor_eq_zero_iff.mp (crcRound_eq_zero zero)

theorem crcRound_double {x : Nat} (small : x < 2 ^ 31) : crcRound (.ofNat (2 * x)) = .ofNat x := by
  have value : (UInt32.ofNat (2 * x)).toNat = 2 * x := UInt32.toNat_ofNat_of_lt' (by rw [UInt32.size]; omega)
  rw [crcRound_eq, if_pos (by omega)]
  apply UInt32.toNat_inj.mp
  rw [UInt32.toNat_shiftRight, value, UInt32.toNat_ofNat_of_lt' (by rw [UInt32.size]; omega)]
  show (2 * x) >>> 1 = x
  rw [Nat.shiftRight_one, Nat.mul_div_cancel_left _ (by decide)]

end Rounds

section Serial

def bitWord (bit : Bool) : UInt32 := .ofNat bit.toNat

/-- The same checksum taken a bit at a time. -/
def crcBits (crc : UInt32) (bits : List Bool) : UInt32 := bits.foldl (fun crc bit => crcRound (crc ^^^ bitWord bit)) crc

theorem ofNat_split (x : Nat) : UInt32.ofNat x = bitWord (x.testBit 0) ^^^ .ofNat (2 * (x / 2)) := by
  have bits : x = (x.testBit 0).toNat ^^^ 2 * (x / 2) := by
    apply Nat.eq_of_testBit_eq
    intro i
    cases i with
    | zero => rcases Nat.mod_two_eq_zero_or_one x with even | odd <;> simp [*]
    | succ i =>
      rw [Nat.testBit_xor, Nat.testBit_succ, Nat.testBit_succ, Nat.testBit_succ,
        Nat.mul_div_cancel_left _ (by decide)]
      cases x.testBit 0 <;> simp
  conv_lhs => rw [bits, UInt32.ofNat_xor]
  rfl

theorem crcRounds_bits (k : Nat) {x : Nat} (few : k ≤ 32) (small : x < 2 ^ k) (c : UInt32) :
    crcRound^[k] (c ^^^ .ofNat x) = crcBits c ((List.range k).map x.testBit) := by
  induction k generalizing x c with
  | zero =>
    obtain rfl : x = 0 := by omega
    simp [crcBits]
  | succ k ih =>
    rw [pow_succ] at small
    have half : x / 2 < 2 ^ 31 := lt_of_lt_of_le (by omega : x / 2 < 2 ^ k) (Nat.pow_le_pow_right (by decide) (by omega))
    have step : crcRound (c ^^^ .ofNat x) = crcRound (c ^^^ bitWord (x.testBit 0)) ^^^ .ofNat (x / 2) := by
      rw [ofNat_split, ← UInt32.xor_assoc, crcRound_xor, crcRound_double half]
    rw [Function.iterate_succ_apply, step, ih (by omega) (by omega), List.range_succ_eq_map, List.map_cons, List.map_map]
    simp only [crcBits, List.foldl_cons]
    congr 1
    apply List.map_congr_left
    intro i _
    exact (Nat.testBit_succ x i).symm

def bitAt (bytes : List UInt8) (position : Nat) : Bool := (bytes.getD (position / 8) 0).toNat.testBit (position % 8)

theorem crc_bits (bytes : List UInt8) (c : UInt32) :
    bytes.foldl crcByte c = crcBits c ((List.range (8 * bytes.length)).map (bitAt bytes)) := by
  induction bytes generalizing c with
  | nil => rfl
  | cons byte rest ih =>
    have first : (List.range 8).map (bitAt (byte :: rest)) = (List.range 8).map byte.toNat.testBit := by
      apply List.map_congr_left
      intro i inside
      rw [List.mem_range] at inside
      rw [bitAt, Nat.div_eq_of_lt inside, Nat.mod_eq_of_lt inside, List.getD_cons_zero]
    have others : ((List.range (8 * rest.length)).map (8 + ·)).map (bitAt (byte :: rest)) =
        (List.range (8 * rest.length)).map (bitAt rest) := by
      rw [List.map_map]
      apply List.map_congr_left
      intro i _
      simp [bitAt, Nat.add_div_left, Nat.add_mod_left]
    have word : byte.toUInt32 = .ofNat byte.toNat := by
      apply UInt32.toNat_inj.mp
      rw [UInt32.toNat_ofNat_of_lt' (by have := byte.toNat_lt; rw [UInt32.size]; omega)]
      rfl
    rw [List.length_cons, Nat.mul_succ, Nat.add_comm, List.range_add, List.map_append, first, others, List.foldl_cons, ih,
      crcByte, word, crcRounds_bits 8 (by decide) byte.toNat_lt, crcBits, crcBits, crcBits, List.foldl_append]

end Serial

section Bursts

def valueOf : List Bool → Nat
  | [] => 0
  | bit :: rest => bit.toNat + 2 * valueOf rest

theorem valueOf_lt (bits : List Bool) : valueOf bits < 2 ^ bits.length := by
  induction bits with
  | nil => exact Nat.one_pos
  | cons bit rest ih =>
    rw [valueOf, List.length_cons, pow_succ]
    have := bit.toNat_lt
    omega

theorem crcBits_eq_zero (few : bits.length ≤ 32) (zero : crcBits c bits = 0) : c = .ofNat (valueOf bits) := by
  induction bits generalizing c with
  | nil => exact zero
  | cons bit rest ih =>
    rw [List.length_cons] at few
    have half : valueOf rest < 2 ^ 31 :=
      lt_of_lt_of_le (valueOf_lt rest) (Nat.pow_le_pow_right (by decide) (by omega))
    have next : crcRound (c ^^^ bitWord bit) = crcRound (.ofNat (2 * valueOf rest)) :=
      (ih (by omega) zero).trans (crcRound_double half).symm
    have same := crcRound_injective next
    have split := ofNat_split (valueOf (bit :: rest))
    have low : (valueOf (bit :: rest)).testBit 0 = bit := by
      rw [valueOf, Nat.testBit_zero]
      cases bit <;> simp
    have high : valueOf (bit :: rest) / 2 = valueOf rest := by
      have := bit.toNat_lt
      rw [valueOf]
      omega
    rw [low, high, ← same, UInt32.xor_comm, UInt32.xor_assoc, UInt32.xor_self, UInt32.xor_zero] at split
    exact split.symm

theorem crcBits_quiet (quiet : ∀ bit ∈ bits, bit = false) (zero : crcBits c bits = 0) : c = 0 := by
  induction bits generalizing c with
  | nil => exact zero
  | cons bit rest ih =>
    rw [List.forall_mem_cons] at quiet
    obtain ⟨rfl, quiet⟩ := quiet
    have next : c ^^^ bitWord false = 0 := crcRound_eq_zero (ih quiet zero)
    exact UInt32.xor_eq_zero_iff.mp next

theorem valueOf_eq_zero (zero : valueOf bits = 0) : ∀ bit ∈ bits, bit = false := by
  induction bits with
  | nil => simp
  | cons bit rest ih =>
    rw [valueOf] at zero
    rw [List.forall_mem_cons]
    exact ⟨Bool.toNat_eq_zero.mp (by omega), ih (by omega)⟩

theorem crcBits_burst (start : Nat) (zero : crcBits 0 bits = 0)
    (burst : ∀ p, bits[p]? = some true → start ≤ p ∧ p < start + 32) : ∀ bit ∈ bits, bit = false := by
  induction start generalizing bits with
  | zero =>
    have quiet : ∀ bit ∈ bits.drop 32, bit = false := by
      intro bit member
      obtain ⟨i, get⟩ := List.mem_iff_getElem?.mp member
      rw [List.getElem?_drop] at get
      cases bit with
      | false => rfl
      | true => exact absurd (burst _ get).2 (by omega)
    have short : (bits.take 32).length ≤ 32 := by simp
    have first : crcBits 0 (bits.take 32) = 0 := by
      refine crcBits_quiet quiet ?_
      rw [crcBits, crcBits, ← List.foldl_append, List.take_append_drop]
      exact zero
    have value : valueOf (bits.take 32) = 0 := by
      have word := congrArg UInt32.toNat (crcBits_eq_zero short first)
      have bound := lt_of_lt_of_le (valueOf_lt (bits.take 32)) (Nat.pow_le_pow_right (by decide) short)
      rwa [UInt32.toNat_ofNat_of_lt' bound, UInt32.toNat_zero, eq_comm] at word
    intro bit member
    rw [← List.take_append_drop 32 bits, List.mem_append] at member
    exact member.elim (valueOf_eq_zero value bit) (quiet bit)
  | succ start ih =>
    cases bits with
    | nil => simp
    | cons bit rest =>
      obtain rfl : bit = false := by
        cases bit with
        | false => rfl
        | true => exact absurd (burst 0 rfl).1 (by omega)
      rw [List.forall_mem_cons]
      refine ⟨rfl, ih zero fun p get => ?_⟩
      have := burst (p + 1) get
      omega

end Bursts

section Strings

def xorBytes (xs ys : List UInt8) : List UInt8 := List.zipWith (· ^^^ ·) xs ys

theorem crcByte_xor (c d : UInt32) (x y : UInt8) : crcByte (c ^^^ d) (x ^^^ y) = crcByte c x ^^^ crcByte d y := by
  have rounds (k : Nat) (c d : UInt32) : crcRound^[k] (c ^^^ d) = crcRound^[k] c ^^^ crcRound^[k] d := by
    induction k generalizing c d with
    | zero => rfl
    | succ k ih => rw [Function.iterate_succ_apply, Function.iterate_succ_apply, Function.iterate_succ_apply, crcRound_xor, ih]
  unfold crcByte
  rw [← rounds, UInt8.toUInt32_xor]
  congr 1
  ac_rfl

theorem foldl_crcByte_xor (length : xs.length = ys.length) (c d : UInt32) :
    (xorBytes xs ys).foldl crcByte (c ^^^ d) = xs.foldl crcByte c ^^^ ys.foldl crcByte d := by
  induction xs generalizing ys c d with
  | nil =>
    obtain rfl := List.length_eq_zero_iff.mp length.symm
    rfl
  | cons x xs ih =>
    cases ys with
    | nil => cases length
    | cons y ys => exact (congrArg (List.foldl crcByte · _) (crcByte_xor c d x y)).trans (ih (Nat.succ.inj length) _ _)

theorem bitAt_xorBytes (length : xs.length = ys.length) (p : Nat) :
    bitAt (xorBytes xs ys) p = (bitAt xs p ^^ bitAt ys p) := by
  have byte (i : Nat) : (xorBytes xs ys).getD i 0 = xs.getD i 0 ^^^ ys.getD i 0 := by
    rw [xorBytes, List.getD_eq_getElem?_getD, List.getD_eq_getElem?_getD, List.getD_eq_getElem?_getD, List.getElem?_zipWith]
    by_cases inside : i < xs.length
    · rw [List.getElem?_eq_getElem inside, List.getElem?_eq_getElem (length ▸ inside)]
      rfl
    · rw [List.getElem?_eq_none (by omega), List.getElem?_eq_none (by omega)]
      rfl
  rw [bitAt, byte, UInt8.toNat_xor, Nat.testBit_xor]
  rfl

theorem eq_of_bitAt (length : xs.length = ys.length) (same : ∀ p < 8 * xs.length, bitAt xs p = bitAt ys p) : xs = ys := by
  apply List.ext_getElem length
  intro i inside inside'
  apply UInt8.toNat_inj.mp
  apply Nat.eq_of_testBit_eq
  intro j
  by_cases low : j < 8
  · have bit := same (8 * i + j) (by omega)
    rwa [bitAt, bitAt, Nat.mul_add_div (by decide), Nat.mul_add_mod, Nat.div_eq_of_lt low, Nat.mod_eq_of_lt low,
      Nat.add_zero, List.getD_eq_getElem _ _ inside, List.getD_eq_getElem _ _ inside'] at bit
  · have high (byte : UInt8) : byte.toNat.testBit j = false :=
      Nat.testBit_lt_two_pow (lt_of_lt_of_le byte.toNat_lt (Nat.pow_le_pow_right (by decide) (by omega)))
    rw [high, high]

/-- Strings that differ, and only within 32 bits in a row, have different checksums; and checksums are affine. -/
theorem crc32c_detects_bursts :
    (∀ (xs ys : List UInt8) (start : Nat), xs.length = ys.length → xs ≠ ys →
      (∀ p, bitAt xs p ≠ bitAt ys p → start ≤ p ∧ p < start + 32) → crc32c xs ≠ crc32c ys) ∧
    ∀ xs ys zs : List UInt8, xs.length = ys.length → ys.length = zs.length →
      crc32c (xorBytes (xorBytes xs ys) zs) = crc32c xs ^^^ crc32c ys ^^^ crc32c zs := by
  constructor
  · intro xs ys start length differ burst same
    apply differ
    have zero : (xorBytes xs ys).foldl crcByte 0 = 0 := by
      have folds := foldl_crcByte_xor length (~~~0) (~~~0)
      rwa [UInt32.xor_self, UInt32.not_inj.mp same, UInt32.xor_self] at folds
    rw [crc_bits] at zero
    have quiet := crcBits_burst start zero fun p get => burst p fun equal => by
      rw [List.getElem?_map] at get
      obtain ⟨_, isPlace, isBit⟩ := Option.map_eq_some_iff.mp get
      obtain ⟨_, rfl⟩ := List.getElem?_eq_some_iff.mp isPlace
      rw [List.getElem_range, bitAt_xorBytes length, equal, Bool.xor_self] at isBit
      cases isBit
    apply eq_of_bitAt length
    intro p inside
    have bit := quiet (bitAt (xorBytes xs ys) p)
      (List.mem_map_of_mem (List.mem_range.mpr (by simpa [xorBytes, length] using length ▸ inside)))
    rw [bitAt_xorBytes length] at bit
    simpa using bit
  · intro xs ys zs first second
    have lengths : (xorBytes xs ys).length = zs.length := by simp [xorBytes, first, second]
    have ones : (~~~0 ^^^ ~~~0 ^^^ ~~~0 : UInt32) = ~~~0 := rfl
    have folds := foldl_crcByte_xor lengths (~~~0 ^^^ ~~~0) (~~~0)
    rw [foldl_crcByte_xor first, ones] at folds
    simp only [crc32c, folds, UInt32.not_xor, UInt32.xor_not, UInt32.not_not]

end Strings

end Glmaxx.Proof.Format
