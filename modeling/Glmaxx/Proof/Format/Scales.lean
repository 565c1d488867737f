import Glmaxx.Format.Nvfp4

namespace Glmaxx.Proof.Format
open Library Cache Glmaxx.Format

variable {n group paddedN paddedK rows blocks offset : Nat}

section Swizzle

/-- Where the scale of a row and group lies, with `blocks` blocks of four groups in a row. -/
def swizzle (blocks n group : Nat) : Nat :=
  512 * (n / 128 * blocks + group / 4) + (16 * (n % 32) + 4 * (n % 128 / 32) + group % 4)

def swizzledRow (blocks offset : Nat) : Nat :=
  128 * (offset / 512 / blocks) + 32 * (offset % 512 % 16 / 4) + offset % 512 / 16

def swizzledGroup (blocks offset : Nat) : Nat := 4 * (offset / 512 % blocks) + offset % 512 % 4

theorem digits {x y z : Nat} (smallY : y < 4) (smallZ : z < 4) :
    (16 * x + 4 * y + z) / 16 = x ∧ (16 * x + 4 * y + z) % 16 / 4 = y ∧ (16 * x + 4 * y + z) % 4 = z := by
  have low : (16 * x + 4 * y + z) % 16 = 4 * y + z := by omega
  rw [low]
  omega

theorem row_digits {a x y : Nat} (smallX : x < 32) (smallY : y < 4) :
    (128 * a + 32 * y + x) / 128 = a ∧ (128 * a + 32 * y + x) % 32 = x ∧ (128 * a + 32 * y + x) % 128 / 32 = y := by
  have low : (128 * a + 32 * y + x) % 128 = 32 * y + x := by omega
  rw [low]
  omega

theorem swizzle_tile (blocks n group : Nat) : swizzle blocks n group / 512 = n / 128 * blocks + group / 4 := by
  unfold swizzle
  omega

theorem swizzle_inside (blocks n group : Nat) :
    swizzle blocks n group % 512 = 16 * (n % 32) + 4 * (n % 128 / 32) + group % 4 := by
  unfold swizzle
  omega

theorem swizzledRow_swizzle (inside : group / 4 < blocks) : swizzledRow blocks (swizzle blocks n group) = n := by
  have within := swizzle_inside blocks n group
  have tile : swizzle blocks n group / 512 / blocks = n / 128 := by
    rw [swizzle_tile, Nat.mul_comm, Nat.mul_add_div (Nat.zero_lt_of_lt inside), Nat.div_eq_of_lt inside, Nat.add_zero]
  obtain ⟨high, middle, -⟩ := digits (x := n % 32) (y := n % 128 / 32) (z := group % 4) (by omega) (by omega)
  unfold swizzledRow
  rw [tile, within, high, middle]
  omega

theorem swizzledGroup_swizzle (inside : group / 4 < blocks) : swizzledGroup blocks (swizzle blocks n group) = group := by
  have within := swizzle_inside blocks n group
  have tile : swizzle blocks n group / 512 % blocks = group / 4 := by
    rw [swizzle_tile, Nat.mul_comm, Nat.mul_add_mod, Nat.mod_eq_of_lt inside]
  unfold swizzledGroup
  rw [tile, within, (digits (by omega) (by omega)).2.2, Nat.div_add_mod]

theorem swizzle_swizzled (blocks offset : Nat) :
    swizzle blocks (swizzledRow blocks offset) (swizzledGroup blocks offset) = offset := by
  have tile := Nat.div_add_mod (offset / 512) blocks
  obtain ⟨row, high, middle⟩ := row_digits (a := offset / 512 / blocks) (x := offset % 512 / 16)
    (y := offset % 512 % 16 / 4) (by omega) (by omega)
  have group : swizzledGroup blocks offset / 4 = offset / 512 % blocks := by
    unfold swizzledGroup
    omega
  have low : swizzledGroup blocks offset % 4 = offset % 512 % 4 := by
    unfold swizzledGroup
    omega
  unfold swizzle
  rw [group, low]
  unfold swizzledRow
  rw [row, high, middle, Nat.mul_comm _ blocks, tile]
  omega

theorem swizzle_lt (row : n < 128 * rows) (inside : group < 4 * blocks) :
    swizzle blocks n group < 512 * (rows * blocks) := by
  have tile : n / 128 * blocks + group / 4 < rows * blocks := by
    calc n / 128 * blocks + group / 4 < n / 128 * blocks + blocks := by omega
      _ = (n / 128 + 1) * blocks := by rw [Nat.succ_mul]
      _ ≤ rows * blocks := Nat.mul_le_mul_right _ (by omega)
  unfold swizzle
  omega

theorem swizzled_lt (inside : offset < 512 * (rows * blocks)) :
    swizzledRow blocks offset < 128 * rows ∧ swizzledGroup blocks offset < 4 * blocks := by
  have tile : offset / 512 < rows * blocks := Nat.div_lt_of_lt_mul inside
  have row : offset / 512 / blocks < rows := Nat.div_lt_of_lt_mul (by rwa [Nat.mul_comm])
  have group : offset / 512 % blocks < blocks := by
    refine Nat.mod_lt _ (Nat.pos_of_ne_zero ?_)
    rintro rfl
    simp at tile
  unfold swizzledRow swizzledGroup
  omega

end Swizzle

section Offsets

theorem scales_count (wholeN : paddedN % 128 = 0) (wholeK : paddedK % 64 = 0) :
    paddedN * paddedK / 16 = 512 * (paddedN / 128 * (paddedK / 64)) := by
  obtain ⟨rows, rfl⟩ := Nat.dvd_of_mod_eq_zero wholeN
  obtain ⟨blocks, rfl⟩ := Nat.dvd_of_mod_eq_zero wholeK
  rw [Nat.mul_div_cancel_left _ (by decide), Nat.mul_div_cancel_left _ (by decide),
    show 128 * rows * (64 * blocks) = 16 * (512 * (rows * blocks)) by ring]
  exact Nat.mul_div_cancel_left _ (by decide)

theorem scaleOffset_ok (wholeN : paddedN % 128 = 0) (wholeK : paddedK % 64 = 0)
    (small : paddedN * paddedK / 16 < 2 ^ 64) (row : n < paddedN) (inside : group < paddedK / 16) :
    scaleOffset n group paddedN paddedK = .ok (swizzle (paddedK / 64) n group) ∧
      swizzle (paddedK / 64) n group < paddedN * paddedK / 16 := by
  rw [scales_count wholeN wholeK] at small ⊢
  have bound : swizzle (paddedK / 64) n group < 512 * (paddedN / 128 * (paddedK / 64)) :=
    swizzle_lt (by omega) (by omega)
  refine ⟨?_, bound⟩
  unfold swizzle at bound
  have first : checkedMul 64 (n / 128) (paddedK / 64) = some (n / 128 * (paddedK / 64)) := if_pos (by omega)
  have second : checkedAdd 64 (n / 128 * (paddedK / 64)) (group / 4) =
      some (n / 128 * (paddedK / 64) + group / 4) := if_pos (by omega)
  have third : checkedMul 64 512 (n / 128 * (paddedK / 64) + group / 4) =
      some (512 * (n / 128 * (paddedK / 64) + group / 4)) := if_pos (by omega)
  unfold scaleOffset
  rw [if_neg (by omega), first]
  refine bind_eq_ok.mpr ⟨_, rfl, ?_⟩
  rw [second]
  refine bind_eq_ok.mpr ⟨_, rfl, ?_⟩
  rw [third]
  refine bind_eq_ok.mpr ⟨_, rfl, ?_⟩
  exact okOr_eq_ok.mpr (if_pos (by omega))

/-- The offsets of the scales of a padded matrix are the numbers below their count, each once. -/
theorem scaleOffset_bijective (wholeN : paddedN % 128 = 0) (wholeK : paddedK % 64 = 0)
    (small : paddedN * paddedK / 16 < 2 ^ 64) :
    ∃ offset : Nat × Nat → Nat,
      (∀ n < paddedN, ∀ group < paddedK / 16, scaleOffset n group paddedN paddedK = .ok (offset (n, group))) ∧
      Set.BijOn offset (Set.Iio paddedN ×ˢ Set.Iio (paddedK / 16)) (Set.Iio (paddedN * paddedK / 16)) := by
  have inverse : Set.InvOn (fun offset => (swizzledRow (paddedK / 64) offset, swizzledGroup (paddedK / 64) offset))
      (fun index => swizzle (paddedK / 64) index.1 index.2) (Set.Iio paddedN ×ˢ Set.Iio (paddedK / 16))
      (Set.Iio (paddedN * paddedK / 16)) := by
    refine ⟨?_, fun offset _ => swizzle_swizzled _ _⟩
    rintro ⟨n, group⟩ ⟨-, inside⟩
    have inside : group / 4 < paddedK / 64 := by
      rw [Set.mem_Iio] at inside
      omega
    exact Prod.ext (swizzledRow_swizzle inside) (swizzledGroup_swizzle inside)
  refine ⟨_, fun n row group inside => (scaleOffset_ok wholeN wholeK small row inside).1, inverse.bijOn ?_ ?_⟩
  · rintro ⟨n, group⟩ ⟨row, inside⟩
    exact (scaleOffset_ok wholeN wholeK small row inside).2
  · intro offset inside
    rw [scales_count wholeN wholeK] at inside
    obtain ⟨row, group⟩ := swizzled_lt inside
    exact ⟨show swizzledRow _ _ < paddedN by omega, show swizzledGroup _ _ < paddedK / 16 by omega⟩

theorem scaleOffset_bijective_fc1 : ∃ offset : Nat × Nat → Nat,
    (∀ n < 1024, ∀ group < 6144 / 16, scaleOffset n group 1024 6144 = .ok (offset (n, group))) ∧
    Set.BijOn offset (Set.Iio 1024 ×ˢ Set.Iio (6144 / 16)) (Set.Iio (1024 * 6144 / 16)) :=
  scaleOffset_bijective (by decide) (by decide) (by decide)

end Offsets

end Glmaxx.Proof.Format
