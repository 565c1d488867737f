import Glmaxx.Cache.Page

namespace Glmaxx.Format
open Library Cache

/-- The errors of `scale_offset`. -/
inductive Nvfp4Error where
  | overflow
  | scaleIndex
deriving DecidableEq, Repr

def scaleOffset (n group paddedN paddedK : Nat) : Except Nvfp4Error Nat :=
  if paddedN % 128 ≠ 0 ∨ paddedK % 64 ≠ 0 ∨ n ≥ paddedN ∨ group ≥ paddedK / 16 then .error .scaleIndex
  else do
    let rows ← okOr (checkedMul 64 (n / 128) (paddedK / 64)) .overflow
    let tile ← okOr (checkedAdd 64 rows (group / 4)) .overflow
    let start ← okOr (checkedMul 64 512 tile) .overflow
    okOr (checkedAdd 64 start (16 * (n % 32) + 4 * ((n % 128) / 32) + group % 4)) .overflow

end Glmaxx.Format
