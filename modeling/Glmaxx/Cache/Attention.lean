import Mathlib

namespace Glmaxx.Cache

/-- `S` stands for `f32` under `total_cmp`. -/
structure Candidate (S : Type) where
  position : UInt64
  score : S
deriving DecidableEq, Repr

inductive AttentionError where
  | topK
  | duplicatePosition
  | nonFinite
deriving DecidableEq, Repr

variable {S : Type} [LinearOrder S]

/-- The order of `sort_by`: score descending, then position ascending. -/
def Candidate.precedes (left right : Candidate S) : Bool :=
  match compare right.score left.score with
  | .lt => true
  | .gt => false
  | .eq => left.position ≤ right.position

def checkCandidates (isFinite : S → Bool) :
    List (Candidate S) → Finset UInt64 → Except AttentionError Unit
  | [], _ => .ok ()
  | candidate :: rest, positions =>
    if isFinite candidate.score = false then .error .nonFinite
    else if candidate.position ∈ positions then .error .duplicatePosition
    else checkCandidates isFinite rest (insert candidate.position positions)

def deterministicTopK (isFinite : S → Bool) (candidates : List (Candidate S)) (k : Nat) :
    Except AttentionError (List (Candidate S)) :=
  if k = 0 then .error .topK
  else do
    checkCandidates isFinite candidates ∅
    .ok ((candidates.mergeSort Candidate.precedes).take k)

end Glmaxx.Cache
