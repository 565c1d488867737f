import Glmaxx.Library.Outcome
import Glmaxx.Library.Selection
import Glmaxx.Cache.Attention

namespace Glmaxx.Proof.Attention
open Library Cache

variable {S : Type} {isFinite : S → Bool} {k : Nat} {candidates others : List (Candidate S)}

section Order

def rankOf (candidate : Candidate S) : Sᵒᵈ ×ₗ Nat :=
  toLex (OrderDual.toDual candidate.score, candidate.position.toNat)

theorem rankOf_injective : Function.Injective (rankOf (S := S)) := by
  rintro ⟨position, score⟩ ⟨position', score'⟩ same
  have pair := congrArg ofLex same
  simp only [rankOf, ofLex_toLex, Prod.mk.injEq, OrderDual.toDual_inj, UInt64.toNat_inj] at pair
  rw [pair.1, pair.2]

variable [LinearOrder S]

instance : LinearOrder (Candidate S) := LinearOrder.lift' rankOf rankOf_injective

theorem precedes_eq (left right : Candidate S) : left.precedes right = decide (left ≤ right) := by
  have lex : left ≤ right ↔ right.score < left.score ∨ left.score = right.score ∧ left.position ≤ right.position := by
    show rankOf left ≤ rankOf right ↔ _
    rw [Prod.Lex.le_iff]
    exact Iff.rfl
  unfold Candidate.precedes
  rw [Bool.eq_iff_iff, decide_eq_true_eq, lex]
  cases order : compare right.score left.score with
  | lt => simp [compare_lt_iff_lt.mp order]
  | gt =>
    have greater := compare_gt_iff_gt.mp order
    simp [greater.ne, greater.not_gt]
  | eq =>
    have same := compare_eq_iff_eq.mp order
    simp [same]

end Order

section Check

structure Selectable (isFinite : S → Bool) (candidates : List (Candidate S)) : Prop where
  distinct : (candidates.map (·.position)).Nodup
  finite : ∀ candidate ∈ candidates, isFinite candidate.score = true

theorem checkCandidates_iff (positions : Finset UInt64) : checkCandidates isFinite candidates positions = .ok () ↔
    Selectable isFinite candidates ∧ ∀ candidate ∈ candidates, candidate.position ∉ positions := by
  induction candidates generalizing positions with
  | nil => exact ⟨fun _ => ⟨⟨List.nodup_nil, by simp⟩, by simp⟩, fun _ => rfl⟩
  | cons candidate rest ih =>
    unfold checkCandidates
    split
    next infinite =>
      refine ⟨fun impossible => (by cases impossible), fun accepted => ?_⟩
      have finite := accepted.1.finite candidate (List.mem_cons_self ..)
      rw [infinite] at finite
      cases finite
    next finite =>
      split
      next seen =>
        refine ⟨fun impossible => (by cases impossible), fun accepted => ?_⟩
        exact absurd seen (accepted.2 candidate (List.mem_cons_self ..))
      next unseen =>
        rw [ih]
        constructor
        · rintro ⟨⟨distinct, allFinite⟩, fresh⟩
          refine ⟨⟨List.nodup_cons.mpr ⟨?_, distinct⟩, ?_⟩, ?_⟩
          · intro member
            obtain ⟨other, isOther, same⟩ := List.mem_map.mp member
            exact fresh other isOther (same ▸ Finset.mem_insert_self _ _)
          · exact List.forall_mem_cons.mpr ⟨Bool.eq_true_of_not_eq_false finite, allFinite⟩
          · exact List.forall_mem_cons.mpr
              ⟨unseen, fun other isOther => fun seen => fresh other isOther (Finset.mem_insert_of_mem seen)⟩
        · rintro ⟨⟨distinct, allFinite⟩, fresh⟩
          obtain ⟨first, distinct⟩ := List.nodup_cons.mp distinct
          refine ⟨⟨distinct, (List.forall_mem_cons.mp allFinite).2⟩, fun other isOther seen => ?_⟩
          rcases Finset.mem_insert.mp seen with same | seen
          · exact first (List.mem_map.mpr ⟨other, isOther, same⟩)
          · exact (List.forall_mem_cons.mp fresh).2 other isOther seen

section
variable (selectable : Selectable isFinite candidates)
include selectable

theorem Selectable.perm (same : candidates.Perm others) : Selectable isFinite others :=
  ⟨(same.map _).nodup_iff.mp selectable.distinct,
    fun candidate member => selectable.finite candidate (same.mem_iff.mpr member)⟩

theorem Selectable.nodup : candidates.Nodup :=
  selectable.distinct.of_map _

theorem Selectable.subset (inside : others ⊆ candidates)
    (unique : others.Nodup) : Selectable isFinite others := by
  refine ⟨?_, fun candidate member => selectable.finite candidate (inside member)⟩
  refine (List.nodup_map_iff_inj_on unique).mpr fun first here second there same => ?_
  exact List.inj_on_of_nodup_map selectable.distinct (inside here) (inside there) same

end

end Check

section Selection
variable [LinearOrder S]

theorem deterministicTopK_eq (positive : 1 ≤ k) (selectable : Selectable isFinite candidates) :
    deterministicTopK isFinite candidates k = .ok (best k candidates) := by
  have checked : checkCandidates isFinite candidates ∅ = .ok () :=
    (checkCandidates_iff ∅).mpr ⟨selectable, by simp⟩
  have order : Candidate.precedes (S := S) = fun a b => decide (a ≤ b) := by
    funext left right
    exact precedes_eq left right
  unfold deterministicTopK
  rw [if_neg (by omega), checked, order]
  rfl

theorem deterministicTopK_error (refused : ¬(1 ≤ k ∧ Selectable isFinite candidates)) :
    ∃ failure, deterministicTopK isFinite candidates k = .error failure := by
  unfold deterministicTopK
  split
  · exact ⟨_, rfl⟩
  next nonzero =>
    cases checked : checkCandidates isFinite candidates ∅ with
    | error failure => exact ⟨failure, rfl⟩
    | ok =>
      have selectable := ((checkCandidates_iff ∅).mp checked).1
      exact absurd ⟨by omega, selectable⟩ refused

end Selection

/-- The owners' selections, exchanged in any order, select what the whole list selects; and a selection
does not depend on the order of the candidates, nor does whether there is one. -/
theorem distributed_topK {S : Type} [LinearOrder S] (isFinite : S → Bool) :
    (∀ (k : Nat) (whole : List (Candidate S)), 1 ≤ k → (whole.map (·.position)).Nodup →
      (∀ candidate ∈ whole, isFinite candidate.score = true) →
      (∀ owners : List (List (Candidate S)), owners.flatten.Perm whole →
        ∃ selected, owners.mapM (deterministicTopK isFinite · k) = .ok selected ∧
          ∀ exchanged, exchanged.Perm selected.flatten →
            deterministicTopK isFinite exchanged k = deterministicTopK isFinite whole k) ∧
      ∀ reordered, reordered.Perm whole →
        deterministicTopK isFinite reordered k = deterministicTopK isFinite whole k) ∧
    ∀ (k : Nat) (candidates reordered : List (Candidate S)), reordered.Perm candidates →
      (deterministicTopK isFinite reordered k).toOption = (deterministicTopK isFinite candidates k).toOption := by
  have ordered (k : Nat) (candidates reordered : List (Candidate S)) (positive : 1 ≤ k)
      (selectable : Selectable isFinite candidates) (same : reordered.Perm candidates) :
      deterministicTopK isFinite reordered k = deterministicTopK isFinite candidates k := by
    rw [deterministicTopK_eq positive selectable, deterministicTopK_eq positive (selectable.perm same.symm),
      best_perm same (selectable.perm same.symm).nodup]
  refine ⟨fun k whole positive distinct finite => ⟨?_, fun reordered same => ?_⟩, ?_⟩
  · intro owners split
    have selectable : Selectable isFinite owners.flatten := Selectable.perm ⟨distinct, finite⟩ split.symm
    have unique := selectable.nodup
    refine ⟨owners.map (best k), mapM_ok_of_forall owners fun owner isOwner => ?_, fun exchanged same => ?_⟩
    · have own := (List.nodup_flatten.mp unique).1 owner isOwner
      exact deterministicTopK_eq positive
        (selectable.subset (fun _ member => List.mem_flatten.mpr ⟨owner, isOwner, member⟩) own)
    · have inside : (owners.map (best k)).flatten ⊆ owners.flatten := by
        intro candidate member
        obtain ⟨_, isPart, inPart⟩ := List.mem_flatten.mp member
        obtain ⟨owner, isOwner, rfl⟩ := List.mem_map.mp isPart
        exact List.mem_flatten.mpr ⟨owner, isOwner, mem_of_mem_best inPart⟩
      have selected := selectable.subset inside (selected_nodup unique)
      rw [ordered k _ _ positive selected same, ← ordered k _ _ positive ⟨distinct, finite⟩ split,
        deterministicTopK_eq positive selected, deterministicTopK_eq positive selectable, best_flatten unique]
  · exact ordered k whole reordered positive ⟨distinct, finite⟩ same
  · intro k candidates reordered same
    by_cases accepted : 1 ≤ k ∧ Selectable isFinite candidates
    · rw [ordered k candidates reordered accepted.1 accepted.2 same]
    · have refused : ¬(1 ≤ k ∧ Selectable isFinite reordered) := fun both => accepted ⟨both.1, both.2.perm same⟩
      obtain ⟨failure, failed⟩ := deterministicTopK_error accepted
      obtain ⟨failure', failed'⟩ := deterministicTopK_error refused
      rw [failed, failed']
      rfl

def sampleOwners : List (List (Candidate Int)) :=
  [[⟨0, 5⟩, ⟨4, 9⟩, ⟨8, 7⟩], [⟨1, 9⟩], [], [⟨3, -2⟩, ⟨7, 7⟩]]

/-- Ties within and across owners, an owner with too few candidates and one with none. -/
theorem sampleOwners_topK : ∃ selected, sampleOwners.mapM (deterministicTopK (fun _ => true) · 2) = .ok selected ∧
    deterministicTopK (fun _ => true) selected.flatten.reverse 2 =
      deterministicTopK (fun _ => true) sampleOwners.flatten 2 := by
  obtain ⟨selected, chosen, agree⟩ := ((distributed_topK fun _ : Int => true).1 2 sampleOwners.flatten
    (by decide) (by decide) (fun _ _ => rfl)).1 sampleOwners (List.Perm.refl _)
  exact ⟨selected, chosen, agree _ (List.reverse_perm _)⟩

end Glmaxx.Proof.Attention
