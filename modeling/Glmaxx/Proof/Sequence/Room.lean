import Glmaxx.Proof.Sequence.Holding

namespace Glmaxx.Proof.Sequence
open Std Library Cache

variable {t t' : SequencePageTable} {held : List SequencePage} {rank : Fin 4}

section Ordinals

def ordinalsOn (rank : Fin 4) (n : Nat) : Nat := (List.range n).countP fun ordinal => ownerRank ordinal = rank

theorem ordinalsOn_succ (rank : Fin 4) (n : Nat) :
    ordinalsOn rank (n + 1) = ordinalsOn rank n + if ownerRank n = rank then 1 else 0 := by
  unfold ordinalsOn
  rw [List.range_succ, List.countP_append]
  simp [List.countP_cons]

theorem ordinalsOn_mono (rank : Fin 4) {m n : Nat} (le : m ≤ n) : ordinalsOn rank m ≤ ordinalsOn rank n := by
  induction n, le using Nat.le_induction with
  | base => exact le_rfl
  | succ n _ ih =>
    rw [ordinalsOn_succ]
    omega

theorem ordinalsOn_eq (rank : Fin 4) (n : Nat) : ordinalsOn rank n = (n + 3 - rank.val) / 4 := by
  induction n with
  | zero =>
    have small := rank.isLt
    simp only [ordinalsOn, List.range_zero, List.countP_nil]
    omega
  | succ n ih =>
    have small := rank.isLt
    have turn : ownerRank n = rank ↔ n % 4 = rank.val := by
      rw [Fin.ext_iff]
      rfl
    rw [ordinalsOn_succ, ih]
    split
    next here =>
      have := turn.mp here
      omega
    next elsewhere =>
      have := fun same => elsewhere (turn.mpr same)
      omega

end Ordinals

section Named

def entriesOn (rank : Fin 4) (pages : List SequencePage) : Nat :=
  pages.countP fun entry => entry.physical.ownerRank = rank

def namedOn (rank : Fin 4) (t : SequencePageTable) (held : List SequencePage) : Nat :=
  total t.sequences (fun _ sequence => entriesOn rank sequence.pages) + entriesOn rank held

theorem namedOn_congr (same : t'.sequences = t.sequences) : namedOn rank t' held = namedOn rank t held := by
  unfold namedOn
  rw [same]

def pagesOn (rank : Fin 4) (t : SequencePageTable) : Finset PhysicalPageId :=
  (t.physical.keys.filter fun p => p.ownerRank = rank).toFinset

theorem mem_pagesOn {p : PhysicalPageId} : p ∈ pagesOn rank t ↔ p ∈ t.physical ∧ p.ownerRank = rank := by
  simp [pagesOn, ExtTreeMap.mem_keys]

theorem card_pagesOn_le (holding : Holding t held) : (pagesOn rank t).card ≤ namedOn rank t held := by
  have each : ∀ pages : List SequencePage,
      ∑ p ∈ pagesOn rank t, nameCount pages p ≤ entriesOn rank pages := by
    intro pages
    induction pages with
    | nil => simp [nameCount, entriesOn]
    | cons entry rest ih =>
      simp only [nameCount_cons, Finset.sum_add_distrib, entriesOn, List.countP_cons] at ih ⊢
      refine Nat.add_le_add ih ?_
      rw [Finset.sum_ite_eq]
      split
      next member => simp [(mem_pagesOn.mp member).2]
      next => exact Nat.zero_le _
  have named : ∀ p ∈ pagesOn rank t, 1 ≤ names t held p := by
    intro p member
    obtain ⟨page, found⟩ := ExtTreeMap.mem_iff_isSome_getElem?.mp (mem_pagesOn.mp member).1 |> Option.isSome_iff_exists.mp
    exact (holding.pool.counted p page found).2
  calc (pagesOn rank t).card = ∑ p ∈ pagesOn rank t, 1 := by simp
    _ ≤ ∑ p ∈ pagesOn rank t, names t held p := Finset.sum_le_sum named
    _ = ∑ p ∈ pagesOn rank t, referenceCount t p + ∑ p ∈ pagesOn rank t, nameCount held p := by
      unfold names
      exact Finset.sum_add_distrib
    _ ≤ namedOn rank t held := by
      refine Nat.add_le_add ?_ (each held)
      unfold referenceCount
      have swap : ∑ p ∈ pagesOn rank t, total t.sequences (fun _ sequence => nameCount sequence.pages p) =
          total t.sequences fun _ sequence => ∑ p ∈ pagesOn rank t, nameCount sequence.pages p := by
        unfold total
        induction t.sequences.toList with
        | nil => simp
        | cons binding rest ih => simp [Finset.sum_add_distrib, ih]
      rw [swap]
      exact total_mono _ fun _ sequence => each sequence.pages

theorem freeTarget_nonempty (holding : Holding t held) (empty : t.quarantinedTarget rank = ∅)
    (room : namedOn rank t held < t.config.targetPagesPerRank) : (t.freeTarget rank).Nonempty := by
  by_contra none
  rw [Finset.not_nonempty_iff_eq_empty] at none
  have covered : (Finset.range t.config.targetPagesPerRank).image (fun id => (⟨rank, id⟩ : PhysicalPageId)) ⊆
      pagesOn rank t := by
    intro p member
    obtain ⟨id, inside, rfl⟩ := Finset.mem_image.mp member
    have used := (holding.pool.target_bound ⟨rank, id⟩).mp (Finset.mem_range.mp inside)
    simp only [none, empty, Finset.notMem_empty, false_or] at used
    exact mem_pagesOn.mpr ⟨used, rfl⟩
  have injective : Function.Injective fun id => (⟨rank, id⟩ : PhysicalPageId) := fun a b same => by
    injection same
  have count := Finset.card_le_card covered
  rw [Finset.card_image_of_injective _ injective, Finset.card_range] at count
  exact absurd (count.trans (card_pagesOn_le holding)) (by omega)

def draftedOn (rank : Fin 4) (t : SequencePageTable) : Finset PhysicalPageId :=
  (pagesOn rank t).filter fun p => (t.physical[p]?.bind (·.draftLocalPageId)).isSome

theorem card_drafts_le {drafts : Finset Nat}
    (each : ∀ draft ∈ drafts, holdsDraft t rank draft) : drafts.card ≤ (draftedOn rank t).card := by
  have draftOf : drafts ⊆ (draftedOn rank t).image fun p => ((t.physical[p]?.bind (·.draftLocalPageId)).getD 0) := by
    intro draft member
    obtain ⟨p, page, found, isRank, isDraft⟩ := each draft member
    refine Finset.mem_image.mpr ⟨p, Finset.mem_filter.mpr ⟨mem_pagesOn.mpr ⟨?_, isRank⟩, ?_⟩, ?_⟩
    · exact ExtTreeMap.mem_iff_isSome_getElem?.mpr (by rw [found]; rfl)
    · simp [found, isDraft]
    · simp [found, isDraft]
  exact (Finset.card_le_card draftOf).trans Finset.card_image_le

theorem freeDraft_nonempty (holding : Holding t held) (empty : t.quarantinedDraft rank = ∅) {without : Nat}
    (fewer : (draftedOn rank t).card + without ≤ (pagesOn rank t).card)
    (room : namedOn rank t held < t.config.draftPagesPerRank + without) : (t.freeDraft rank).Nonempty := by
  by_contra none
  rw [Finset.not_nonempty_iff_eq_empty] at none
  have all : ∀ draft ∈ Finset.range t.config.draftPagesPerRank, holdsDraft t rank draft := by
    intro draft inside
    have used := (holding.pool.draft_bound rank draft).mp (Finset.mem_range.mp inside)
    simpa only [none, empty, Finset.notMem_empty, false_or] using used
  have count := card_drafts_le all
  rw [Finset.card_range] at count
  have pages : (pagesOn rank t).card ≤ namedOn rank t held := card_pagesOn_le holding
  omega

end Named

section Refusals

structure Unquarantined (t : SequencePageTable) : Prop where
  target : ∀ rank, t.quarantinedTarget rank = ∅
  draft : ∀ rank, t.quarantinedDraft rank = ∅

def Roomy (rank : Fin 4) (mtp : Bool) (t : SequencePageTable) (held : List SequencePage) : Prop :=
  namedOn rank t held < t.config.targetPagesPerRank ∧
    (mtp = true → namedOn rank t held < t.config.draftPagesPerRank)

theorem popFirst_ne_none {ids : Finset Nat} (some : ids.Nonempty) : popFirst ids ≠ none := by
  unfold popFirst
  rw [dif_pos some]
  exact Option.some_ne_none _

def KeepsQuarantine (t t' : SequencePageTable) : Prop :=
  t'.quarantinedTarget = t.quarantinedTarget ∧ t'.quarantinedDraft = t.quarantinedDraft

theorem KeepsQuarantine.trans {a b c : SequencePageTable} (ab : KeepsQuarantine a b) (bc : KeepsQuarantine b c) :
    KeepsQuarantine a c := ⟨bc.1.trans ab.1, bc.2.trans ab.2⟩

theorem KeepsQuarantine.clear (keeps : KeepsQuarantine t t') (clear : Unquarantined t) : Unquarantined t' :=
  ⟨fun rank => by rw [keeps.1]; exact clear.target rank, fun rank => by rw [keeps.2]; exact clear.draft rank⟩

/-- How a call may fail when `room` says that it has the pages it needs. -/
def Refusal (room : Prop) : SequencePageError → Prop
  | .capacity => ¬room
  | failure => External failure

theorem Refusal.external {room : Prop} {failure : SequencePageError} (refusal : Refusal room failure) :
    External failure := by
  cases failure <;> trivial

end Refusals

end Glmaxx.Proof.Sequence
