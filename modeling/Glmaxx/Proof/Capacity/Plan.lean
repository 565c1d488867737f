import Glmaxx.Engine.Memory
import Glmaxx.Proof.Sequence.Runs

namespace Glmaxx.Proof.Capacity
open Std Library Cache Cache.SequencePageTable Engine Sequence

variable {slots : Nat} {input : RankMemoryInput} {inputs : List RankMemoryInput} {plan : SystemMemoryPlan}

variable {t : SequencePageTable} {rank : RankMemoryPlan} {config : PageTableConfig} {id : Nat} {load : Load}

section Arena

def tentativeLimit (rank : RankMemoryPlan) : Nat := if rank.mtpEnabled then 7 else 1

/-- The slots behind each arena: those committed, a page for each of 64 sequences, and their reservations. -/
structure Arena (rank : RankMemoryPlan) (config : PageTableConfig) : Prop where
  target : rank.targetCommittedSlots.toNat + 64 * (64 + tentativeLimit rank) ≤ 64 * config.targetPagesPerRank
  draft : rank.mtpEnabled = true →
    rank.draftCommittedSlots.toNat + 64 * (64 + tentativeLimit rank) ≤ 64 * config.draftPagesPerRank

theorem roundUpToPage_ok {rounded : Nat} (ok : roundUpToPage slots = .ok rounded) : slots ≤ rounded := by
  unfold roundUpToPage at ok
  split at ok
  · omega
  · obtain ⟨sum, added, rfl⟩ := Option.map_eq_some_iff.mp (okOr_eq_ok.mp ok)
    have := checkedAdd_some added
    grind

theorem arenaSlots_ok {committed slack tentative : UInt64}
    (ok : arenaSlots committed slack tentative = .ok slots) :
    committed.toNat + slack.toNat + tentative.toNat ≤ slots := by
  obtain ⟨requested, summed, rounded⟩ := bind_eq_ok.mp ok
  obtain ⟨sum, first, second⟩ := Option.bind_eq_some_iff.mp (okOr_eq_ok.mp summed)
  have := checkedAdd_some first
  have := checkedAdd_some second
  have := roundUpToPage_ok rounded
  omega

theorem slotPages_ok {pages : Nat} (ok : slotPages slots = .ok pages) : slots = 64 * pages := by
  unfold slotPages at ok
  split at ok
  · cases ok
  next aligned =>
    have := narrow_some (okOr_eq_ok.mp ok)
    grind

theorem targetFloors_ok (ok : RankMemoryPlan.targetFloors input = .ok ())
    (serving : input.profile.isServing = true) :
    64 * 64 ≤ input.targetPageSlackSlots.toNat ∧
      64 * (if input.mtpEnabled then 7 else 1) ≤ input.targetTentativeSlots.toNat := by
  unfold RankMemoryPlan.targetFloors at ok
  simp only [serving, true_and] at ok
  cases mtp : input.mtpEnabled with
  | false | true =>
    simp only [mtp, Bool.false_eq_true, if_false, if_true] at ok ⊢
    split at ok
    · cases ok
    split at ok
    · cases ok
    next slack =>
      simp only [minPageSlackSlotsPerRank, minMtp0TentativeSlotsPerRank, minMtpTentativeSlotsPerRank,
        maxActiveSequences, maxVerifierRows, pageTokens] at slack
      omega

theorem draftFloors_ok {targetSlots draftSlots : Nat}
    (ok : RankMemoryPlan.draftFloors input targetSlots draftSlots = .ok ())
    (serving : input.profile.isServing = true) (mtp : input.mtpEnabled = true) :
    64 * 64 ≤ input.draftPageSlackSlots.toNat ∧ 64 * 7 ≤ input.draftTentativeSlots.toNat := by
  unfold RankMemoryPlan.draftFloors at ok
  simp only [serving, mtp, true_and, if_true] at ok
  split at ok
  · cases ok
  split at ok
  · cases ok
  next slack =>
    simp only [minPageSlackSlotsPerRank, minMtpTentativeSlotsPerRank, maxActiveSequences, maxVerifierRows,
      pageTokens] at slack
    omega

/-- What `RankMemoryPlan::build` has checked of a serving rank. -/
theorem build_ok (ok : RankMemoryPlan.build input = .ok rank) (serving : rank.profile.isServing = true) :
    rank.targetCommittedSlots.toNat + 64 * (64 + tentativeLimit rank) ≤ rank.targetSlots ∧
      (rank.mtpEnabled = true →
        rank.draftCommittedSlots.toNat + 64 * (64 + tentativeLimit rank) ≤ rank.draftSlots) := by
  unfold RankMemoryPlan.build at ok
  split at ok
  · cases ok
  obtain ⟨targetSlots, target, ok⟩ := bind_eq_ok.mp ok
  obtain ⟨draftSlots, draft, ok⟩ := bind_eq_ok.mp ok
  obtain ⟨_, targetFloors, ok⟩ := bind_eq_ok.mp ok
  obtain ⟨_, draftFloors, ok⟩ := bind_eq_ok.mp ok
  obtain ⟨terms, -, ok⟩ := bind_eq_ok.mp ok
  obtain ⟨required, -, ok⟩ := bind_eq_ok.mp ok
  obtain ⟨headroom, -, ok⟩ := bind_eq_ok.mp ok
  cases ok
  have target := arenaSlots_ok target
  have draft := arenaSlots_ok draft
  have floors := targetFloors_ok targetFloors serving
  unfold tentativeLimit
  dsimp only
  refine ⟨by omega, fun mtp => ?_⟩
  have draftFloor := draftFloors_ok draftFloors serving mtp
  rw [if_pos mtp]
  omega

/-- What `plan_system_memory` has checked of the page table it describes, whichever rank one looks at. -/
theorem planSystemMemory_ok (ok : planSystemMemory inputs = .ok plan) :
    (∃ start, SequencePageTable.new plan.cacheArena.pageTableConfig = .ok start) ∧
      ∀ rank ∈ plan.ranks, (∃ input ∈ inputs, RankMemoryPlan.build input = .ok rank) ∧
        rank.targetSlots = 64 * plan.cacheArena.targetPagesPerRank ∧
        rank.draftSlots = 64 * plan.cacheArena.draftPagesPerRank := by
  unfold planSystemMemory at ok
  split at ok
  · cases ok
  obtain ⟨built, building, ok⟩ := bind_eq_ok.mp ok
  dsimp only at ok
  split at ok
  · cases ok
  obtain ⟨first, head, ok⟩ := bind_eq_ok.mp ok
  split at ok
  · cases ok
  split at ok
  · cases ok
  next shapes =>
  obtain ⟨aggregate, -, ok⟩ := bind_eq_ok.mp ok
  obtain ⟨headroom, -, ok⟩ := bind_eq_ok.mp ok
  obtain ⟨admitted, -, ok⟩ := bind_eq_ok.mp ok
  obtain ⟨targetPages, target, ok⟩ := bind_eq_ok.mp ok
  obtain ⟨draftPages, draft, ok⟩ := bind_eq_ok.mp ok
  split at ok
  · cases ok
  next accepted =>
  cases ok
  refine ⟨⟨_, if_neg accepted⟩, fun rank member => ⟨?_, ?_⟩⟩
  · have fromInput := (results_of_mapM_ok building).2 rank ((List.perm_insertionSort _ _).subset member)
    exact fromInput
  · have same : rank.arenaShape = first.arenaShape := by
      have ranks := List.head?_eq_some_iff.mp (okOr_eq_ok.mp head)
      obtain ⟨rest, split⟩ := ranks
      dsimp only at member
      rw [split] at member shapes
      simp only [List.drop_succ_cons, List.drop_zero, List.any_eq_true, decide_eq_true_eq, not_exists, not_and,
        Decidable.not_not] at shapes
      rcases List.mem_cons.mp member with rfl | other
      · rfl
      · exact shapes rank other
    have targetSlots : rank.targetSlots = first.targetSlots := congrArg ArenaShape.targetSlots same
    have draftSlots : rank.draftSlots = first.draftSlots := congrArg ArenaShape.draftSlots same
    exact ⟨targetSlots.trans (slotPages_ok target), draftSlots.trans (slotPages_ok draft)⟩

theorem plan_arena (ok : planSystemMemory inputs = .ok plan)
    (member : rank ∈ plan.ranks) (serving : rank.profile.isServing = true) :
    Arena rank plan.cacheArena.pageTableConfig := by
  obtain ⟨⟨input, -, built⟩, target, draft⟩ := (planSystemMemory_ok ok).2 rank member
  obtain ⟨targetFloor, draftFloor⟩ := build_ok built serving
  exact ⟨target ▸ targetFloor, fun mtp => draft ▸ draftFloor mtp⟩

end Arena

section Within

/-- The capacity a plan admits: what the sequences may ask of the arenas together. -/
structure Within (rank : RankMemoryPlan) (after : ExtTreeMap Nat Load) : Prop where
  sequences : after.size ≤ maxActiveSequences
  target : total after (fun _ load => load.committedTokens) ≤ 4 * rank.targetCommittedSlots.toNat
  draft : rank.mtpEnabled = true →
    total after (fun _ load => load.committedTokens) ≤ 4 * rank.draftCommittedSlots.toNat
  tentative : ∀ (id : Nat) (load : Load), after[id]? = some load → load.reservedTokens ≤ tentativeLimit rank
  plain : rank.mtpEnabled = false → ∀ (id : Nat) (load : Load), after[id]? = some load → load.mtp = false

theorem ordinalsOn_pageCount (lane : Fin 4) (tokens : Nat) :
    256 * ordinalsOn lane (pageCount tokens) ≤ tokens + 255 := by
  rw [ordinalsOn_eq]
  grind

theorem erase_loads (id : Nat) : (loads t).erase id = (t.sequences.erase id).map fun _ => loadOf := by
  apply ExtTreeMap.ext_getElem?
  intro j
  by_cases same : id = j
  · simp [same]
  · simp [ExtTreeMap.getElem?_erase, same, getElem?_loads]

theorem Within.pages_le (valid : Valid t) (within : Within rank ((loads t).insert id load)) (lane : Fin 4) :
    256 * (othersOn lane id t + ordinalsOn lane (pageCount (load.committedTokens + load.reservedTokens))) ≤
      total ((loads t).insert id load) (fun _ load => load.committedTokens) + 64 * (tentativeLimit rank + 255) := by
  have own : load.reservedTokens ≤ tentativeLimit rank := within.tentative id load (by simp)
  have each : ∀ (j : Nat) (sequence : Cache.Sequence), (t.sequences.erase id)[j]? = some sequence →
      256 * entriesOn lane sequence.pages ≤ sequence.committedTokens + (tentativeLimit rank + 255) := by
    intro j sequence found
    have other : id ≠ j := by
      rintro rfl
      simp at found
    have live : t.sequences[j]? = some sequence := by simpa [ExtTreeMap.getElem?_erase, other] using found
    have shape := valid.shape j sequence live
    have pending : reserved sequence ≤ tentativeLimit rank := by
      refine within.tentative j (loadOf sequence) ?_
      rw [getElem?_insert_ne other.symm, getElem?_loads, live]
      rfl
    rw [entriesOn_eq shape.entries, shape.length_eq]
    calc 256 * ordinalsOn lane (pageCount (sequence.committedTokens + reserved sequence))
      _ ≤ sequence.committedTokens + reserved sequence + 255 := ordinalsOn_pageCount lane _
      _ ≤ sequence.committedTokens + (tentativeLimit rank + 255) := by omega
  have others : 256 * othersOn lane id t ≤ total (t.sequences.erase id) (fun _ sequence => sequence.committedTokens) +
      (t.sequences.erase id).size * (tentativeLimit rank + 255) := mul_total_le _ each
  have size : ((loads t).insert id load).size = 1 + (t.sequences.erase id).size := by
    rw [size_eq_total, total_insert, ← size_eq_total, erase_loads, ExtTreeMap.size_map]
  have committed : total ((loads t).insert id load) (fun _ load => load.committedTokens) =
      load.committedTokens + total (t.sequences.erase id) (fun _ sequence => sequence.committedTokens) := by
    rw [total_insert, erase_loads, total_map]
    rfl
  have few := within.sequences
  rw [size] at few
  have slack : (t.sequences.erase id).size * (tentativeLimit rank + 255) + (tentativeLimit rank + 255) ≤
      64 * (tentativeLimit rank + 255) := by
    rw [← Nat.succ_mul]
    exact Nat.mul_le_mul_right _ (by simp only [maxActiveSequences] at few; omega)
  have share := ordinalsOn_pageCount lane (load.committedTokens + load.reservedTokens)
  rw [committed]
  omega

theorem Within.allows (valid : Valid t) (arena : Arena rank t.config)
    (within : Within rank ((loads t).insert id load)) :
    Allows t id load.mtp (pageCount (load.committedTokens + load.reservedTokens)) := by
  intro lane
  have pages := within.pages_le valid lane
  have target := within.target
  have targetArena := arena.target
  refine ⟨by omega, fun drafts => ?_⟩
  cases mtp : rank.mtpEnabled with
  | false =>
    have never := within.plain mtp id load (by simp)
    rw [drafts] at never
    cases never
  | true =>
    have draft := within.draft mtp
    have draftArena := arena.draft mtp
    omega

theorem call_roomy (valid : Valid t) {call : TableCall} (grows : Grows call) (affords : Affords t call) :
    (t.call call).1 ≠ .error .capacity := by
  intro refused
  cases call with
  | admitWithPrefix id mtp prefixPages =>
    exact (admitWithPrefix_leads valid id mtp prefixPages fun _ : True => affords).2.failure _ refused trivial
  | appendCommitted id tokenCount =>
    exact (appendCommitted_leads valid id tokenCount fun _ : True => affords).2.failure _ refused trivial
  | forkSequence source destination =>
    exact (forkSequence_leads valid source destination fun _ : True => affords).2.failure _ refused trivial
  | beginTentative id requested =>
    exact (beginTentative_leads valid id requested fun _ : True => affords).2.failure _ refused trivial
  | commitTentative | rollbackTentative | removeSequence | bindReuseQuarantine | acknowledgeReuseQuarantine =>
    exact grows.elim

/-- A serving plan has the pages for the capacity it admits. -/
theorem serving_plan_suffices (inputs : List RankMemoryInput) (plan : SystemMemoryPlan)
    (planned : planSystemMemory inputs = .ok plan) (rank : RankMemoryPlan) (member : rank ∈ plan.ranks)
    (serving : rank.profile.isServing = true) :
    ∃ start, SequencePageTable.new plan.cacheArena.pageTableConfig = .ok start ∧
      ∀ (calls : List TableCall) (call : TableCall), Grows call → Unquarantined (start.run calls) →
        Within rank (loadsAfter (start.run calls) call) →
        ((start.run calls).call call).1 ≠ .error .capacity := by
  obtain ⟨start, created⟩ := (planSystemMemory_ok planned).1
  refine ⟨start, created, fun calls call grows clear within => ?_⟩
  obtain ⟨valid, same⟩ := run_valid created calls
  have arena := plan_arena planned member serving
  refine call_roomy valid grows fun id load writes => ⟨clear, ?_⟩
  unfold loadsAfter at within
  rw [writes] at within
  exact within.allows valid (same ▸ arena)

def servingInput (rank : UInt8) : RankMemoryInput where
  rank := rank
  profile := .hybridServe
  mtpEnabled := true
  measuredUsableHbmBytes := 95 * 2 ^ 30
  weightBytes := 82 * 2 ^ 30
  moduleAndContextBytes := 1 * 2 ^ 30
  graphResidentBytes := 256 * 2 ^ 20
  maximumPrefillWorkspaceBytes := 512 * 2 ^ 20
  maximumVerifierWorkspaceBytes := 128 * 2 ^ 20
  collectiveBytes := 256 * 2 ^ 20
  stagingBytes := 256 * 2 ^ 20
  modelMetadataBytes := 64 * 2 ^ 20
  pageTableBytes := 64 * 2 ^ 20
  allocatorPaddingBytes := 256 * 2 ^ 20
  escrowBytes := 1 * 2 ^ 30
  targetCommittedSlots := 262144
  targetPageSlackSlots := 4096
  targetTentativeSlots := 448
  draftCommittedSlots := 262144
  draftPageSlackSlots := 4096
  draftTentativeSlots := 448

/-- The first append to a sequence that was admitted empty, on a plan that just meets the floors. -/
theorem servingPlan_append : ∃ plan rank start, planSystemMemory ([0, 1, 2, 3].map servingInput) = .ok plan ∧
    rank ∈ plan.ranks ∧ rank.profile.isServing = true ∧
    SequencePageTable.new plan.cacheArena.pageTableConfig = .ok start ∧
    Within rank (loadsAfter (start.run [.admitWithPrefix 1 true []]) (.appendCommitted 1 16384)) ∧
    ((start.run [.admitWithPrefix 1 true []]).call (.appendCommitted 1 16384)).1 ≠ .error .capacity := by
  have checked : (match planSystemMemory ([0, 1, 2, 3].map servingInput) with
      | .ok plan => plan.ranks.head?.any fun rank => rank.profile = .hybridServe ∧ rank.mtpEnabled = true ∧
          rank.targetCommittedSlots = 262144 ∧ rank.draftCommittedSlots = 262144
      | .error _ => false) = true := by rfl
  cases planned : planSystemMemory ([0, 1, 2, 3].map servingInput) with
  | error failure =>
    rw [planned] at checked
    cases checked
  | ok plan =>
    rw [planned] at checked
    obtain ⟨rank, head, profile, mtp, target, draft⟩ : ∃ rank, plan.ranks.head? = some rank ∧
        rank.profile = .hybridServe ∧ rank.mtpEnabled = true ∧ rank.targetCommittedSlots = 262144 ∧
        rank.draftCommittedSlots = 262144 := by
      cases head : plan.ranks.head? with
      | none => simp [head] at checked
      | some rank => exact ⟨rank, rfl, by simpa [head] using checked⟩
    have member := List.mem_of_head? head
    have serving : rank.profile.isServing = true := by rw [profile]; rfl
    obtain ⟨start, created, enough⟩ := serving_plan_suffices _ plan planned rank member serving
    have admitted : start.run [.admitWithPrefix 1 true []] =
        { start with sequences := (∅ : ExtTreeMap Nat Cache.Sequence).insert 1 ⟨true, 0, [], none⟩ } := by
      unfold SequencePageTable.new at created
      split at created
      · cases created
      · cases created
        simp [SequencePageTable.run, SequencePageTable.call, SequencePageTable.admitWithPrefix,
          SequencePageTable.requireUnboundQuarantine, transact, admitPages, checkedMul, okOr, bind, Except.bind,
          pure, Except.pure, maximumPages, pageTokens]
    have loaded : loadsAfter (start.run [.admitWithPrefix 1 true []]) (.appendCommitted 1 16384) =
        (∅ : ExtTreeMap Nat Load).insert 1 ⟨true, 16384, 0⟩ := by
      rw [admitted]
      apply ExtTreeMap.ext_getElem?
      intro j
      by_cases same : 1 = j
      · subst same
        simp [loadsAfter, written, reserved]
      · simp [loadsAfter, written, loads, same]
    have within : Within rank (loadsAfter (start.run [.admitWithPrefix 1 true []]) (.appendCommitted 1 16384)) := by
      have none : (∅ : ExtTreeMap Nat Load)[1]? = none := by simp
      have committed : total ((∅ : ExtTreeMap Nat Load).insert 1 ⟨true, 16384, 0⟩) (fun _ (load : Load) => load.committedTokens) =
          16384 := by
        rw [total_insert_new _ _ none, total_empty]
      rw [loaded]
      refine ⟨?_, ?_, ?_, ?_, ?_⟩
      · rw [size_eq_total, total_insert_new _ _ none, total_empty]
        decide
      · rw [committed, target]
        decide
      · intro _
        rw [committed, draft]
        decide
      · intro id load found
        obtain ⟨rfl, rfl⟩ : id = 1 ∧ load = ⟨true, 16384, 0⟩ := by
          by_cases same : 1 = id
          · subst same
            simpa [eq_comm] using found
          · simp [same] at found
        exact Nat.zero_le _
      · intro plain
        rw [mtp] at plain
        cases plain
    refine ⟨plan, rank, start, rfl, member, serving, created, within, enough _ _ trivial ?_ within⟩
    rw [admitted]
    unfold SequencePageTable.new at created
    split at created
    · cases created
    · cases created
      exact ⟨fun _ => rfl, fun _ => rfl⟩

end Within

end Glmaxx.Proof.Capacity
