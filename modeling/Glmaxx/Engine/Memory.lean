import Glmaxx.Engine.Graph

namespace Glmaxx.Engine
open Library Cache

def draftIndexerGroups : Nat := 1

def gib : Nat := 2 ^ 30
def minLocalCapacityTokens : Nat := 262144
def minEscrowBytes : Nat := gib
def minPageSlackSlotsPerRank : Nat := maxActiveSequences * pageTokens
def minMtp0TentativeSlotsPerRank : Nat := maxActiveSequences
def minMtpTentativeSlotsPerRank : Nat := maxVerifierRows

inductive ProfileClass where
  | nvfp4Laboratory
  | capacityExl3
  | hybridServe
deriving DecidableEq, Repr

def ProfileClass.isServing : ProfileClass → Bool
  | .capacityExl3 | .hybridServe => true
  | .nvfp4Laboratory => false

structure RankMemoryInput where
  rank : UInt8
  profile : ProfileClass
  mtpEnabled : Bool
  measuredUsableHbmBytes : UInt64
  weightBytes : UInt64
  moduleAndContextBytes : UInt64
  graphResidentBytes : UInt64
  maximumPrefillWorkspaceBytes : UInt64
  maximumVerifierWorkspaceBytes : UInt64
  collectiveBytes : UInt64
  stagingBytes : UInt64
  modelMetadataBytes : UInt64
  pageTableBytes : UInt64
  allocatorPaddingBytes : UInt64
  escrowBytes : UInt64
  targetCommittedSlots : UInt64
  targetPageSlackSlots : UInt64
  targetTentativeSlots : UInt64
  draftCommittedSlots : UInt64
  draftPageSlackSlots : UInt64
  draftTentativeSlots : UInt64
deriving DecidableEq, Repr

structure MemoryTerms where
  weights : Nat
  modulesAndContexts : Nat
  graphs : Nat
  maximumWorkspace : Nat
  collectives : Nat
  staging : Nat
  targetKv : Nat
  targetIndexerKeys : Nat
  draftKv : Nat
  draftIndexerKeys : Nat
  modelMetadata : Nat
  pageTables : Nat
  allocatorPadding : Nat
  escrow : Nat
deriving DecidableEq, Repr

inductive MemoryPlanError where
  | rank
  | rankCount
  | rankSet
  | profileMismatch
  | arenaMismatch
  | pageTableConfig
  | servingFloor
  | targetSlackFloor
  | draftFloor
  | draftSlackFloor
  | draftCapacity
  | unexpectedDraft
  | pageAlignment
  | overflow
  | doesNotFit (rank : UInt8) (required available : Nat)
deriving DecidableEq, Repr

/-- A fold of `checked_add` over `u64` values. -/
def sumU64 (values : List Nat) : Except MemoryPlanError Nat :=
  values.foldlM (fun sum term => okOr (checkedAdd 64 sum term) .overflow) 0

def MemoryTerms.required (terms : MemoryTerms) : Except MemoryPlanError Nat :=
  sumU64 [terms.weights, terms.modulesAndContexts, terms.graphs, terms.maximumWorkspace, terms.collectives,
    terms.staging, terms.targetKv, terms.targetIndexerKeys, terms.draftKv, terms.draftIndexerKeys,
    terms.modelMetadata, terms.pageTables, terms.allocatorPadding, terms.escrow]

structure RankMemoryPlan where
  rank : UInt8
  profile : ProfileClass
  mtpEnabled : Bool
  measuredUsableHbmBytes : UInt64
  targetCommittedSlots : UInt64
  targetPageSlackSlots : UInt64
  targetTentativeSlots : UInt64
  targetSlots : Nat
  draftCommittedSlots : UInt64
  draftPageSlackSlots : UInt64
  draftTentativeSlots : UInt64
  draftSlots : Nat
  terms : MemoryTerms
  requiredBytes : Nat
  headroomBytes : Nat
deriving DecidableEq, Repr

def bytesFor (slots groups bytes : Nat) : Except MemoryPlanError Nat :=
  okOr ((checkedMul 64 slots groups).bind (checkedMul 64 · bytes)) .overflow

def roundUpToPage (slots : Nat) : Except MemoryPlanError Nat :=
  if slots = 0 then .ok 0
  else okOr ((checkedAdd 64 slots (pageTokens - 1)).map fun value => value / pageTokens * pageTokens) .overflow

def slotPages (slots : Nat) : Except MemoryPlanError Nat :=
  if slots % pageTokens ≠ 0 then .error .pageAlignment else okOr (narrow 32 (slots / pageTokens)) .overflow

/-- The slots of one arena: committed, slack and tentative, in whole pages. -/
def arenaSlots (committed slack tentative : UInt64) : Except MemoryPlanError Nat := do
  let requested ← okOr ((checkedAdd 64 committed.toNat slack.toNat).bind (checkedAdd 64 · tentative.toNat)) .overflow
  roundUpToPage requested

/-- What the four ranks must agree on. -/
structure ArenaShape where
  targetCommittedSlots : UInt64
  targetPageSlackSlots : UInt64
  targetTentativeSlots : UInt64
  targetSlots : Nat
  draftCommittedSlots : UInt64
  draftPageSlackSlots : UInt64
  draftTentativeSlots : UInt64
  draftSlots : Nat
deriving DecidableEq, Repr

namespace RankMemoryPlan

def targetFloors (input : RankMemoryInput) : Except MemoryPlanError Unit :=
  let minimumTargetTentative := if input.mtpEnabled then minMtpTentativeSlotsPerRank else minMtp0TentativeSlotsPerRank
  if input.profile.isServing ∧ (input.targetCommittedSlots.toNat < minLocalCapacityTokens
      ∨ input.escrowBytes.toNat < minEscrowBytes) then .error .servingFloor
  else if input.profile.isServing ∧ (input.targetPageSlackSlots.toNat < minPageSlackSlotsPerRank
      ∨ input.targetTentativeSlots.toNat < minimumTargetTentative) then .error .targetSlackFloor
  else .ok ()

def draftFloors (input : RankMemoryInput) (targetSlots draftSlots : Nat) : Except MemoryPlanError Unit :=
  if input.mtpEnabled then
    if input.profile.isServing ∧ input.draftCommittedSlots.toNat < minLocalCapacityTokens then .error .draftFloor
    else if input.profile.isServing ∧ (input.draftPageSlackSlots.toNat < minPageSlackSlotsPerRank
        ∨ input.draftTentativeSlots.toNat < minMtpTentativeSlotsPerRank) then .error .draftSlackFloor
    else if draftSlots > targetSlots then .error .draftCapacity
    else .ok ()
  else if draftSlots ≠ 0 then .error .unexpectedDraft
  else .ok ()

def termsOf (input : RankMemoryInput) (targetSlots draftSlots : Nat) : Except MemoryPlanError MemoryTerms := do
  let targetKv ← bytesFor targetSlots targetLayers kvRecordBytes
  let targetIndexerKeys ← bytesFor targetSlots indexerGroups indexerRecordBytes
  let draftKv ← if input.mtpEnabled then bytesFor draftSlots 1 kvRecordBytes else .ok 0
  let draftIndexerKeys ← if input.mtpEnabled then bytesFor draftSlots draftIndexerGroups indexerRecordBytes else .ok 0
  .ok { weights := input.weightBytes.toNat
        modulesAndContexts := input.moduleAndContextBytes.toNat
        graphs := input.graphResidentBytes.toNat
        maximumWorkspace := max input.maximumPrefillWorkspaceBytes.toNat input.maximumVerifierWorkspaceBytes.toNat
        collectives := input.collectiveBytes.toNat
        staging := input.stagingBytes.toNat
        targetKv, targetIndexerKeys, draftKv, draftIndexerKeys
        modelMetadata := input.modelMetadataBytes.toNat
        pageTables := input.pageTableBytes.toNat
        allocatorPadding := input.allocatorPaddingBytes.toNat
        escrow := input.escrowBytes.toNat }

def build (input : RankMemoryInput) : Except MemoryPlanError RankMemoryPlan :=
  if input.rank ≥ 4 then .error .rank
  else do
    let targetSlots ← arenaSlots input.targetCommittedSlots input.targetPageSlackSlots input.targetTentativeSlots
    let draftSlots ← arenaSlots input.draftCommittedSlots input.draftPageSlackSlots input.draftTentativeSlots
    targetFloors input
    draftFloors input targetSlots draftSlots
    let terms ← termsOf input targetSlots draftSlots
    let requiredBytes ← terms.required
    let headroomBytes ← okOr (checkedSub input.measuredUsableHbmBytes.toNat requiredBytes)
      (.doesNotFit input.rank requiredBytes input.measuredUsableHbmBytes.toNat)
    .ok { rank := input.rank
          profile := input.profile
          mtpEnabled := input.mtpEnabled
          measuredUsableHbmBytes := input.measuredUsableHbmBytes
          targetCommittedSlots := input.targetCommittedSlots
          targetPageSlackSlots := input.targetPageSlackSlots
          targetTentativeSlots := input.targetTentativeSlots
          targetSlots
          draftCommittedSlots := input.draftCommittedSlots
          draftPageSlackSlots := input.draftPageSlackSlots
          draftTentativeSlots := input.draftTentativeSlots
          draftSlots, terms, requiredBytes, headroomBytes }

def arenaShape (plan : RankMemoryPlan) : ArenaShape :=
  ⟨plan.targetCommittedSlots, plan.targetPageSlackSlots, plan.targetTentativeSlots, plan.targetSlots,
    plan.draftCommittedSlots, plan.draftPageSlackSlots, plan.draftTentativeSlots, plan.draftSlots⟩

end RankMemoryPlan

structure CacheArenaLayout where
  pageTokens : Nat
  targetPagesPerRank : Nat
  draftPagesPerRank : Nat
  targetSlotsPerRank : Nat
  draftSlotsPerRank : Nat
deriving DecidableEq, Repr

def CacheArenaLayout.pageTableConfig (layout : CacheArenaLayout) : PageTableConfig :=
  ⟨layout.targetPagesPerRank, layout.draftPagesPerRank⟩

structure SystemMemoryPlan where
  ranks : List RankMemoryPlan
  cacheArena : CacheArenaLayout
  aggregateRequiredBytes : Nat
  minimumRankHeadroomBytes : Nat
  admittedLocalCommittedSlots : Nat
deriving DecidableEq, Repr

def planSystemMemory (inputs : List RankMemoryInput) : Except MemoryPlanError SystemMemoryPlan :=
  if inputs.length ≠ 4 then .error .rankCount
  else do
    let built ← inputs.mapM RankMemoryPlan.build
    let ranks := built.insertionSort fun a b => a.rank ≤ b.rank
    if (ranks.map (·.rank)).toFinset ≠ {0, 1, 2, 3} then .error .rankSet
    else do
      let first ← okOr ranks.head? .rankCount
      if ranks.any (fun plan => plan.profile ≠ first.profile ∨ plan.mtpEnabled ≠ first.mtpEnabled) then
        .error .profileMismatch
      else if (ranks.drop 1).any (fun plan => plan.arenaShape ≠ first.arenaShape) then .error .arenaMismatch
      else do
        let aggregateRequiredBytes ← sumU64 (ranks.map (·.requiredBytes))
        let minimumRankHeadroomBytes ← okOr (ranks.map (·.headroomBytes)).min? .rankCount
        let admittedLocalCommittedSlots ← okOr (ranks.map (·.targetCommittedSlots.toNat)).min? .rankCount
        let targetPagesPerRank ← slotPages first.targetSlots
        let draftPagesPerRank ← slotPages first.draftSlots
        if targetPagesPerRank = 0 ∨ targetPagesPerRank > maximumPhysicalPagesPerRank
            ∨ draftPagesPerRank > targetPagesPerRank then .error .pageTableConfig
        else
          .ok ⟨ranks, ⟨pageTokens, targetPagesPerRank, draftPagesPerRank, first.targetSlots, first.draftSlots⟩,
            aggregateRequiredBytes, minimumRankHeadroomBytes, admittedLocalCommittedSlots⟩

end Glmaxx.Engine
