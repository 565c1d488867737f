import Glmaxx.Engine.Step
import Glmaxx.Scheduling.Batching

namespace Glmaxx.Scheduling
open Std Library Cache Engine

structure RouteCatalog where
  tpRouteId : UInt16
  dcpCkvRouteId : UInt16
  dcpQueryRouteId : UInt16
  dcpCandidateRouteId : UInt16
  dcpPartialRouteId : UInt16
  greedyRouteId : UInt16
  topKRouteId : UInt16
  massRouteId : UInt16
  packedCkvBytesPerRow : UInt32
  queryBytesPerRow : UInt32
  candidateBytesPerRow : UInt32
  partialStateBytesPerRow : UInt32
  tpReduceBytesPerRow : UInt32
  greedyBytesPerRow : UInt32
  topKBytesPerRow : UInt32
  massBytesPerRow : UInt32
deriving DecidableEq, Repr

inductive CompileError where
  | epoch
  | catalog
  | batch
  | graph
  | route
  | sampling
  | overflow
  | plan (failure : PlanError)
deriving DecidableEq, Repr

namespace RouteCatalog

def routes (catalog : RouteCatalog) : List UInt16 :=
  [catalog.tpRouteId, catalog.dcpCkvRouteId, catalog.dcpQueryRouteId, catalog.dcpCandidateRouteId,
    catalog.dcpPartialRouteId, catalog.greedyRouteId, catalog.topKRouteId, catalog.massRouteId]

def payloads (catalog : RouteCatalog) : List UInt32 :=
  [catalog.packedCkvBytesPerRow, catalog.queryBytesPerRow, catalog.candidateBytesPerRow,
    catalog.partialStateBytesPerRow, catalog.tpReduceBytesPerRow, catalog.greedyBytesPerRow,
    catalog.topKBytesPerRow, catalog.massBytesPerRow]

def validate (catalog : RouteCatalog) : Except CompileError Unit :=
  if 0 ∈ catalog.routes ∨ 0 ∈ catalog.payloads then .error .catalog else .ok ()

end RouteCatalog

structure CompiledStep where
  plan : StepPlan
  schedule : CollectiveSchedule
deriving DecidableEq

structure StepPlanCompiler where
  epoch : UInt64
  routes : RouteCatalog
deriving DecidableEq, Repr

def scaled (bytesPerRow : UInt32) (rows : Nat) : Except CompileError Nat :=
  okOr (checkedMul 32 bytesPerRow.toNat rows) .overflow

/-- The next operation of the schedule, for `rows` rows. -/
def pushOperation (operations : List CollectiveOp) (kind : CollectiveKind) (routeId : UInt16) (bytesPerRow : UInt32)
    (rows : Nat) : Except CompileError (List CollectiveOp) := do
  let payloadBytes ← scaled bytesPerRow rows
  let ordinal ← okOr (narrow 16 operations.length) .overflow
  .ok (operations ++ [⟨ordinal, kind, routeId, payloadBytes, tpRankMask⟩])

def isDcp : CollectiveKind → Bool
  | .dcpPackedCkv | .dcpQueryGather | .dcpCandidateExchange | .dcpPartialStateReturn => true
  | _ => false

namespace StepPlanCompiler

def new (epoch : UInt64) (routes : RouteCatalog) : Except CompileError StepPlanCompiler :=
  if epoch = 0 then .error .epoch
  else do
    routes.validate
    .ok ⟨epoch, routes⟩

def attentionOperations (routes : RouteCatalog) (rows : Nat) :
    AttentionTransport → Except CompileError (List CollectiveOp)
  | .prefillCkv => pushOperation [] .dcpPackedCkv routes.dcpCkvRouteId routes.packedCkvBytesPerRow rows
  | .prefillQuery => do
    let operations ← pushOperation [] .dcpQueryGather routes.dcpQueryRouteId routes.queryBytesPerRow rows
    pushOperation operations .dcpPartialStateReturn routes.dcpPartialRouteId routes.partialStateBytesPerRow rows
  | .decodeQueryLse => do
    let operations ← pushOperation [] .dcpQueryGather routes.dcpQueryRouteId routes.queryBytesPerRow rows
    let operations ←
      pushOperation operations .dcpCandidateExchange routes.dcpCandidateRouteId routes.candidateBytesPerRow rows
    pushOperation operations .dcpPartialStateReturn routes.dcpPartialRouteId routes.partialStateBytesPerRow rows
  | .none => .error .graph

def samplingRoute (routes : RouteCatalog) : SamplingCollective → CollectiveKind × UInt16 × UInt32
  | .greedy => (.logitsArgmax, routes.greedyRouteId, routes.greedyBytesPerRow)
  | .topK => (.logitsTopK, routes.topKRouteId, routes.topKBytesPerRow)
  | .mass => (.logitsMass, routes.massRouteId, routes.massBytesPerRow)

def operationsOf (routes : RouteCatalog) (batch : ScheduledBatch) (mode : StepMode) (transport : AttentionTransport) :
    Except CompileError (List CollectiveOp × UInt16) := do
  let operations ← attentionOperations routes batch.queryRows transport
  let operations ← pushOperation operations .tpReduce routes.tpRouteId routes.tpReduceBytesPerRow batch.queryRows
  if mode = .prefill then .ok (operations, 0)
  else do
    let (kind, route, bytes) := samplingRoute routes batch.sampling
    let operations ← pushOperation operations kind route bytes batch.queryRows
    .ok (operations, route)

def dcpRoute (routes : RouteCatalog) : AttentionTransport → Except CompileError UInt16
  | .prefillCkv => .ok routes.dcpCkvRouteId
  | .prefillQuery | .decodeQueryLse => .ok routes.dcpQueryRouteId
  | .none => .error .graph

def modeOf : BatchKind → StepMode × Nat
  | .prefill => (.prefill, 0)
  | .decode => (.decode, 0)
  | .verify depth => (.verify, depth)

def compile (sha256 : List UInt8 → Bytes32) (compiler : StepPlanCompiler) (batch : ScheduledBatch) (entry : GraphEntry)
    (sequenceTableGeneration : UInt64) : Except CompileError CompiledStep :=
  let routes := compiler.routes
  let (mode, mtpDepth) := modeOf batch.kind
  if sequenceTableGeneration = 0 ∨ batch.rows = [] ∨ batch.graphId ≠ entry.graphId then .error .batch
  else if entry.key.mode ≠ mode ∨ entry.key.mtpDepth.toNat ≠ mtpDepth then .error .graph
  else if mode = .prefill ∧ batch.sampling ≠ .greedy then .error .sampling
  else do
    let (operations, samplingRouteId) ← operationsOf routes batch mode entry.key.attentionTransport
    let dcpRouteId ← dcpRoute routes entry.key.attentionTransport
    if routes.tpRouteId ∉ entry.compatibleTpRoutes
        ∨ (operations.filter fun operation => isDcp operation.kind).any
          (fun operation => operation.routeId ∉ entry.compatibleDcpRoutes)
        ∨ (samplingRouteId ≠ 0 ∧ samplingRouteId ∉ entry.compatibleSamplingRoutes) then .error .route
    else do
      let activeSequences ← okOr (narrow 16 batch.rows.length) .overflow
      let schedule ← (CollectiveSchedule.new sha256 operations).mapError .plan
      let plan ← (StepPlan.build sha256
        { epoch := compiler.epoch
          stepId := batch.stepId
          mode := mode
          activeSequences := activeSequences
          sequenceBucket := entry.key.sequenceBucket
          scheduledPromptTokens := if mode = .prefill then batch.queryRows else 0
          queryRows := batch.queryRows
          verifierRowBucket := entry.key.verifierRowBucket
          mtpDepth := mtpDepth
          graphId := entry.graphId
          tpRouteId := routes.tpRouteId
          dcpRouteId := dcpRouteId
          attentionTransport := entry.key.attentionTransport
          samplingRouteId := samplingRouteId
          sequenceTableGeneration := sequenceTableGeneration } schedule).mapError .plan
      .ok ⟨plan, schedule⟩

end StepPlanCompiler

end Glmaxx.Scheduling
