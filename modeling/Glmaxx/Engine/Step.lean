import Glmaxx.Engine.Graph

namespace Glmaxx.Engine
open Std Library Cache

def tpRankMask : UInt8 := 0x0f

def planHashDomain : List UInt8 := "glmaxx.step-plan.v1".toUTF8.toList ++ [0]
def collectiveHashDomain : List UInt8 := "glmaxx.collective-schedule.v1".toUTF8.toList ++ [0]

inductive CollectiveKind where
  | tpReduce
  | dcpPackedCkv
  | dcpQueryGather
  | dcpCandidateExchange
  | dcpPartialStateReturn
  | logitsArgmax
  | logitsTopK
  | logitsMass
deriving DecidableEq, Repr

def CollectiveKind.code : CollectiveKind → UInt8
  | .tpReduce => 1
  | .dcpPackedCkv => 2
  | .dcpQueryGather => 3
  | .dcpCandidateExchange => 4
  | .dcpPartialStateReturn => 5
  | .logitsArgmax => 6
  | .logitsTopK => 7
  | .logitsMass => 8

structure CollectiveOp where
  ordinal : Nat
  kind : CollectiveKind
  routeId : UInt16
  payloadBytes : Nat
  participantMask : UInt8
deriving DecidableEq, Repr

structure CollectiveSchedule where
  operations : List CollectiveOp
  hash : Bytes32
deriving DecidableEq

inductive PlanError where
  | collectiveCount
  | collectiveOrdinal
  | collectiveOperation
  | collectiveHash
  | planHash
  | mtpDepth
  | shape
  | mode
  | nonCanonicalUnused
  | mixedContractUnreviewed
deriving DecidableEq, Repr

def CollectiveOp.hashBytes (operation : CollectiveOp) : List UInt8 :=
  leBytes 2 operation.ordinal ++ [operation.kind.code] ++ leBytes 2 operation.routeId.toNat
    ++ leBytes 4 operation.payloadBytes ++ [operation.participantMask]

def collectiveHashInput (operations : List CollectiveOp) : List UInt8 :=
  collectiveHashDomain ++ leBytes 2 (min operations.length (2 ^ 16 - 1)) ++ operations.flatMap (·.hashBytes)

def collectiveHash (sha256 : List UInt8 → Bytes32) (operations : List CollectiveOp) : Bytes32 :=
  sha256 (collectiveHashInput operations)

/-- The loop of `CollectiveSchedule::new`, from the operation expected next. -/
def validateOperations : Nat → List CollectiveOp → Except PlanError Unit
  | _, [] => .ok ()
  | expected, operation :: rest =>
    if operation.ordinal ≠ expected then .error .collectiveOrdinal
    else if operation.routeId = 0 ∨ operation.payloadBytes = 0 ∨ operation.participantMask = 0
        ∨ operation.participantMask &&& ~~~tpRankMask ≠ 0 then .error .collectiveOperation
    else validateOperations (expected + 1) rest

namespace CollectiveSchedule

def new (sha256 : List UInt8 → Bytes32) (operations : List CollectiveOp) : Except PlanError CollectiveSchedule :=
  if operations.length > 2 ^ 16 - 1 then .error .collectiveCount
  else do
    validateOperations 0 operations
    .ok ⟨operations, collectiveHash sha256 operations⟩

def verify (sha256 : List UInt8 → Bytes32) (schedule : CollectiveSchedule) : Except PlanError Unit :=
  if collectiveHash sha256 schedule.operations ≠ schedule.hash then .error .collectiveHash
  else do
    let _ ← new sha256 schedule.operations
    .ok ()

end CollectiveSchedule

structure StepPlanRequest where
  epoch : UInt64
  stepId : Nat
  mode : StepMode
  activeSequences : Nat
  sequenceBucket : UInt16
  scheduledPromptTokens : Nat
  queryRows : Nat
  verifierRowBucket : UInt32
  mtpDepth : Nat
  graphId : UInt32
  tpRouteId : UInt16
  dcpRouteId : UInt16
  attentionTransport : AttentionTransport
  samplingRouteId : UInt16
  sequenceTableGeneration : UInt64
deriving DecidableEq, Repr

structure StepPlan extends StepPlanRequest where
  collectiveScheduleHash : Bytes32
  planHash : Bytes32
deriving DecidableEq

def isSequenceBucket (value : UInt16) : Bool := value ∈ [1, 2, 4, 8, 16, 32, 64]

/-- What `validate_request` asks of a step without work. -/
def cacheOnlyRefused (request : StepPlanRequest) (schedule : CollectiveSchedule) : Prop :=
  request.activeSequences ≠ 0 ∨ request.sequenceBucket ≠ 0 ∨ request.scheduledPromptTokens ≠ 0
    ∨ request.queryRows ≠ 0 ∨ request.verifierRowBucket ≠ 0 ∨ request.mtpDepth ≠ 0 ∨ request.graphId ≠ 0
    ∨ request.tpRouteId ≠ 0 ∨ request.dcpRouteId ≠ 0 ∨ request.attentionTransport ≠ .none
    ∨ request.samplingRouteId ≠ 0 ∨ request.sequenceTableGeneration ≠ 0 ∨ schedule.operations ≠ []

instance (request : StepPlanRequest) (schedule : CollectiveSchedule) : Decidable (cacheOnlyRefused request schedule) := by
  unfold cacheOnlyRefused
  infer_instance

def shapeRefused (request : StepPlanRequest) (schedule : CollectiveSchedule) : Prop :=
  request.activeSequences = 0 ∨ request.activeSequences > maxActiveSequences
    ∨ isSequenceBucket request.sequenceBucket = false ∨ request.sequenceBucket.toNat < request.activeSequences
    ∨ request.queryRows = 0 ∨ request.queryRows > maxVerifierRows ∨ request.graphId = 0
    ∨ request.tpRouteId = 0 ∨ request.dcpRouteId = 0 ∨ request.sequenceTableGeneration = 0
    ∨ schedule.operations = []

instance (request : StepPlanRequest) (schedule : CollectiveSchedule) : Decidable (shapeRefused request schedule) := by
  unfold shapeRefused
  infer_instance

def prefillRefused (request : StepPlanRequest) : Prop :=
  request.scheduledPromptTokens = 0 ∨ request.queryRows ≠ request.scheduledPromptTokens
    ∨ request.verifierRowBucket ≠ 0 ∨ request.mtpDepth ≠ 0
    ∨ ¬(request.attentionTransport = .prefillCkv ∨ request.attentionTransport = .prefillQuery)
    ∨ request.samplingRouteId ≠ 0

instance (request : StepPlanRequest) : Decidable (prefillRefused request) := by
  unfold prefillRefused
  infer_instance

/-- The common part of the decode and verify rules, for the rows the mode expects. -/
def decodeRefused (request : StepPlanRequest) (expectedRows : Nat) : Prop :=
  request.scheduledPromptTokens ≠ 0 ∨ request.queryRows ≠ expectedRows
    ∨ request.verifierRowBucket.toNat < request.queryRows ∨ request.verifierRowBucket.toNat > maxVerifierRows
    ∨ request.attentionTransport ≠ .decodeQueryLse ∨ request.samplingRouteId = 0

instance (request : StepPlanRequest) (expectedRows : Nat) : Decidable (decodeRefused request expectedRows) := by
  unfold decodeRefused
  infer_instance

def validateMode (request : StepPlanRequest) : Except PlanError Unit :=
  match request.mode with
  | .prefill => if prefillRefused request then .error .mode else .ok ()
  | .decode =>
    if decodeRefused request request.activeSequences ∨ request.mtpDepth ≠ 0 then .error .mode else .ok ()
  | .verify => do
    let expectedRows ← okOr (checkedMul 32 request.activeSequences (request.mtpDepth + 1)) .shape
    if decodeRefused request expectedRows ∨ request.mtpDepth = 0 then .error .mode else .ok ()
  | .mixed | .cacheOnly => .ok ()

def validateRequest (request : StepPlanRequest) (schedule : CollectiveSchedule) : Except PlanError Unit :=
  if request.mtpDepth > maxMtpDepth then .error .mtpDepth
  else match request.mode with
    | .cacheOnly => if cacheOnlyRefused request schedule then .error .nonCanonicalUnused else .ok ()
    | .mixed => .error .mixedContractUnreviewed
    | .prefill | .decode | .verify =>
      if shapeRefused request schedule then .error .shape else validateMode request

namespace StepPlan

def canonicalHashInput (plan : StepPlan) : List UInt8 :=
  leBytes 8 plan.epoch.toNat ++ leBytes 8 plan.stepId ++ [plan.mode.code]
    ++ leBytes 2 plan.activeSequences ++ leBytes 2 plan.sequenceBucket.toNat
    ++ leBytes 4 plan.scheduledPromptTokens ++ leBytes 4 plan.queryRows
    ++ leBytes 4 plan.verifierRowBucket.toNat ++ leBytes 1 plan.mtpDepth
    ++ leBytes 4 plan.graphId.toNat ++ leBytes 2 plan.tpRouteId.toNat
    ++ leBytes 2 plan.dcpRouteId.toNat ++ [plan.attentionTransport.code]
    ++ leBytes 2 plan.samplingRouteId.toNat ++ leBytes 8 plan.sequenceTableGeneration.toNat
    ++ plan.collectiveScheduleHash.toList

def request (plan : StepPlan) : StepPlanRequest := plan.toStepPlanRequest

def computeHash (sha256 : List UInt8 → Bytes32) (plan : StepPlan) : Bytes32 :=
  sha256 (planHashDomain ++ plan.canonicalHashInput)

def build (sha256 : List UInt8 → Bytes32) (request : StepPlanRequest) (schedule : CollectiveSchedule) :
    Except PlanError StepPlan := do
  schedule.verify sha256
  validateRequest request schedule
  let plan : StepPlan := { request with collectiveScheduleHash := schedule.hash, planHash := Bytes32.zero }
  .ok { plan with planHash := plan.computeHash sha256 }

def verify (sha256 : List UInt8 → Bytes32) (plan : StepPlan) (schedule : CollectiveSchedule) : Except PlanError Unit := do
  schedule.verify sha256
  if schedule.hash ≠ plan.collectiveScheduleHash then .error .collectiveHash
  else if plan.computeHash sha256 ≠ plan.planHash then .error .planHash
  else validateRequest plan.request schedule

end StepPlan

namespace GraphProfile

/-- Where a plan does not go with the entry of its graph; the first five are the source's key. -/
def incompatible (entry : GraphEntry) (request : StepPlanRequest) : Prop :=
  entry.key.mode ≠ request.mode ∨ entry.key.sequenceBucket ≠ request.sequenceBucket
    ∨ entry.key.verifierRowBucket ≠ request.verifierRowBucket ∨ entry.key.mtpDepth.toNat ≠ request.mtpDepth
    ∨ entry.key.attentionTransport ≠ request.attentionTransport
    ∨ request.activeSequences > entry.maximumActiveSequences.toNat
    ∨ request.scheduledPromptTokens > entry.maximumPromptTokens.toNat
    ∨ request.queryRows > entry.maximumQueryRows.toNat
    ∨ request.tpRouteId ∉ entry.compatibleTpRoutes
    ∨ request.dcpRouteId ∉ entry.compatibleDcpRoutes
    ∨ (request.samplingRouteId ≠ 0 ∧ request.samplingRouteId ∉ entry.compatibleSamplingRoutes)

instance (entry : GraphEntry) (request : StepPlanRequest) : Decidable (incompatible entry request) := by
  unfold incompatible
  infer_instance

/-- The source's `admit`. -/
def admitPlan (sha256 : List UInt8 → Bytes32) (profile : GraphProfile) (plan : StepPlan) :
    Except GraphProfileError GraphEntry := do
  profile.verify sha256
  if plan.mode = .cacheOnly then .error .cacheOnlyHasNoGraph
  else do
    let entry ← okOr (profile.entries.find? (·.graphId = plan.graphId)) .missingGraph
    if incompatible entry plan.request then .error .incompatible else .ok entry

end GraphProfile

end Glmaxx.Engine
