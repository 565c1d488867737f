import Glmaxx.Engine.Step

namespace Glmaxx.Engine
open Library Cache

def inputHashDomain : List UInt8 := "glmaxx.step-input.v1".toUTF8.toList ++ [0]
def pageTableDeltaSchema : String := "glmaxx.page-table-delta.v1"
def oneF32Bits : UInt32 := 0x3f800000

inductive StepSamplingKind where
  | greedy
  | topK
  | mass
deriving DecidableEq, Repr

def StepSamplingKind.code : StepSamplingKind → UInt8
  | .greedy => 1
  | .topK => 2
  | .mass => 3

structure StepSampling where
  kind : StepSamplingKind
  temperatureBits : UInt32
  topPBits : UInt32
  topK : UInt16
  seed : UInt64
  rngCounterBefore : UInt64
deriving DecidableEq, Repr

structure SequenceStepInput where
  requestId : UInt64
  contextTokensBefore : UInt32
  generatedTokensBefore : UInt32
  maximumNewTokens : UInt32
  promptPayloadOffset : UInt32
  promptTokensThisStep : UInt32
  configuredMtpDepth : UInt8
  effectiveMtpDepth : UInt8
  sampling : StepSampling
deriving DecidableEq, Repr

structure StepInput where
  sequenceTableGeneration : Nat
  pageTableDeltaDigest : Bytes32
  rows : List SequenceStepInput
  promptTokenIds : List UInt32
  canonicalHash : Bytes32
deriving DecidableEq

inductive StepInputError where
  | binding
  | row
  | prompt
  | sampling
  | context
  | mode
  | hash
  | overflow
  | plan (failure : PlanError)
  | delta (failure : PageTableDeltaError)
deriving DecidableEq, Repr

/-- `f32::is_finite` of the bits. -/
def isFinite (bits : UInt32) : Bool := bits &&& 0x7f800000 ≠ 0x7f800000

def isNegativeZero (bits : UInt32) : Bool := bits = 0x80000000

def isPositive (bits : UInt32) : Bool := 0 < bits && bits < 0x80000000

def StepSampling.validate (sampling : StepSampling) : Except StepInputError Unit :=
  if isFinite sampling.temperatureBits = false ∨ isFinite sampling.topPBits = false
      ∨ isNegativeZero sampling.temperatureBits ∨ isNegativeZero sampling.topPBits then .error .sampling
  else match sampling.kind with
    | .greedy =>
      if sampling.temperatureBits ≠ 0 ∨ sampling.topPBits ≠ oneF32Bits ∨ sampling.topK ≠ 0
          ∨ sampling.rngCounterBefore ≠ 0 then .error .sampling
      else .ok ()
    | .topK =>
      if isPositive sampling.temperatureBits = false
          ∨ ¬(isPositive sampling.topPBits ∧ sampling.topPBits ≤ oneF32Bits)
          ∨ ¬(1 ≤ sampling.topK ∧ sampling.topK ≤ 256) then .error .sampling
      else .ok ()
    | .mass =>
      if isPositive sampling.temperatureBits = false ∨ sampling.topPBits ≠ oneF32Bits ∨ sampling.topK ≠ 0 then
        .error .sampling
      else .ok ()

def CollectiveKind.samplingKind : CollectiveKind → Option StepSamplingKind
  | .logitsArgmax => some .greedy
  | .logitsTopK => some .topK
  | .logitsMass => some .mass
  | _ => none

def samplingKinds (plan : StepPlan) : List CollectiveOp → Option StepSamplingKind →
    Except StepInputError (Option StepSamplingKind)
  | [], found => .ok found
  | operation :: rest, found => match operation.kind.samplingKind with
    | none => samplingKinds plan rest found
    | some kind =>
      if operation.routeId ≠ plan.samplingRouteId ∨ found.isSome then .error .sampling
      else samplingKinds plan rest (some kind)

def scheduleSamplingKind (plan : StepPlan) (schedule : CollectiveSchedule) :
    Except StepInputError (Option StepSamplingKind) := do
  let samplingKind ← samplingKinds plan schedule.operations none
  if plan.mode = .prefill then
    if samplingKind.isSome ∨ plan.samplingRouteId ≠ 0 then .error .sampling else .ok none
  else .ok samplingKind

/-- What the mode of the plan asks of a row; the last arm cannot be reached. -/
def rowModeRefused (plan : StepPlan) (row : SequenceStepInput) : Prop :=
  match plan.mode with
  | .prefill => row.promptTokensThisStep = 0 ∨ row.generatedTokensBefore ≠ 0 ∨ row.effectiveMtpDepth ≠ 0
  | .decode => row.promptTokensThisStep ≠ 0 ∨ row.effectiveMtpDepth ≠ 0
  | .verify => row.promptTokensThisStep ≠ 0 ∨ row.effectiveMtpDepth.toNat ≠ plan.mtpDepth
      ∨ row.configuredMtpDepth.toNat < plan.mtpDepth
  | .mixed | .cacheOnly => False

instance (plan : StepPlan) (row : SequenceStepInput) : Decidable (rowModeRefused plan row) := by
  unfold rowModeRefused
  split <;> infer_instance

def expectedTokens (plan : StepPlan) (row : SequenceStepInput) : Nat × Nat :=
  match plan.mode with
  | .prefill => (row.contextTokensBefore.toNat + row.promptTokensThisStep.toNat, 0)
  | .decode => (row.contextTokensBefore.toNat, 1)
  | .verify | .mixed | .cacheOnly => (row.contextTokensBefore.toNat, plan.mtpDepth + 1)

/-- One row of `validate_shape`; the sums of two `u32` values in `u64` do not overflow. -/
def validateRow (plan : StepPlan) (delta : PageTableDelta) (requestIds : List UInt64) (promptCursor : Nat)
    (row : SequenceStepInput) : Except StepInputError Nat := do
  row.sampling.validate
  if row.requestId = 0 ∨ row.requestId ∈ requestIds ∨ row.maximumNewTokens = 0
      ∨ row.generatedTokensBefore ≥ row.maximumNewTokens ∨ row.configuredMtpDepth.toNat > maxMtpDepth
      ∨ row.effectiveMtpDepth > row.configuredMtpDepth ∨ row.promptPayloadOffset.toNat ≠ promptCursor then .error .row
  else do
    let promptCursor ← okOr (checkedAdd 32 promptCursor row.promptTokensThisStep.toNat) .overflow
    let remaining := row.maximumNewTokens.toNat - row.generatedTokensBefore.toNat
    if row.contextTokensBefore.toNat + row.promptTokensThisStep.toNat + remaining > maximumContextTokens then
      .error .context
    else if rowModeRefused plan row then .error .mode
    else do
      let update ← okOr (delta.updates.find? (·.requestId = row.requestId.toNat)) .binding
      let (committed, tentative) := expectedTokens plan row
      if tentative > remaining ∨ update.mtp ≠ decide (row.configuredMtpDepth ≠ 0) ∨ update.committedTokens ≠ committed
          ∨ update.tentativeTokens ≠ tentative then .error .binding
      else .ok promptCursor

def validateRows (plan : StepPlan) (delta : PageTableDelta) : List UInt64 → Nat → List SequenceStepInput →
    Except StepInputError Nat
  | _, promptCursor, [] => .ok promptCursor
  | requestIds, promptCursor, row :: rest => do
    let promptCursor ← validateRow plan delta requestIds promptCursor row
    validateRows plan delta (row.requestId :: requestIds) promptCursor rest

namespace StepInput

def validateShape (input : StepInput) (plan : StepPlan) (schedule : CollectiveSchedule) (delta : PageTableDelta) :
    Except StepInputError Unit :=
  if input.sequenceTableGeneration = 0 ∨ input.sequenceTableGeneration ≠ plan.sequenceTableGeneration.toNat
      ∨ input.sequenceTableGeneration ≠ delta.generationAfter ∨ input.pageTableDeltaDigest ≠ delta.globalDigest
      ∨ input.rows.length ≠ plan.activeSequences ∨ input.rows.length > maxActiveSequences
      ∨ delta.updates.length ≠ input.rows.length ∨ delta.removedSequenceIds ≠ [] then .error .binding
  else if plan.mode = .mixed ∨ plan.mode = .cacheOnly then .error .mode
  else do
    let promptCursor ← validateRows plan delta [] 0 input.rows
    let promptCount ← okOr (narrow 32 input.promptTokenIds.length) .overflow
    if promptCursor ≠ promptCount then .error .prompt
    else if plan.mode = .prefill then
      if promptCount ≠ plan.scheduledPromptTokens ∨ promptCount ≠ plan.queryRows then .error .prompt else .ok ()
    else if promptCount ≠ 0 ∨ plan.scheduledPromptTokens ≠ 0 then .error .prompt
    else do
      let kind ← scheduleSamplingKind plan schedule
      let samplingKind ← okOr kind .sampling
      if input.rows.any (fun row => row.sampling.kind ≠ samplingKind) then .error .sampling else .ok ()

end StepInput

def SequenceStepInput.hashBytes (row : SequenceStepInput) : List UInt8 :=
  leBytes 8 row.requestId.toNat ++ leBytes 4 row.contextTokensBefore.toNat ++ leBytes 4 row.generatedTokensBefore.toNat
    ++ leBytes 4 row.maximumNewTokens.toNat ++ leBytes 4 row.promptPayloadOffset.toNat
    ++ leBytes 4 row.promptTokensThisStep.toNat ++ [row.configuredMtpDepth] ++ [row.effectiveMtpDepth]
    ++ [row.sampling.kind.code] ++ leBytes 4 row.sampling.temperatureBits.toNat ++ leBytes 4 row.sampling.topPBits.toNat
    ++ leBytes 2 row.sampling.topK.toNat ++ leBytes 8 row.sampling.seed.toNat
    ++ leBytes 8 row.sampling.rngCounterBefore.toNat

namespace StepInput

/-- The counts fit their fields for every input that `validateShape` accepts. -/
def hashInput (sha256 : List UInt8 → Bytes32) (input : StepInput) : List UInt8 :=
  inputHashDomain ++ (sha256 pageTableDeltaSchema.toUTF8.toList).toList ++ leBytes 8 input.sequenceTableGeneration
    ++ input.pageTableDeltaDigest.toList ++ leBytes 2 input.rows.length ++ leBytes 4 input.promptTokenIds.length
    ++ input.rows.flatMap (·.hashBytes) ++ input.promptTokenIds.flatMap fun tokenId => leBytes 4 tokenId.toNat

def computeHash (sha256 : List UInt8 → Bytes32) (input : StepInput) : Bytes32 := sha256 (input.hashInput sha256)

def new (sha256 : List UInt8 → Bytes32) (plan : StepPlan) (schedule : CollectiveSchedule) (delta : PageTableDelta)
    (rows : List SequenceStepInput) (promptTokenIds : List UInt32) : Except StepInputError StepInput := do
  (plan.verify sha256 schedule).mapError .plan
  (delta.verify sha256).mapError .delta
  let input : StepInput := ⟨delta.generationAfter, delta.globalDigest, rows, promptTokenIds, Bytes32.zero⟩
  input.validateShape plan schedule delta
  .ok { input with canonicalHash := input.computeHash sha256 }

end StepInput

end Glmaxx.Engine
