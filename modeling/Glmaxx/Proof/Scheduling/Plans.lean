import Glmaxx.Scheduling.Compile

namespace Glmaxx.Proof.Scheduling
open Std Library Cache Engine Glmaxx.Scheduling Glmaxx.Scheduling.StepPlanCompiler

variable {operations : List CollectiveOp} {transport : AttentionTransport} {mode : StepMode}

variable {sha256 : List UInt8 → Bytes32} {rows : Nat} {routes : RouteCatalog} {batch : ScheduledBatch}

section Schedules

abbrev Collective := CollectiveKind × UInt16 × UInt32

def operationAt (rows ordinal : Nat) (collective : Collective) : CollectiveOp :=
  ⟨ordinal, collective.1, collective.2.1, collective.2.2.toNat * rows, tpRankMask⟩

def planned (rows : Nat) (collectives : List Collective) : List CollectiveOp := collectives.mapIdx (operationAt rows)

theorem pushOperation_planned {collectives : List Collective} {kind : CollectiveKind} {routeId : UInt16}
    {bytes : UInt32} (short : collectives.length < 2 ^ 16) (fits : bytes.toNat * rows < 2 ^ 32) :
    pushOperation (planned rows collectives) kind routeId bytes rows =
      .ok (planned rows (collectives ++ [(kind, routeId, bytes)])) := by
  have payload : scaled bytes rows = .ok (bytes.toNat * rows) := okOr_eq_ok.mpr (if_pos fits)
  have ordinal : narrow 16 (planned rows collectives).length = some collectives.length := by
    rw [planned, List.length_mapIdx]
    exact if_pos short
  refine bind_eq_ok.mpr ⟨_, payload, bind_eq_ok.mpr ⟨_, okOr_eq_ok.mpr ordinal, ?_⟩⟩
  simp [planned, operationAt, List.mapIdx_append]

theorem validateOperations_planned (positive : rows ≠ 0) (start : Nat) (collectives : List Collective)
    (each : ∀ collective ∈ collectives, collective.2.1 ≠ 0 ∧ collective.2.2 ≠ 0) :
    validateOperations start (collectives.mapIdx fun i => operationAt rows (start + i)) = .ok () := by
  induction collectives generalizing start with
  | nil => rfl
  | cons collective rest ih =>
    obtain ⟨route, bytes⟩ := each collective (List.mem_cons_self ..)
    have payload : collective.2.2.toNat * rows ≠ 0 :=
      Nat.mul_ne_zero (fun zero => bytes (UInt32.toNat_inj.mp zero)) positive
    have mask : tpRankMask ≠ 0 ∧ tpRankMask &&& ~~~tpRankMask = 0 := by decide
    have later := ih (start + 1) fun other member => each other (List.mem_cons_of_mem _ member)
    rw [List.mapIdx_cons, validateOperations, if_neg (by simp [operationAt])]
    rw [if_neg (by simp [operationAt, route, payload, mask])]
    simpa only [Nat.add_assoc, Nat.add_comm 1] using later

/-- The schedule that `new` makes of accepted operations. -/
theorem schedule_new (short : operations.length < 2 ^ 16) (accepted : validateOperations 0 operations = .ok ()) :
    CollectiveSchedule.new sha256 operations = .ok ⟨operations, collectiveHash sha256 operations⟩ := by
  unfold CollectiveSchedule.new
  rw [if_neg (by omega), accepted]
  rfl

theorem schedule_verifies {schedule : CollectiveSchedule}
    (built : CollectiveSchedule.new sha256 operations = .ok schedule) : schedule.verify sha256 = .ok () := by
  have again := built
  unfold CollectiveSchedule.new at built
  split at built
  · cases built
  obtain ⟨_, _, same⟩ := bind_eq_ok.mp built
  cases same
  rw [CollectiveSchedule.verify, if_neg (not_not.mpr rfl), again]
  rfl

end Schedules

section Validation
variable {request : StepPlanRequest} {schedule : CollectiveSchedule} {plan : StepPlan}

def sealedPlan (sha256 : List UInt8 → Bytes32) (request : StepPlanRequest) (schedule : CollectiveSchedule) : StepPlan :=
  let plan : StepPlan := { request with collectiveScheduleHash := schedule.hash, planHash := Bytes32.zero }
  { plan with planHash := plan.computeHash sha256 }

theorem build_eq_ok (verified : schedule.verify sha256 = .ok ()) :
    StepPlan.build sha256 request schedule = .ok plan ↔
      validateRequest request schedule = .ok () ∧ plan = sealedPlan sha256 request schedule := by
  unfold StepPlan.build
  constructor
  · intro built
    obtain ⟨_, _, built⟩ := bind_eq_ok.mp built
    obtain ⟨_, valid, same⟩ := bind_eq_ok.mp built
    cases same
    exact ⟨valid, rfl⟩
  · rintro ⟨valid, rfl⟩
    exact bind_eq_ok.mpr ⟨(), verified, bind_eq_ok.mpr ⟨(), valid, rfl⟩⟩

theorem sealedPlan_verifies (verified : schedule.verify sha256 = .ok ())
    (valid : validateRequest request schedule = .ok ()) :
    (sealedPlan sha256 request schedule).verify sha256 schedule = .ok () := by
  unfold StepPlan.verify
  rw [verified]
  refine (if_neg (not_not.mpr rfl)).trans ((if_neg (not_not.mpr rfl)).trans valid)

theorem validateRequest_working (working : request.mode = .prefill ∨ request.mode = .decode ∨ request.mode = .verify) :
    validateRequest request schedule = .ok () ↔
      request.mtpDepth ≤ maxMtpDepth ∧ ¬shapeRefused request schedule ∧ validateMode request = .ok () := by
  have unfolded : validateRequest request schedule =
      if request.mtpDepth > maxMtpDepth then .error .mtpDepth
      else if shapeRefused request schedule then .error .shape else validateMode request := by
    unfold validateRequest
    rcases working with mode | mode | mode <;> rw [mode]
  rw [unfolded]
  by_cases deep : request.mtpDepth > maxMtpDepth
  · simp [deep, Nat.not_le.mpr deep]
  · by_cases refused : shapeRefused request schedule
    · simp [deep, refused]
    · simp [deep, refused, Nat.not_lt.mp deep]

theorem validateMode_prefill (mode : request.mode = .prefill) :
    validateMode request = .ok () ↔ ¬prefillRefused request := by
  unfold validateMode
  rw [mode]
  by_cases refused : prefillRefused request <;> simp [refused]

theorem validateMode_decode (mode : request.mode = .decode) :
    validateMode request = .ok () ↔ ¬decodeRefused request request.activeSequences ∧ request.mtpDepth = 0 := by
  unfold validateMode
  rw [mode]
  by_cases refused : decodeRefused request request.activeSequences ∨ request.mtpDepth ≠ 0
  · simp only [if_pos refused, reduceCtorEq, false_iff]
    exact fun accepted => refused.elim accepted.1 fun deep => deep accepted.2
  · simp only [if_neg refused, true_iff]
    exact ⟨fun h => refused (.inl h), not_not.mp fun h => refused (.inr h)⟩

theorem validateMode_verify (mode : request.mode = .verify)
    (fits : request.activeSequences * (request.mtpDepth + 1) < 2 ^ 32) :
    validateMode request = .ok () ↔
      ¬decodeRefused request (request.activeSequences * (request.mtpDepth + 1)) ∧ request.mtpDepth ≠ 0 := by
  have expected : okOr (checkedMul 32 request.activeSequences (request.mtpDepth + 1)) PlanError.shape =
      .ok (request.activeSequences * (request.mtpDepth + 1)) := okOr_eq_ok.mpr (if_pos fits)
  unfold validateMode
  rw [mode]
  dsimp only
  rw [expected]
  change (if _ then _ else _) = _ ↔ _
  rw [← not_or]
  split
  next refused => simp only [reduceCtorEq, false_iff, not_not]; exact refused
  next accepted => simp only [true_iff]; exact accepted

end Validation

section Operations

def attentionCollectives (routes : RouteCatalog) : AttentionTransport → List Collective
  | .prefillCkv => [(.dcpPackedCkv, routes.dcpCkvRouteId, routes.packedCkvBytesPerRow)]
  | .prefillQuery => [(.dcpQueryGather, routes.dcpQueryRouteId, routes.queryBytesPerRow),
      (.dcpPartialStateReturn, routes.dcpPartialRouteId, routes.partialStateBytesPerRow)]
  | .decodeQueryLse => [(.dcpQueryGather, routes.dcpQueryRouteId, routes.queryBytesPerRow),
      (.dcpCandidateExchange, routes.dcpCandidateRouteId, routes.candidateBytesPerRow),
      (.dcpPartialStateReturn, routes.dcpPartialRouteId, routes.partialStateBytesPerRow)]
  | .none => []

def collectivesOf (routes : RouteCatalog) (mode : StepMode) (sampling : SamplingCollective)
    (transport : AttentionTransport) : List Collective :=
  attentionCollectives routes transport ++ [(.tpReduce, routes.tpRouteId, routes.tpReduceBytesPerRow)]
    ++ if mode = .prefill then [] else [samplingRoute routes sampling]

def samplingRouteOf (routes : RouteCatalog) (mode : StepMode) (sampling : SamplingCollective) : UInt16 :=
  if mode = .prefill then 0 else (samplingRoute routes sampling).2.1

theorem attentionOperations_ok (attends : transport ≠ .none)
    (fits : ∀ bytes ∈ routes.payloads, bytes.toNat * rows < 2 ^ 32) :
    attentionOperations routes rows transport = .ok (planned rows (attentionCollectives routes transport)) := by
  have push (collectives : List Collective) (kind : CollectiveKind) (routeId : UInt16) {bytes : UInt32}
      (short : collectives.length < 2 ^ 16) (member : bytes ∈ routes.payloads) :=
    @pushOperation_planned rows collectives kind routeId bytes short (fits bytes member)
  cases transport with
  | none => exact absurd rfl attends
  | prefillCkv => exact push [] _ _ (by decide) (by simp [RouteCatalog.payloads])
  | prefillQuery =>
    refine bind_eq_ok.mpr ⟨_, push [] _ _ (by decide) (by simp [RouteCatalog.payloads]), ?_⟩
    exact push _ _ _ (by simp) (by simp [RouteCatalog.payloads])
  | decodeQueryLse =>
    refine bind_eq_ok.mpr ⟨_, push [] _ _ (by decide) (by simp [RouteCatalog.payloads]), ?_⟩
    refine bind_eq_ok.mpr ⟨_, push _ _ _ (by simp) (by simp [RouteCatalog.payloads]), ?_⟩
    exact push _ _ _ (by simp) (by simp [RouteCatalog.payloads])

def dcpRoutes (routes : RouteCatalog) : List UInt16 :=
  [routes.dcpCkvRouteId, routes.dcpQueryRouteId, routes.dcpCandidateRouteId, routes.dcpPartialRouteId]

theorem attentionCollectives_listed (routes : RouteCatalog) (transport : AttentionTransport) :
    ∀ collective ∈ attentionCollectives routes transport,
      collective.2.1 ∈ dcpRoutes routes ∧ collective.2.2 ∈ routes.payloads := by
  cases transport <;> simp [attentionCollectives, dcpRoutes, RouteCatalog.payloads]

theorem samplingRoute_listed (routes : RouteCatalog) (sampling : SamplingCollective) :
    (samplingRoute routes sampling).2.1 ∈ [routes.greedyRouteId, routes.topKRouteId, routes.massRouteId] ∧
      (samplingRoute routes sampling).2.2 ∈ routes.payloads ∧ isDcp (samplingRoute routes sampling).1 = false := by
  cases sampling <;> simp [samplingRoute, RouteCatalog.payloads, isDcp]

theorem attentionCollectives_length (routes : RouteCatalog) (transport : AttentionTransport) :
    (attentionCollectives routes transport).length ≤ 3 := by
  cases transport <;> simp [attentionCollectives]

theorem operationsOf_ok (attends : transport ≠ .none)
    (fits : ∀ bytes ∈ routes.payloads, bytes.toNat * batch.queryRows < 2 ^ 32) :
    operationsOf routes batch mode transport =
      .ok (planned batch.queryRows (collectivesOf routes mode batch.sampling transport),
        samplingRouteOf routes mode batch.sampling) := by
  have few := attentionCollectives_length routes transport
  have reduce := fits routes.tpReduceBytesPerRow (by simp [RouteCatalog.payloads])
  refine bind_eq_ok.mpr ⟨_, attentionOperations_ok attends fits, ?_⟩
  refine bind_eq_ok.mpr ⟨_, pushOperation_planned (by omega) reduce, ?_⟩
  unfold collectivesOf samplingRouteOf
  by_cases isPrefill : mode = .prefill
  · simp [isPrefill]
  · have sample := (samplingRoute_listed routes batch.sampling).2.1
    rw [if_neg isPrefill, if_neg isPrefill, if_neg isPrefill]
    refine bind_eq_ok.mpr ⟨_, pushOperation_planned ?_ (fits _ sample), rfl⟩
    rw [List.length_append, List.length_singleton]
    omega

theorem mem_collectivesOf {sampling : SamplingCollective}
    {collective : Collective} (member : collective ∈ collectivesOf routes mode sampling transport) :
    collective ∈ attentionCollectives routes transport
      ∨ collective = (.tpReduce, routes.tpRouteId, routes.tpReduceBytesPerRow)
      ∨ mode ≠ .prefill ∧ collective = samplingRoute routes sampling := by
  unfold collectivesOf at member
  rw [List.mem_append, List.mem_append, List.mem_singleton] at member
  rcases member with (attends | reduces) | samples
  · exact .inl attends
  · exact .inr (.inl reduces)
  · split at samples
    · cases samples
    next working => exact .inr (.inr ⟨working, List.mem_singleton.mp samples⟩)

theorem collectivesOf_valid (valid : routes.validate = .ok ()) (mode : StepMode) (sampling : SamplingCollective)
    (transport : AttentionTransport) :
    ∀ collective ∈ collectivesOf routes mode sampling transport, collective.2.1 ≠ 0 ∧ collective.2.2 ≠ 0 := by
  unfold RouteCatalog.validate at valid
  split at valid
  · cases valid
  next accepted =>
  obtain ⟨noRoute, noPayload⟩ := not_or.mp accepted
  have route {id : UInt16} (member : id ∈ routes.routes) : id ≠ 0 := fun zero => noRoute (zero ▸ member)
  have payload {bytes : UInt32} (member : bytes ∈ routes.payloads) : bytes ≠ 0 := fun zero => noPayload (zero ▸ member)
  intro collective member
  rcases mem_collectivesOf member with attends | rfl | ⟨_, rfl⟩
  · obtain ⟨isRoute, isPayload⟩ := attentionCollectives_listed routes transport collective attends
    refine ⟨route ?_, payload isPayload⟩
    simp only [dcpRoutes, List.mem_cons, List.not_mem_nil, or_false] at isRoute
    rcases isRoute with is | is | is | is <;> simp [RouteCatalog.routes, is]
  · exact ⟨route (by simp [RouteCatalog.routes]), payload (by simp [RouteCatalog.payloads])⟩
  · obtain ⟨isRoute, isPayload, _⟩ := samplingRoute_listed routes sampling
    refine ⟨route ?_, payload isPayload⟩
    simp only [List.mem_cons, List.not_mem_nil, or_false] at isRoute
    rcases isRoute with is | is | is <;> simp [RouteCatalog.routes, is]

end Operations

section Compile
variable {compiler : StepPlanCompiler} {entry : GraphEntry} {generation : UInt64} {compiled : CompiledStep}

/-- Everything `compile` asks before it comes to the rules of the plan. -/
structure Fits (compiler : StepPlanCompiler) (batch : ScheduledBatch) (entry : GraphEntry) : Prop where
  valid : compiler.routes.validate = .ok ()
  nonempty : batch.rows ≠ []
  counted : batch.rows.length < 2 ^ 16
  rows : batch.queryRows ≠ 0
  graphId_eq : batch.graphId = entry.graphId
  mode_eq : entry.key.mode = (modeOf batch.kind).1
  depth_eq : entry.key.mtpDepth.toNat = (modeOf batch.kind).2
  greedy : batch.kind = .prefill → batch.sampling = .greedy
  attends : entry.key.attentionTransport ≠ .none
  payload : ∀ bytes ∈ compiler.routes.payloads, bytes.toNat * batch.queryRows < 2 ^ 32
  tp : compiler.routes.tpRouteId ∈ entry.compatibleTpRoutes
  dcp : ∀ route ∈ dcpRoutes compiler.routes, route ∈ entry.compatibleDcpRoutes
  sampling : batch.kind ≠ .prefill → (samplingRoute compiler.routes batch.sampling).2.1 ∈ entry.compatibleSamplingRoutes

theorem modeOf_prefill {kind : BatchKind} : (modeOf kind).1 = .prefill ↔ kind = .prefill := by
  cases kind <;> simp [modeOf]

def dcpRouteOf (routes : RouteCatalog) (transport : AttentionTransport) : UInt16 :=
  if transport = .prefillCkv then routes.dcpCkvRouteId else routes.dcpQueryRouteId

theorem dcpRoute_ok (attends : transport ≠ .none) :
    dcpRoute routes transport = .ok (dcpRouteOf routes transport) := by
  cases transport with
  | none => exact absurd rfl attends
  | prefillCkv | prefillQuery | decodeQueryLse => rfl

def operationsFor (routes : RouteCatalog) (batch : ScheduledBatch) (entry : GraphEntry) : List CollectiveOp :=
  planned batch.queryRows
    (collectivesOf routes (modeOf batch.kind).1 batch.sampling entry.key.attentionTransport)

def scheduleFor (sha256 : List UInt8 → Bytes32) (routes : RouteCatalog) (batch : ScheduledBatch) (entry : GraphEntry) :
    CollectiveSchedule :=
  ⟨operationsFor routes batch entry, collectiveHash sha256 (operationsFor routes batch entry)⟩

def requestFor (compiler : StepPlanCompiler) (batch : ScheduledBatch) (entry : GraphEntry) (generation : UInt64) :
    StepPlanRequest where
  epoch := compiler.epoch
  stepId := batch.stepId
  mode := (modeOf batch.kind).1
  activeSequences := batch.rows.length
  sequenceBucket := entry.key.sequenceBucket
  scheduledPromptTokens := if (modeOf batch.kind).1 = .prefill then batch.queryRows else 0
  queryRows := batch.queryRows
  verifierRowBucket := entry.key.verifierRowBucket
  mtpDepth := (modeOf batch.kind).2
  graphId := entry.graphId
  tpRouteId := compiler.routes.tpRouteId
  dcpRouteId := dcpRouteOf compiler.routes entry.key.attentionTransport
  attentionTransport := entry.key.attentionTransport
  samplingRouteId := samplingRouteOf compiler.routes (modeOf batch.kind).1 batch.sampling
  sequenceTableGeneration := generation

section
variable (fits : Fits compiler batch entry)
include fits

theorem Fits.schedule_new (sha256 : List UInt8 → Bytes32) :
    CollectiveSchedule.new sha256 (operationsFor compiler.routes batch entry) =
      .ok (scheduleFor sha256 compiler.routes batch entry) := by
  have few := attentionCollectives_length compiler.routes entry.key.attentionTransport
  refine Scheduling.schedule_new ?_ ?_
  · rw [operationsFor, planned, List.length_mapIdx, collectivesOf, List.length_append, List.length_append]
    split <;> simp only [List.length_nil, List.length_singleton] <;> omega
  · have accepted := validateOperations_planned fits.rows 0 _
      (collectivesOf_valid fits.valid (modeOf batch.kind).1 batch.sampling entry.key.attentionTransport)
    unfold operationsFor planned
    simpa only [Nat.zero_add] using accepted

theorem Fits.routes_accepted : ¬(compiler.routes.tpRouteId ∉ entry.compatibleTpRoutes
      ∨ ((operationsFor compiler.routes batch entry).filter fun operation => isDcp operation.kind).any
        (fun operation => operation.routeId ∉ entry.compatibleDcpRoutes)
      ∨ (samplingRouteOf compiler.routes (modeOf batch.kind).1 batch.sampling ≠ 0
        ∧ samplingRouteOf compiler.routes (modeOf batch.kind).1 batch.sampling ∉ entry.compatibleSamplingRoutes)) := by
  rintro (tp | dcp | ⟨used, missing⟩)
  · exact tp fits.tp
  · obtain ⟨operation, member, missing⟩ := List.any_eq_true.mp dcp
    obtain ⟨member, isDcp⟩ := List.mem_filter.mp member
    obtain ⟨place, inside, rfl⟩ := List.mem_mapIdx.mp member
    rcases mem_collectivesOf (List.getElem_mem inside) with attends | reduces | ⟨_, samples⟩
    · exact of_decide_eq_true missing (fits.dcp _ (attentionCollectives_listed _ _ _ attends).1)
    · simp [operationAt, reduces, Scheduling.isDcp] at isDcp
    · simp [operationAt, samples, (samplingRoute_listed compiler.routes batch.sampling).2.2] at isDcp
  · unfold samplingRouteOf at used missing
    split at used
    · exact used rfl
    next working =>
      rw [if_neg working] at missing
      exact missing (fits.sampling fun isPrefill => working (modeOf_prefill.mpr isPrefill))

/-- Past its own checks, `compile` succeeds exactly when the plan's rules accept the request. -/
theorem Fits.compile_eq_ok (positive : generation ≠ 0) :
    compiler.compile sha256 batch entry generation = .ok compiled ↔
      validateRequest (requestFor compiler batch entry generation)
          (scheduleFor sha256 compiler.routes batch entry) = .ok () ∧
        compiled = ⟨sealedPlan sha256 (requestFor compiler batch entry generation)
          (scheduleFor sha256 compiler.routes batch entry), scheduleFor sha256 compiler.routes batch entry⟩ := by
  have verified := schedule_verifies (fits.schedule_new sha256)
  have counted : okOr (narrow 16 batch.rows.length) CompileError.overflow = .ok batch.rows.length :=
    okOr_eq_ok.mpr (if_pos fits.counted)
  have operations : operationsOf compiler.routes batch (modeOf batch.kind).1 entry.key.attentionTransport =
      .ok (operationsFor compiler.routes batch entry,
        samplingRouteOf compiler.routes (modeOf batch.kind).1 batch.sampling) :=
    operationsOf_ok fits.attends fits.payload
  unfold StepPlanCompiler.compile
  dsimp only
  rw [if_neg (by simp [positive, fits.nonempty, fits.graphId_eq]), if_neg (by simp [fits.mode_eq, fits.depth_eq]),
    if_neg fun refused => refused.2 (fits.greedy (modeOf_prefill.mp refused.1)),
    operations]
  change (dcpRoute compiler.routes entry.key.attentionTransport >>= fun _ => _) = _ ↔ _
  rw [dcpRoute_ok fits.attends]
  change (if _ then _ else _) = _ ↔ _
  dsimp only
  rw [if_neg fits.routes_accepted, counted]
  change ((CollectiveSchedule.new sha256 (operationsFor compiler.routes batch entry)).mapError _ >>= fun _ => _) = _ ↔ _
  rw [mapError_eq_ok.mpr (fits.schedule_new sha256)]
  change ((StepPlan.build sha256 (requestFor compiler batch entry generation)
    (scheduleFor sha256 compiler.routes batch entry)).mapError _ >>= fun _ => _) = _ ↔ _
  constructor
  · intro built
    obtain ⟨plan, built, same⟩ := bind_eq_ok.mp built
    obtain ⟨valid, isPlan⟩ := (build_eq_ok verified).mp (mapError_eq_ok.mp built)
    cases same
    exact ⟨valid, by rw [isPlan]⟩
  · rintro ⟨valid, rfl⟩
    exact bind_eq_ok.mpr ⟨_, mapError_eq_ok.mpr ((build_eq_ok verified).mpr ⟨valid, rfl⟩), rfl⟩

end

end Compile

end Glmaxx.Proof.Scheduling
