import Glmaxx.Proof.Scheduling.Plans
import Glmaxx.Proof.Scheduling.Runs

namespace Glmaxx.Proof.Scheduling
open Std Library Cache Engine Glmaxx.Scheduling Glmaxx.Scheduling.Scheduler
open Glmaxx.Scheduling.StepPlanCompiler

variable {s s' t : Scheduler} {counter : Counter} {kind : BatchKind} {sampling : SamplingCollective}
  {rows : List BatchRow} {batch : ScheduledBatch} {entry : GraphEntry} {eligible : List Request}
  {sha256 : List UInt8 → Bytes32} {profile : GraphProfile}

section Profiles

theorem entries_distinct (verified : profile.verify sha256 = .ok ()) : (profile.entries.map (·.graphId)).Nodup := by
  unfold GraphProfile.verify at verified
  split at verified
  · cases verified
  obtain ⟨_, valid, _⟩ := bind_eq_ok.mp verified
  exact (validateEntries_accepted valid).1

theorem valid_prefill (valid : entry.Valid) (mode : entry.key.mode = .prefill) : entry.key.verifierRowBucket = 0 ∧
      (entry.key.attentionTransport = .prefillCkv ∨ entry.key.attentionTransport = .prefillQuery) := by
  have accepted := valid.mode
  rw [modeRefused, if_pos mode] at accepted
  simp only [not_or, not_not] at accepted
  exact ⟨accepted.2.1, or_iff_not_and_not.mpr accepted.2.2.2.1⟩

theorem valid_decode (valid : entry.Valid) (mode : entry.key.mode = .decode ∨ entry.key.mode = .verify) :
    entry.key.attentionTransport = .decodeQueryLse := by
  have accepted := valid.mode
  rw [modeRefused, if_neg (by rcases mode with mode | mode <;> simp [mode]), if_pos mode] at accepted
  simp only [not_or, not_not] at accepted
  exact accepted.2.1

end Profiles

section Shape

theorem modeOf_eq (kind : BatchKind) : modeOf kind = (graphModeOf kind, graphDepthOf kind) := by
  cases kind <;> rfl

theorem sumPromptTokens_eq {sum : Nat} (ok : sumPromptTokens rows = .ok sum) :
    sum = (rows.map (·.promptTokens)).sum := by
  have general (rows : List BatchRow) : ∀ start,
      rows.foldlM (fun sum row => okOr (checkedAdd 32 sum row.promptTokens) SchedulerError.overflow) start = .ok sum →
        sum = start + (rows.map (·.promptTokens)).sum := by
    induction rows with
    | nil =>
      intro start ok
      cases ok
      rfl
    | cons row rest ih =>
      intro start ok
      rw [List.foldlM_cons] at ok
      obtain ⟨next, added, ok⟩ := bind_eq_ok.mp ok
      rw [ih next ok, checkedAdd_some (okOr_eq_ok.mp added), List.map_cons, List.sum_cons, Nat.add_assoc]
  exact (general rows 0 ok).trans (Nat.zero_add _)

theorem Chosen.shape {cached : Nat → Nat} (chosen : Chosen t batch) (accounts : Accounts t cached) :
    batch.queryRows ≠ 0 ∧ (modeOf batch.kind).2 ≤ maxMtpDepth := by
  have some : 0 < batch.rows.length := List.length_pos_of_ne_nil chosen.nonempty
  have shaped := chosen.shaped
  have rows := chosen.rows
  split at rows
  · obtain ⟨isPrefill, entry, _, _, rows_eq⟩ := rows
    rw [isPrefill] at shaped ⊢
    refine ⟨fun zero => ?_, Nat.zero_le _⟩
    rw [sumPromptTokens_eq shaped] at zero
    obtain ⟨row, member⟩ := List.exists_mem_of_ne_nil _ chosen.nonempty
    have none := List.sum_eq_zero_iff.mp zero _ (List.mem_map_of_mem member)
    rw [rows_eq] at member
    obtain ⟨_, _, _, positive, _⟩ := fillRows_each _ _ row member
    exact positive none
  · obtain ⟨first, depth, head, isDepth, kind_eq, _⟩ := rows
    obtain ⟨⟨id, found⟩, decoding, _⟩ := mem_orderedRequests.mp (List.mem_of_head? head)
    have greatest := (effectiveDecodeDepth_greatest ((accounts.sound id first found).1.decoding decoding).2).mp isDepth
    have bounded : depth ≤ maxMtpDepth := (depths_le greatest.1).trans (accounts.admitted id first found).depth
    rw [kind_eq] at shaped ⊢
    unfold decodeKind at shaped ⊢
    split at shaped
    next zero =>
      rw [if_pos zero, ← Except.ok.inj shaped]
      exact ⟨some.ne', Nat.zero_le _⟩
    next deep =>
      rw [if_neg deep, ← (checkedMul_eq_some.mp (okOr_eq_ok.mp shaped)).2]
      exact ⟨Nat.mul_ne_zero some.ne' (Nat.succ_ne_zero _), bounded⟩

end Shape

section Launching
variable {compiler : StepPlanCompiler} {generation : UInt64}

/-- A batch with the entry of its graph, as the scheduler emits it. -/
structure Launches (compiler : StepPlanCompiler) (batch : ScheduledBatch) (entry : GraphEntry) : Prop
    extends Fits compiler batch entry where
  accepted : entry.Valid
  active : batch.rows.length ≤ entry.maximumActiveSequences.toNat
  depth : (modeOf batch.kind).2 ≤ maxMtpDepth
  shaped : queryRowsOf batch.kind batch.rows.length batch.rows = .ok batch.queryRows
  rows_le : batch.queryRows ≤ entry.maximumQueryRows.toNat
  prompt_le : batch.kind = .prefill → batch.queryRows ≤ entry.maximumPromptTokens.toNat

def Executable (entry : GraphEntry) (batch : ScheduledBatch) : Prop :=
  isSequenceBucket entry.key.sequenceBucket = true ∧ batch.queryRows ≤ maxVerifierRows ∧
    (batch.kind ≠ .prefill → batch.queryRows ≤ entry.key.verifierRowBucket.toNat ∧
      entry.key.verifierRowBucket.toNat ≤ maxVerifierRows)

theorem isSequenceBucket_le {bucket : UInt16} (is : isSequenceBucket bucket = true) :
    bucket.toNat ≤ maxActiveSequences := by
  unfold isSequenceBucket at is
  simp only [List.mem_cons, List.not_mem_nil, or_false, decide_eq_true_eq] at is
  rcases is with rfl | rfl | rfl | rfl | rfl | rfl | rfl <;> decide

theorem routes_ne_zero {routes : RouteCatalog} (valid : routes.validate = .ok ()) {route : UInt16}
    (member : route ∈ routes.routes) : route ≠ 0 := by
  unfold RouteCatalog.validate at valid
  split at valid
  · cases valid
  next accepted => exact fun zero => accepted (.inl (zero ▸ member))

section
variable (launches : Launches compiler batch entry)
include launches

theorem Launches.shape_accepted (positive : generation ≠ 0) :
    ¬shapeRefused (requestFor compiler batch entry generation) (scheduleFor sha256 compiler.routes batch entry) ↔
      isSequenceBucket entry.key.sequenceBucket = true ∧ batch.queryRows ≤ maxVerifierRows := by
  have some : batch.rows.length ≠ 0 := fun none => launches.nonempty (List.length_eq_zero_iff.mp none)
  have room : batch.rows.length ≤ entry.key.sequenceBucket.toNat :=
    launches.active.trans (UInt16.le_iff_toNat_le.mp launches.accepted.bucket)
  have tp : compiler.routes.tpRouteId ≠ 0 := routes_ne_zero launches.valid (by simp [RouteCatalog.routes])
  have dcp : dcpRouteOf compiler.routes entry.key.attentionTransport ≠ 0 := by
    unfold dcpRouteOf
    split <;> exact routes_ne_zero launches.valid (by simp [RouteCatalog.routes])
  have operations : (scheduleFor sha256 compiler.routes batch entry).operations ≠ [] := by
    simp [scheduleFor, operationsFor, planned, collectivesOf]
  unfold shapeRefused requestFor
  simp only [not_or, Bool.not_eq_false]
  constructor
  · rintro ⟨_, _, bucket, _, _, rows, _⟩
    exact ⟨bucket, Nat.not_lt.mp rows⟩
  · rintro ⟨bucket, rows⟩
    have small := room.trans (isSequenceBucket_le bucket)
    exact ⟨some, Nat.not_lt.mpr small, bucket, Nat.not_lt.mpr room, launches.rows, Nat.not_lt.mpr rows,
      launches.accepted.graphId, tp, dcp, positive, operations⟩

theorem Launches.sampled (working : batch.kind ≠ .prefill) :
    samplingRouteOf compiler.routes (modeOf batch.kind).1 batch.sampling ≠ 0 := by
  rw [samplingRouteOf, if_neg fun isPrefill => working (modeOf_prefill.mp isPrefill)]
  refine routes_ne_zero launches.valid ?_
  obtain ⟨member, _⟩ := samplingRoute_listed compiler.routes batch.sampling
  simp only [List.mem_cons, List.not_mem_nil, or_false] at member
  rcases member with is | is | is <;> simp [RouteCatalog.routes, is]

theorem Launches.decode_accepted (working : batch.kind ≠ .prefill) :
    ¬decodeRefused (requestFor compiler batch entry generation) batch.queryRows ↔
      batch.queryRows ≤ entry.key.verifierRowBucket.toNat ∧
        entry.key.verifierRowBucket.toNat ≤ maxVerifierRows := by
  have notPrompt : (modeOf batch.kind).1 ≠ .prefill := fun isPrefill => working (modeOf_prefill.mp isPrefill)
  have transport : entry.key.attentionTransport = .decodeQueryLse := by
    refine valid_decode launches.accepted ?_
    rw [launches.mode_eq]
    cases isKind : batch.kind with
    | «prefill» => exact absurd isKind working
    | decode => exact .inl rfl
    | verify depth => exact .inr rfl
  have sampled := launches.sampled working
  unfold decodeRefused requestFor
  simp [notPrompt, transport, sampled]

theorem Launches.valid_iff (positive : generation ≠ 0) :
    validateRequest (requestFor compiler batch entry generation) (scheduleFor sha256 compiler.routes batch entry) =
      .ok () ↔ Executable entry batch := by
  have working : (requestFor compiler batch entry generation).mode = .prefill ∨
      (requestFor compiler batch entry generation).mode = .decode ∨
      (requestFor compiler batch entry generation).mode = .verify := by
    unfold requestFor modeOf
    cases batch.kind <;> simp
  rw [validateRequest_working working, launches.shape_accepted positive]
  unfold Executable
  have mode : validateMode (requestFor compiler batch entry generation) = .ok () ↔
      (batch.kind ≠ .prefill → batch.queryRows ≤ entry.key.verifierRowBucket.toNat ∧
        entry.key.verifierRowBucket.toNat ≤ maxVerifierRows) := by
    have shaped := launches.shaped
    have depth_eq := launches.depth_eq
    cases isKind : batch.kind with
    | «prefill» =>
      have isPrefill : entry.key.mode = .prefill := by rw [launches.mode_eq, isKind]; rfl
      obtain ⟨bucket, transport⟩ := valid_prefill launches.accepted isPrefill
      have rows := launches.rows
      rw [validateMode_prefill (by simp [requestFor, modeOf, isKind])]
      simp [prefillRefused, requestFor, modeOf, samplingRouteOf, isKind, bucket, transport, rows]
    | decode =>
      rw [isKind] at shaped
      have rows : batch.rows.length = batch.queryRows := Except.ok.inj shaped
      rw [validateMode_decode (by simp [requestFor, modeOf, isKind])]
      have accepted := @Launches.decode_accepted _ _ _ generation launches (by simp [isKind])
      rw [show (requestFor compiler batch entry generation).activeSequences = batch.queryRows from rows, accepted]
      simp [requestFor, modeOf, isKind]
    | verify depth =>
      rw [isKind] at shaped
      obtain ⟨fits, rows⟩ := checkedMul_eq_some.mp (okOr_eq_ok.mp shaped)
      have depth_ne : depth ≠ 0 := by
        have isVerify : entry.key.mode = .verify := by rw [launches.mode_eq, isKind]; rfl
        rw [isKind] at depth_eq
        intro zero
        exact launches.accepted.verify isVerify (UInt8.toNat_inj.mp (depth_eq.trans zero))
      have isDepth : (requestFor compiler batch entry generation).mtpDepth = depth := by
        simp [requestFor, modeOf, isKind]
      rw [validateMode_verify (by simp [requestFor, modeOf, isKind]) (by rw [isDepth]; exact fits), isDepth]
      have accepted := @Launches.decode_accepted _ _ _ generation launches (by simp [isKind])
      rw [show (requestFor compiler batch entry generation).activeSequences * (depth + 1) = batch.queryRows from rows,
        accepted]
      simp [depth_ne]
  rw [mode, and_assoc]
  exact and_iff_right launches.depth

theorem Launches.admitted (verified : profile.verify sha256 = .ok ())
    (member : entry ∈ profile.entries) (schedule : CollectiveSchedule) :
    profile.admitPlan sha256 (sealedPlan sha256 (requestFor compiler batch entry generation) schedule) = .ok entry := by
  have found : profile.entries.find? (·.graphId = entry.graphId) = some entry :=
    (find?_key_iff (entries_distinct verified)).mpr ⟨member, rfl⟩
  have compatible : ¬GraphProfile.incompatible entry (requestFor compiler batch entry generation) := by
    have prompt : (if (modeOf batch.kind).1 = .prefill then batch.queryRows else 0) ≤ entry.maximumPromptTokens.toNat := by
      split
      next isPrefill => exact launches.prompt_le (modeOf_prefill.mp isPrefill)
      next => exact Nat.zero_le _
    have dcp : dcpRouteOf compiler.routes entry.key.attentionTransport ∈ entry.compatibleDcpRoutes := by
      unfold dcpRouteOf
      split <;> exact launches.dcp _ (by simp [dcpRoutes])
    have sampling := launches.toFits.routes_accepted
    simp only [not_or] at sampling
    unfold GraphProfile.incompatible requestFor
    simp only [not_or]
    exact ⟨not_not.mpr launches.mode_eq, not_not.mpr rfl, not_not.mpr rfl, not_not.mpr launches.depth_eq, not_not.mpr rfl,
      Nat.not_lt.mpr launches.active, Nat.not_lt.mpr prompt, Nat.not_lt.mpr launches.rows_le, not_not.mpr launches.tp,
      not_not.mpr dcp, sampling.2.2⟩
  have working : (modeOf batch.kind).1 ≠ .cacheOnly := by cases batch.kind <;> rintro ⟨⟩
  refine bind_eq_ok.mpr ⟨(), verified, (if_neg working).trans (bind_eq_ok.mpr ⟨entry, okOr_eq_ok.mpr found, ?_⟩)⟩
  exact if_neg compatible

end

end Launching

section Executable
variable {config : SchedulerConfig} {tenantConfigs : List TenantConfig} {epoch : UInt64} {routes : RouteCatalog}
  {compiler : StepPlanCompiler}

/-- The routes are in the lists of every entry, and no payload overflows. -/
structure Compatible (routes : RouteCatalog) (profile : GraphProfile) : Prop where
  tp : ∀ entry ∈ profile.entries, routes.tpRouteId ∈ entry.compatibleTpRoutes
  dcp : ∀ entry ∈ profile.entries, ∀ route ∈ dcpRoutes routes, route ∈ entry.compatibleDcpRoutes
  sampling : ∀ entry ∈ profile.entries, entry.key.mode = .decode ∨ entry.key.mode = .verify →
    ∀ route ∈ [routes.greedyRouteId, routes.topKRouteId, routes.massRouteId], route ∈ entry.compatibleSamplingRoutes
  payload : ∀ entry ∈ profile.entries, ∀ bytes ∈ routes.payloads,
    bytes.toNat * entry.maximumQueryRows.toNat < 2 ^ 32

theorem profile_verified (start : Scheduler.new sha256 config profile tenantConfigs = .ok s) :
    profile.verify sha256 = .ok () ∧ s.profile = profile := by
  unfold Scheduler.new at start
  split at start
  · cases start
  next verified =>
  split at start
  · cases start
  obtain ⟨_, _, start⟩ := bind_eq_ok.mp start
  split at start
  · cases start
  cases start
  exact ⟨verified, rfl⟩

theorem compiler_new (built : StepPlanCompiler.new epoch routes = .ok compiler) :
    compiler.routes = routes ∧ routes.validate = .ok () := by
  unfold StepPlanCompiler.new at built
  split at built
  · cases built
  obtain ⟨_, valid, same⟩ := bind_eq_ok.mp built
  cases same
  exact ⟨rfl, valid⟩

theorem emitted_launches {cached : Nat → Nat} (sound : Sound s cached) (compatible : Compatible compiler.routes s.profile)
    (valid : compiler.routes.validate = .ok ()) (emitted : nextBatch counter s = (.ok (some batch), s')) :
    s'.profile = s.profile ∧ ∃ entry ∈ s.profile.entries, Launches compiler batch entry := by
  have idle : s.inflight = none := by
    cases busy : s.inflight with
    | none => rfl
    | some other =>
      rw [nextBatch_busy busy] at emitted
      cases emitted
  obtain ⟨chosen, rfl⟩ := (nextBatch_ends counter idle).value emitted
  obtain ⟨rows, depth⟩ := chosen.shape sound.accounts.cancelled
  obtain ⟨entry, graphId_eq, member, ⟨mode_eq, depth_eq, active, rows_le, prompt_le⟩, _⟩ := chosen.graph
  have accepted := sound.accounts.cancelled.configured.entries entry member
  refine ⟨rfl, entry, member, ⟨⟨valid, chosen.nonempty, chosen.counted, rows, graphId_eq.symm, by rw [mode_eq, modeOf_eq],
    by rw [depth_eq, modeOf_eq], chosen.greedy, ?_, fun bytes listed => ?_, compatible.tp entry member, compatible.dcp entry member, ?_⟩, accepted,
    active, depth, chosen.shaped, rows_le, prompt_le⟩⟩
  · intro none
    cases isKind : batch.kind with
    | «prefill» =>
      obtain ⟨_, transport⟩ := valid_prefill accepted (by rw [mode_eq, isKind]; rfl)
      simp [none] at transport
    | decode => simp [valid_decode accepted (.inl (by rw [mode_eq, isKind]; rfl))] at none
    | verify deep => simp [valid_decode accepted (.inr (by rw [mode_eq, isKind]; rfl))] at none
  · exact (Nat.mul_le_mul_left _ rows_le).trans_lt (compatible.payload entry member bytes listed)
  · intro working
    refine compatible.sampling entry member ?_ _ (samplingRoute_listed compiler.routes batch.sampling).1
    rw [mode_eq]
    cases isKind : batch.kind with
    | «prefill» => exact absurd isKind working
    | decode => exact .inl rfl
    | verify deep => exact .inr rfl

/-- An emitted batch can be executed exactly when its graph meets the shape rules of step plans. -/
theorem batch_executable_iff (start : Scheduler.new sha256 config profile tenantConfigs = .ok s)
    (calls : List SchedulerCall) (emitted : nextBatch .u64 (run .u64 s calls) = (.ok (some batch), s'))
    (built : StepPlanCompiler.new epoch routes = .ok compiler) (compatible : Compatible routes profile) :
    (∀ generation : UInt64, generation ≠ 0 → ∃ entry compiled, s'.graphEntry batch.graphId = some entry ∧
      compiler.compile sha256 batch entry generation = .ok compiled ∧
      compiled.plan.verify sha256 compiled.schedule = .ok () ∧
      profile.admitPlan sha256 compiled.plan = .ok entry ∧ entry.graphId = batch.graphId) ↔
    ∃ entry, s'.graphEntry batch.graphId = some entry ∧ Executable entry batch := by
  obtain ⟨verified, isProfile⟩ := profile_verified start
  obtain ⟨rfl, valid⟩ := compiler_new built
  obtain ⟨sound, _⟩ := new_sound start
  have profile_eq : (run .u64 s calls).profile = profile := (sound.run_evolves .u64 calls).profile_eq.trans isProfile
  obtain ⟨same, entry, member, launches⟩ :=
    emitted_launches (sound.run .u64 calls) (profile_eq ▸ compatible) valid emitted
  rw [profile_eq] at same member
  have found : s'.graphEntry batch.graphId = some entry := by
    rw [graphEntry, same, launches.graphId_eq]
    exact (find?_key_iff (entries_distinct verified)).mpr ⟨member, rfl⟩
  constructor
  · intro executes
    obtain ⟨other, compiled, isOther, compiles, _⟩ := executes 1 (by decide)
    rw [found] at isOther
    cases isOther
    exact ⟨entry, found, (launches.valid_iff (by decide)).mp ((launches.toFits.compile_eq_ok (by decide)).mp compiles).1⟩
  · rintro ⟨other, isOther, executable⟩ generation positive
    rw [found] at isOther
    cases isOther
    have accepted : validateRequest (requestFor compiler batch entry generation)
        (scheduleFor sha256 compiler.routes batch entry) = .ok () := (launches.valid_iff positive).mpr executable
    refine ⟨entry, _, found, (launches.toFits.compile_eq_ok positive).mpr ⟨accepted, rfl⟩, ?_, ?_, launches.graphId_eq.symm⟩
    · exact sealedPlan_verifies (schedule_verifies (launches.toFits.schedule_new sha256)) accepted
    · exact launches.admitted verified member _

def sampleRoutes : RouteCatalog := ⟨1, 1, 1, 1, 1, 1, 1, 1, 1, 1, 1, 1, 1, 1, 1, 1⟩

def samplePrompt : List SchedulerCall := [.admitRequest ⟨1, 1, 10, 5, 0, .greedy⟩]

def samplePromptBatch : ScheduledBatch := ⟨1, .prefill, 1, [⟨1, 10⟩], 10, .greedy⟩

theorem sampleRoutes_compatible {entries : List GraphEntry} (profile_eq : profile.entries = entries)
    (each : ∀ entry ∈ entries, entry.compatibleTpRoutes = [1] ∧ entry.compatibleDcpRoutes = [1] ∧
      (entry.key.mode = .decode ∨ entry.key.mode = .verify → entry.compatibleSamplingRoutes = [1])) :
    Compatible sampleRoutes profile := by
  subst profile_eq
  refine ⟨?_, ?_, ?_, ?_⟩
  · intro entry member
    simp [(each entry member).1, sampleRoutes]
  · intro entry member route listed
    rw [(each entry member).2.1]
    simpa [dcpRoutes, sampleRoutes] using listed
  · intro entry member working route listed
    rw [(each entry member).2.2 working]
    simpa [sampleRoutes] using listed
  · intro entry member bytes listed
    have one : bytes = 1 := by simpa [RouteCatalog.payloads, sampleRoutes] using listed
    rw [one]
    simpa using entry.maximumQueryRows.toNat_lt

theorem samplePrompt_executable : ∃ entry compiled,
    (nextBatch .u64 (run .u64 sampleScheduler samplePrompt)).2.graphEntry 1 = some entry ∧
    StepPlanCompiler.compile (fun _ => Bytes32.zero) ⟨1, sampleRoutes⟩ samplePromptBatch entry 5 = .ok compiled ∧
    compiled.plan.verify (fun _ => Bytes32.zero) compiled.schedule = .ok () ∧
    sampleProfile.admitPlan (fun _ => Bytes32.zero) compiled.plan = .ok entry ∧ entry.graphId = 1 :=
  (batch_executable_iff new_sampleScheduler samplePrompt
    (Prod.ext (by rfl) rfl : nextBatch .u64 (run .u64 sampleScheduler samplePrompt) =
      (.ok (some samplePromptBatch), (nextBatch .u64 (run .u64 sampleScheduler samplePrompt)).2))
    (rfl : StepPlanCompiler.new 1 sampleRoutes = .ok ⟨1, sampleRoutes⟩)
    (sampleRoutes_compatible rfl (by simp [sampleProfile, sampleEntry]))).mpr
    ⟨sampleEntry 1 .prefill 32 0, by rfl, by decide, by decide, nofun⟩ 5 (by decide)

def oddEntry : GraphEntry :=
  { sampleEntry 1 .prefill 32 0 with key := ⟨.prefill, 3, 0, 0, .prefillQuery⟩, maximumActiveSequences := 3 }

def oddProfile : GraphProfile := { sampleProfile with entries := [oddEntry, sampleEntry 2 .decode 4 0] }

def oddScheduler : Scheduler := { sampleScheduler with profile := oddProfile }

theorem oddBucket_refused :
    GraphProfile.new (fun _ => Bytes32.zero) [oddEntry, sampleEntry 2 .decode 4 0] = .ok oddProfile ∧
    Scheduler.new (fun _ => Bytes32.zero) ⟨4, 32, 2⟩ oddProfile [⟨1, 1, 8⟩, ⟨2, 1, 8⟩] = .ok oddScheduler ∧
    StepPlanCompiler.new 1 sampleRoutes = .ok ⟨1, sampleRoutes⟩ ∧ Compatible sampleRoutes oddProfile ∧
    (nextBatch .u64 (run .u64 oddScheduler samplePrompt)).1 = .ok (some samplePromptBatch) ∧
    (nextBatch .u64 (run .u64 oddScheduler samplePrompt)).2.graphEntry 1 = some oddEntry ∧
    StepPlanCompiler.compile (fun _ => Bytes32.zero) ⟨1, sampleRoutes⟩ samplePromptBatch oddEntry 1 =
      .error (.plan .shape) :=
  ⟨by rfl, rfl, rfl, sampleRoutes_compatible rfl (by simp [oddProfile, oddEntry, sampleEntry]), by rfl,
    by rfl, by rfl⟩

end Executable

end Glmaxx.Proof.Scheduling
