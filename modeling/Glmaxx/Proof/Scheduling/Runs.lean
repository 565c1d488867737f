import Glmaxx.Library.Run
import Glmaxx.Proof.Scheduling.Steps

namespace Glmaxx.Proof.Scheduling
open Std Library Cache Engine Glmaxx.Scheduling Glmaxx.Scheduling.Scheduler

variable {s s' t : Scheduler} {cached : Nat → Nat} {counter : Counter} {success : Bool}
  {batch : ScheduledBatch} {request request' : Request} {entry : SchedulerCall}

section Inflight

/-- Each row of the batch names a request of its own, in the state that the kind needs. -/
structure BatchSound (s : Scheduler) (batch : ScheduledBatch) : Prop where
  nonempty : batch.rows ≠ []
  small : batch.rows.length ≤ s.config.maximumBatchSequences.toNat
  distinct : (batch.rows.map (·.requestId)).Nodup
  each : ∀ row ∈ batch.rows, ∃ request, s.requests[row.requestId]? = some request ∧
    request.state = needed batch.kind

theorem needed_live (kind : BatchKind) : (needed kind).isTerminal = false := by cases kind <;> rfl

theorem needed_decodeKind (depth : Nat) : needed (decodeKind depth) = .decoding := by
  unfold decodeKind
  split <;> rfl

theorem mem_ordered_get (keyed : Keyed t) {state : RequestState} {decodeClass : Option (Nat × SamplingCollective)}
    (member : request ∈ t.orderedRequests state decodeClass) :
    t.requests[request.spec.id]? = some request ∧ request.state = state := by
  obtain ⟨⟨id, found⟩, isState, _⟩ := mem_orderedRequests.mp member
  rw [keyed id request found]
  exact ⟨found, isState⟩

theorem ChosenPrefill.sound (keyed : Keyed t) (nonempty : batch.rows ≠ []) (chosen : ChosenPrefill t batch) :
    BatchSound t batch := by
  obtain ⟨isPrefill, entry, _, _, rows_eq⟩ := chosen
  unfold prefillRows at rows_eq
  have subset := fillRows_sublist
    (min (min t.config.maximumPrefillTokens.toNat entry.maximumPromptTokens.toNat) entry.maximumQueryRows.toNat)
    ((t.orderedRequests .waitingPrefill none).take
      (min t.config.maximumBatchSequences.toNat entry.maximumActiveSequences.toNat))
  rw [← rows_eq] at subset
  refine ⟨nonempty, ?_, ?_, ?_⟩
  · have bound := subset.length_le
    rw [List.length_map, List.length_map, List.length_take] at bound
    omega
  · exact (orderedRequests_nodup keyed .waitingPrefill none).sublist (subset.trans ((List.take_sublist _ _).map _))
  · intro row member
    rw [rows_eq] at member
    obtain ⟨request, listed, isRow, _⟩ := fillRows_each _ _ row member
    obtain ⟨found, waiting⟩ := mem_ordered_get keyed (List.mem_of_mem_take listed)
    refine ⟨request, isRow ▸ found, ?_⟩
    rw [isPrefill]
    exact waiting

theorem ChosenDecode.sound (keyed : Keyed t) (nonempty : batch.rows ≠ []) (chosen : ChosenDecode t batch) :
    BatchSound t batch := by
  obtain ⟨first, depth, _, _, kind_eq, _, n, _, small, rows_eq⟩ := chosen
  have ids : batch.rows.map (·.requestId) =
      ((t.orderedRequests .decoding (some (depth, first.spec.sampling))).take n).map (·.spec.id) := by
    rw [rows_eq, decodeRows, List.map_map]
    rfl
  refine ⟨nonempty, ?_, ?_, ?_⟩
  · have bound := congrArg List.length ids
    rw [List.length_map, List.length_map, List.length_take] at bound
    omega
  · rw [ids]
    exact (orderedRequests_nodup keyed .decoding _).sublist ((List.take_sublist _ _).map _)
  · intro row member
    rw [rows_eq] at member
    obtain ⟨request, listed, rfl⟩ := List.mem_map.mp member
    obtain ⟨found, decoding⟩ := mem_ordered_get keyed (List.mem_of_mem_take listed)
    refine ⟨request, found, ?_⟩
    rw [kind_eq, needed_decodeKind]
    exact decoding

theorem Chosen.sound (keyed : Keyed t) (chosen : Chosen t batch) : BatchSound t batch := by
  have rows := chosen.rows
  split at rows
  · exact rows.sound keyed chosen.nonempty
  · exact rows.sound keyed chosen.nonempty

end Inflight

section Steps

structure Sound (s : Scheduler) (cached : Nat → Nat) : Prop where
  accounts : Accounts s cached
  inflight : ∀ batch, s.inflight = some batch → BatchSound s batch

def noteAdmission (counter : Counter) (s : Scheduler) (entry : SchedulerCall) (cached : Nat → Nat) : Nat → Nat :=
  match admission entry, (call counter entry s).1 with
  | some (spec, tokens), .ok () => Function.update cached spec.id tokens.toNat
  | _, _ => cached

theorem Sound.accepts (sound : Sound s cached) (accepts : Accepts entry s s') :
    Sound s' (match admission entry with
      | some (spec, tokens) => Function.update cached spec.id tokens.toNat
      | none => cached) := by
  have accounts := sound.accounts
  cases accepts with
  | admits isAdmission admits =>
    rw [isAdmission]
    refine ⟨accounts.admits admits, ?_⟩
    obtain ⟨_, unknown, _, _, rfl⟩ := admits
    intro batch isBatch
    have before := sound.inflight batch isBatch
    refine ⟨before.nonempty, before.small, before.distinct, fun row member => ?_⟩
    obtain ⟨request, found, isState⟩ := before.each row member
    refine ⟨request, ?_, isState⟩
    exact getElem?_insert_old unknown found
  | cancels _ _ =>
    exact ⟨accounts.carry rfl rfl rfl rfl, fun batch isBatch => by
      obtain ⟨nonempty, small, distinct, each⟩ := sound.inflight batch isBatch
      exact ⟨nonempty, small, distinct, each⟩⟩
  | ignores => exact sound
  | settles idle isBoundary =>
    have none : admission entry = none := by rcases isBoundary with rfl | ⟨rfl, _⟩ <;> rfl
    rw [none]
    exact ⟨accounts.cancelled, fun batch isBatch => absurd (idle.symm.trans isBatch) nofun⟩
  | launches idle chosen =>
    refine ⟨accounts.cancelled.carry rfl rfl rfl rfl, fun other isBatch => ?_⟩
    cases isBatch
    obtain ⟨nonempty, small, distinct, each⟩ := chosen.sound accounts.cancelled.keyed
    exact ⟨nonempty, small, distinct, each⟩
  | completes isCompletion inflight completes =>
    have none : admission entry = none := by cases entry <;> first | rfl | cases isCompletion
    rw [none]
    exact ⟨completes.accounts cached accounts, fun batch isBatch => absurd (completes.inflight_eq.symm.trans isBatch) nofun⟩

theorem Sound.refuses (sound : Sound s cached) (refuses : Refuses entry s s') : Sound s' cached := by
  rcases refuses with rfl | ⟨_, idle, rfl, _⟩
  · exact sound
  · exact ⟨sound.accounts.cancelled, fun batch isBatch => absurd (idle.symm.trans isBatch) nofun⟩

theorem Sound.call (sound : Sound s cached) (counter : Counter) (entry : SchedulerCall) :
    Sound (call counter entry s).2 (noteAdmission counter s entry cached) := by
  have ends := call_ends counter entry s
  unfold noteAdmission
  unfold Action.Ends at ends
  split at ends
  next ran =>
    rw [ran]
    have after := sound.accepts ends
    split at after <;> rename_i isAdmission <;> rw [isAdmission] <;> exact after
  next ran =>
    rw [ran]
    have after := sound.refuses ends
    split
    next impossible => cases impossible
    next => exact after

end Steps

section Evolution

structure Later (request request' : Request) : Prop where
  spec_eq : request'.spec = request.spec
  prompt_le : request.promptDone ≤ request'.promptDone
  generated_le : request.generated ≤ request'.generated
  ended : request.state.isTerminal = true → request' = request

theorem Later.refl (request : Request) : Later request request := ⟨rfl, le_rfl, le_rfl, fun _ => rfl⟩

theorem Later.trans {request'' : Request} (first : Later request request') (second : Later request' request'') :
    Later request request'' := by
  refine ⟨second.spec_eq.trans first.spec_eq, first.prompt_le.trans second.prompt_le,
    first.generated_le.trans second.generated_le, fun ended => ?_⟩
  have same := first.ended ended
  rw [← same] at ended
  exact (second.ended ended).trans same

theorem cancelRequest_later (request : Request) : Later request (cancelRequest request) := by
  obtain ⟨spec_eq, prompt_eq, generated_eq⟩ := cancelRequest_spec request
  refine ⟨spec_eq, prompt_eq.ge, generated_eq.ge, fun ended => ?_⟩
  rcases cancelRequest_cases request with same | ⟨notFinished, notFailed, same⟩
  · exact same
  · obtain ⟨spec, state, promptDone, generated⟩ := request
    cases state with
    | cancelled => exact same
    | finished => exact absurd rfl notFinished
    | failed => exact absurd rfl notFailed
    | waitingPrefill | decoding => cases ended

structure Evolves (s s' : Scheduler) : Prop where
  config_eq : s'.config = s.config
  profile_eq : s'.profile = s.profile
  tenants : ∀ j : Nat, ∃ delta, s'.tenants[j]? = s.tenants[j]?.map (charged delta)
  requests : ∀ (j : Nat) (request : Request), s.requests[j]? = some request →
    ∃ request', s'.requests[j]? = some request' ∧ Later request request'

theorem Evolves.refl (s : Scheduler) : Evolves s s :=
  ⟨rfl, rfl, fun _ => ⟨0, (charged_zero _).symm⟩, fun _ request found => ⟨request, found, Later.refl request⟩⟩

theorem Evolves.trans (first : Evolves s s') (second : Evolves s' t) : Evolves s t := by
  refine ⟨second.config_eq.trans first.config_eq, second.profile_eq.trans first.profile_eq, ?_, ?_⟩
  · intro j
    obtain ⟨delta, was⟩ := first.tenants j
    obtain ⟨more, is⟩ := second.tenants j
    refine ⟨delta + more, ?_⟩
    rw [is, was, Option.map_map]
    refine congrArg (Option.map · s.tenants[j]?) (funext fun tenant => ?_)
    simp [charged, Nat.add_assoc]
  · intro j request found
    obtain ⟨request', found', later⟩ := first.requests j request found
    obtain ⟨request'', found'', later'⟩ := second.requests j request' found'
    exact ⟨request'', found'', later.trans later'⟩

theorem applyCancellations_evolves (s : Scheduler) : Evolves s (applyCancellations s) := by
  refine ⟨rfl, rfl, fun _ => ⟨0, (charged_zero _).symm⟩, fun j request found => ?_⟩
  rw [getElem?_applyCancellations, found]
  refine ⟨_, rfl, ?_⟩
  split
  · exact cancelRequest_later request
  · exact Later.refl request

theorem Served.later {kind : BatchKind} {delta : Nat} (served : Served kind request request' delta) :
    Later request request' := by
  refine ⟨served.spec_eq, served.prompt_le, served.generated_le, fun ended => ?_⟩
  rw [served.state_eq, needed_live] at ended
  cases ended

theorem Completes.evolves (completes : Completes success batch s s') (sound : BatchSound s batch) : Evolves s s' := by
  refine ⟨completes.config_eq, completes.profile_eq, ?_, ?_⟩
  · intro j
    obtain ⟨delta, charges, _⟩ := completes.serves.tenants j
    exact ⟨delta, charges⟩
  · intro j request found
    by_cases listed : j ∈ batch.rows.map (·.requestId)
    · obtain ⟨other, request', delta, was, is, outcome⟩ := completes.serves.each j listed
      rw [found] at was
      cases was
      refine ⟨request', is, ?_⟩
      cases success with
      | true => exact Served.later outcome
      | false =>
        obtain ⟨rfl, _⟩ := outcome
        refine ⟨rfl, le_rfl, le_rfl, fun ended => ?_⟩
        obtain ⟨row, member, rfl⟩ := List.mem_map.mp listed
        obtain ⟨same, isSame, isState⟩ := sound.each row member
        rw [found] at isSame
        cases isSame
        rw [isState, needed_live] at ended
        cases ended
    · exact ⟨request, (completes.serves.others j listed).trans found, Later.refl request⟩

theorem Sound.evolves (sound : Sound s cached) (accepts : Accepts entry s s') : Evolves s s' := by
  cases accepts with
  | admits _ admits =>
    obtain ⟨_, unknown, _, _, rfl⟩ := admits
    refine ⟨rfl, rfl, fun _ => ⟨0, (charged_zero _).symm⟩, fun j request found => ⟨request, ?_, Later.refl request⟩⟩
    exact getElem?_insert_old unknown found
  | cancels _ _ => exact ⟨rfl, rfl, (Evolves.refl s).tenants, (Evolves.refl s).requests⟩
  | ignores => exact Evolves.refl s
  | settles _ _ => exact applyCancellations_evolves s
  | launches _ _ =>
    have settled := applyCancellations_evolves s
    exact ⟨rfl, rfl, settled.tenants, settled.requests⟩
  | completes _ inflight completes => exact completes.evolves (sound.inflight _ inflight)

theorem Sound.call_evolves (sound : Sound s cached) (counter : Counter) (entry : SchedulerCall) :
    Evolves s (Scheduler.call counter entry s).2 := by
  have ends := call_ends counter entry s
  unfold Action.Ends at ends
  split at ends
  next ran =>
    rw [ran]
    exact sound.evolves ends
  next ran =>
    rw [ran]
    rcases ends with rfl | ⟨_, _, rfl, _⟩
    · exact Evolves.refl _
    · exact applyCancellations_evolves s

end Evolution

section Start
variable {sha256 : List UInt8 → Bytes32} {config : SchedulerConfig} {profile : GraphProfile}
  {tenantConfigs : List TenantConfig}

theorem addTenants_each {tenants tenants' : ExtTreeMap Nat Tenant} (ok : addTenants tenants tenantConfigs = .ok tenants')
    (before : ∀ (id : Nat) (tenant : Tenant), tenants[id]? = some tenant →
      tenant.config.weight ≠ 0 ∧ tenant.serviceUnits = 0) :
    ∀ (id : Nat) (tenant : Tenant), tenants'[id]? = some tenant →
      tenant.config.weight ≠ 0 ∧ tenant.serviceUnits = 0 := by
  induction tenantConfigs generalizing tenants with
  | nil =>
    cases ok
    exact before
  | cons config rest ih =>
    unfold addTenants at ok
    split at ok
    · cases ok
    next accepted =>
    refine ih ok fun id tenant found => ?_
    rw [ExtTreeMap.getElem?_insert] at found
    split at found
    · cases found
      exact ⟨fun zero => accepted (.inr (.inl zero)), rfl⟩
    · exact before id tenant found

theorem new_sound (ok : Scheduler.new sha256 config profile tenantConfigs = .ok s) :
    Sound s (fun _ => 0) ∧ s.config = config ∧ s.nextStepId = 1 ∧ s.requests = ∅ := by
  unfold Scheduler.new at ok
  split at ok
  · cases ok
  next verified =>
  split at ok
  · cases ok
  next accepted =>
  simp only [not_or] at accepted
  obtain ⟨batch_pos, batch_le, prefill_pos, burst_pos⟩ := accepted
  obtain ⟨tenants, added, ok⟩ := bind_eq_ok.mp ok
  split at ok
  · cases ok
  cases ok
  have each := addTenants_each added fun id tenant found => by simp at found
  have empty (id : Nat) (request : Request) (found : (∅ : ExtTreeMap Nat Request)[id]? = some request) : False := by
    simp at found
  refine ⟨⟨⟨?_, ?_, ?_, ?_, ?_, ?_⟩, nofun⟩, rfl, rfl, rfl⟩
  · refine ⟨?_, Nat.not_lt.mp batch_le, toNat_pos_of_ne prefill_pos, ?_, GraphProfile.valid_of_verify verified, ?_⟩
    · exact Nat.pos_of_ne_zero fun zero => batch_pos (UInt16.toNat_inj.mp zero)
    · exact Nat.pos_of_ne_zero fun zero => burst_pos (UInt16.toNat_inj.mp zero)
    · exact fun id tenant found => (each id tenant found).1
  · exact fun id request found => (empty id request found).elim
  · exact fun id request found => (empty id request found).elim
  · exact fun id request found => (empty id request found).elim
  · intro id tenant _
    rw [activeRequests_eq, total_empty]
    exact Nat.zero_le _
  · intro id tenant found
    rw [total_empty]
    exact (each id tenant found).2

end Start

section Runs

def recordCall (counter : Counter) (state : Scheduler × (Nat → Nat)) (entry : SchedulerCall) :
    Scheduler × (Nat → Nat) :=
  ((Scheduler.call counter entry state.1).2, noteAdmission counter state.1 entry state.2)

def cachedTokens (counter : Counter) (s : Scheduler) (calls : List SchedulerCall) : Nat → Nat :=
  (calls.foldl (recordCall counter) (s, fun _ => 0)).2

theorem recordCall_run (counter : Counter) (state : Scheduler × (Nat → Nat)) (calls : List SchedulerCall) :
    (calls.foldl (recordCall counter) state).1 = run counter state.1 calls := by
  induction calls generalizing state with
  | nil => rfl
  | cons entry rest ih => exact ih (recordCall counter state entry)

theorem Sound.run (sound : Sound s fun _ => 0) (counter : Counter) (calls : List SchedulerCall) :
    Sound (run counter s calls) (cachedTokens counter s calls) := by
  rw [← recordCall_run counter (s, fun _ => 0)]
  refine foldl_invariant (fun state : Scheduler × (Nat → Nat) => Sound state.1 state.2) ?_ calls (s, fun _ => 0) sound
  intro state entry sound
  exact sound.call counter entry

theorem Sound.run_evolves (sound : Sound s cached) (counter : Counter) (calls : List SchedulerCall) :
    Evolves s (Scheduler.run counter s calls) := by
  induction calls generalizing s cached with
  | nil => exact Evolves.refl s
  | cons entry rest ih => exact (sound.call_evolves counter entry).trans (ih (sound.call counter entry))

theorem run_append (counter : Counter) (s : Scheduler) (calls more : List SchedulerCall) :
    run counter s (calls ++ more) = run counter (run counter s calls) more := List.foldl_append ..

theorem completion_refused {error : SchedulerError} (isCompletion : completion entry ≠ none)
    (refused : (Scheduler.call counter entry s).1 = .error error) : (Scheduler.call counter entry s).2 = s := by
  have ends := call_ends counter entry s
  unfold Action.Ends at ends
  split at ends
  next ran =>
    rw [ran] at refused
    cases refused
  next ran =>
    rw [ran]
    rcases ends with same | ⟨rfl, _⟩
    · exact same
    · exact absurd rfl isCompletion

theorem run_keeps_accounts {sha256 : List UInt8 → Bytes32} {config : SchedulerConfig} {profile : GraphProfile}
    {tenantConfigs : List TenantConfig} (start : Scheduler.new sha256 config profile tenantConfigs = .ok s)
    (calls : List SchedulerCall) :
    (∀ (id : Nat) (request : Request), (run .u64 s calls).requests[id]? = some request →
      request.promptDone ≤ request.spec.promptTokens.toNat ∧
      request.generated ≤ request.spec.maximumNewTokens.toNat ∧
      (request.state = .waitingPrefill →
        request.promptDone < request.spec.promptTokens.toNat ∧ request.generated = 0) ∧
      (request.state = .decoding → request.promptDone = request.spec.promptTokens.toNat ∧
        request.generated < request.spec.maximumNewTokens.toNat) ∧
      (request.state.isTerminal = true →
        ∀ more, (run .u64 s (calls ++ more)).requests[id]? = some request) ∧
      cachedTokens .u64 s calls id ≤ request.promptDone) ∧
    (∀ (id : Nat) (tenant : Tenant), (run .u64 s calls).tenants[id]? = some tenant →
      (run .u64 s calls).activeRequests id ≤ tenant.config.maximumActiveRequests.toNat ∧
      tenant.serviceUnits = total (run .u64 s calls).requests (serviceOf (cachedTokens .u64 s calls) id)) ∧
    (∀ batch, (run .u64 s calls).inflight = some batch →
      1 ≤ batch.rows.length ∧ batch.rows.length ≤ config.maximumBatchSequences.toNat ∧
      (batch.rows.map (·.requestId)).Nodup ∧
      ∀ row ∈ batch.rows, ∃ request, (run .u64 s calls).requests[row.requestId]? = some request ∧
        request.state = needed batch.kind) ∧
    ∀ entry error, completion entry ≠ none →
      (call .u64 entry (run .u64 s calls)).1 = .error error →
      (call .u64 entry (run .u64 s calls)).2 = run .u64 s calls := by
  obtain ⟨sound, config_eq, _⟩ := new_sound start
  have after := sound.run .u64 calls
  refine ⟨?_, ?_, ?_, fun entry error => completion_refused⟩
  · intro id request found
    obtain ⟨its, within⟩ := after.accounts.sound id request found
    refine ⟨its.prompt, its.generated, its.waiting, its.decoding, fun ended more => ?_, within⟩
    obtain ⟨request', found', later⟩ := (after.run_evolves .u64 more).requests id request found
    rw [run_append, found', later.ended ended]
  · exact fun id tenant found => ⟨after.accounts.active id tenant found, after.accounts.service id tenant found⟩
  · intro batch inflight
    obtain ⟨nonempty, small, distinct, each⟩ := after.inflight batch inflight
    rw [(sound.run_evolves .u64 calls).config_eq, config_eq] at small
    exact ⟨List.length_pos_of_ne_nil nonempty, small, distinct, each⟩

def sampleEntry (graphId : UInt32) (mode : StepMode) (rows : UInt32) (depth : UInt8) : GraphEntry where
  graphId := graphId
  key := ⟨mode, 4, if mode = .prefill then 0 else rows, depth,
    if mode = .prefill then .prefillQuery else .decodeQueryLse⟩
  maximumActiveSequences := 4
  maximumPromptTokens := if mode = .prefill then rows else 0
  maximumQueryRows := rows
  compatibleTpRoutes := [1]
  compatibleDcpRoutes := [1]
  compatibleSamplingRoutes := if mode = .prefill then [] else [1]
  maximumScratchBytes := 1
  argumentBytes := 1
  graphObjectBytes := 1
  residentModuleBytes := 1
  admissionSloClass := 1

def sampleProfile : GraphProfile where
  schema := graphProfileSchema
  stepPlanAbi := Engine.stepPlanAbi
  kernelAbi := Engine.kernelAbi
  entries := [sampleEntry 1 .prefill 32 0, sampleEntry 2 .decode 4 0, sampleEntry 3 .verify 28 6]
  profileHash := Bytes32.zero

def sampleScheduler : Scheduler where
  config := ⟨4, 32, 2⟩
  profile := sampleProfile
  tenants := ((∅ : ExtTreeMap Nat Tenant).insert 1 ⟨⟨1, 1, 8⟩, 0⟩).insert 2 ⟨⟨2, 1, 8⟩, 0⟩
  requests := ∅
  cancellations := ∅
  inflight := none
  nextStepId := 1
  decodeBurst := 0

theorem new_sampleScheduler :
    Scheduler.new (fun _ => Bytes32.zero) ⟨4, 32, 2⟩ sampleProfile [⟨1, 1, 8⟩, ⟨2, 1, 8⟩] = .ok sampleScheduler := by
  rfl

def mixedCalls : List SchedulerCall :=
  [.admitWithPrefix ⟨1, 1, 100, 5, 6, .greedy⟩ 64, .admitRequest ⟨2, 2, 7, 5, 0, .greedy⟩, .nextBatch,
    .completeBatch true, .cancel 2, .nextBatch]

/-- The last tokens of the first prompt are in flight, and the second request is cancelled. -/
theorem run_keeps_accounts_mixed : let s := run .u64 sampleScheduler mixedCalls
    (∃ request : Request, s.requests[1]? = some request ∧ request.promptDone < request.spec.promptTokens.toNat ∧
      request.generated = 0 ∧ cachedTokens .u64 sampleScheduler mixedCalls 1 ≤ request.promptDone) ∧
    (∃ request : Request, s.requests[2]? = some request ∧ request.state = .cancelled ∧
      ∀ more, (run .u64 sampleScheduler (mixedCalls ++ more)).requests[2]? = some request) ∧
    (∃ tenant : Tenant, s.tenants[1]? = some tenant ∧ s.activeRequests 1 ≤ tenant.config.maximumActiveRequests.toNat ∧
      tenant.serviceUnits = total s.requests (serviceOf (cachedTokens .u64 sampleScheduler mixedCalls) 1)) ∧
    (∃ batch, s.inflight = some batch ∧ 1 ≤ batch.rows.length ∧ batch.rows.length ≤ 4 ∧
      (batch.rows.map (·.requestId)).Nodup ∧ ∀ row ∈ batch.rows, ∃ request : Request,
        s.requests[row.requestId]? = some request ∧ request.state = needed batch.kind) ∧
    (call .u64 (.completeBatchWithCommits true [(2, 1)]) s).2 = s := by
  intro s
  obtain ⟨requests, tenants, inflight, refused⟩ := run_keeps_accounts new_sampleScheduler mixedCalls
  have waiting : s.requestState 1 = some .waitingPrefill := by rfl
  have cancelled : s.requestState 2 = some .cancelled := by rfl
  have known : s.tenants[1]?.isSome = true := by rfl
  have busy : s.inflight.isSome = true := by rfl
  obtain ⟨first, found, isWaiting⟩ := Option.map_eq_some_iff.mp waiting
  obtain ⟨second, found', isCancelled⟩ := Option.map_eq_some_iff.mp cancelled
  obtain ⟨tenant, isTenant⟩ := Option.isSome_iff_exists.mp known
  obtain ⟨batch, isBatch⟩ := Option.isSome_iff_exists.mp busy
  obtain ⟨-, -, waits, -, -, cached⟩ := requests 1 first found
  obtain ⟨-, -, -, -, ends, -⟩ := requests 2 second found'
  exact ⟨⟨first, found, (waits isWaiting).1, (waits isWaiting).2, cached⟩,
    ⟨second, found', isCancelled, ends (by rw [isCancelled]; rfl)⟩, ⟨tenant, isTenant, tenants 1 tenant isTenant⟩,
    ⟨batch, isBatch, inflight batch isBatch⟩, refused _ .commit (by decide) (by rfl)⟩

end Runs

section Cancellation
variable {id : Nat} {old : Option ScheduledBatch}

/-- The request has ended or waits for a boundary, and only the batch that ran at its cancellation names it. -/
structure Withdrawn (id : Nat) (old : Option ScheduledBatch) (s : Scheduler) : Prop where
  settled : ∃ request, s.requests[id]? = some request ∧ (request.state.isTerminal = true ∨ id ∈ s.cancellations)
  running : ∀ batch, s.inflight = some batch → id ∈ batch.rows.map (·.requestId) → old = some batch

theorem cancel_withdraws (accepted : (cancel id s).1 = .ok ()) : Withdrawn id s.inflight (cancel id s).2 := by
  have ends : Action.Ends (cancel id) s (fun _ s' => Withdrawn id s.inflight s') fun _ _ => True := by
    refine Action.Ends.updates (fun _ s' ran => ?_) fun _ _ => trivial
    obtain ⟨request, found, ran⟩ := bind_eq_ok.mp ran
    have found := okOr_eq_ok.mp found
    split at ran <;> cases ran
    next ended => exact ⟨⟨request, found, .inl ended⟩, fun _ same _ => same⟩
    next => exact ⟨⟨request, found, .inr (Finset.mem_insert_self ..)⟩, fun _ same _ => same⟩
  exact ends.value (Prod.ext accepted rfl)

theorem Withdrawn.settle (withdrawn : Withdrawn id old s) : Withdrawn id old (applyCancellations s) := by
  obtain ⟨request, found, settled⟩ := withdrawn.settled
  refine ⟨?_, withdrawn.running⟩
  rw [getElem?_applyCancellations, found]
  refine ⟨_, rfl, .inl ?_⟩
  split
  next => exact cancelRequest_isTerminal request
  next absent => exact settled.resolve_right absent

theorem Withdrawn.accepts (withdrawn : Withdrawn id old s) (sound : Sound s cached) (accepts : Accepts entry s s') :
    Withdrawn id old s' := by
  obtain ⟨request, found, settled⟩ := withdrawn.settled
  cases accepts with
  | admits _ admits =>
    obtain ⟨_, unknown, _, _, rfl⟩ := admits
    exact ⟨⟨request, getElem?_insert_old unknown found, settled⟩, withdrawn.running⟩
  | cancels _ _ => exact ⟨⟨request, found, settled.imp_right (Finset.mem_insert_of_mem ·)⟩, withdrawn.running⟩
  | ignores => exact withdrawn
  | settles _ _ => exact withdrawn.settle
  | launches idle chosen =>
    -- The boundary has ended the request, and each row of the batch names a live one.
    obtain ⟨ended, isEnded, settled⟩ := withdrawn.settle.settled
    refine ⟨⟨ended, isEnded, settled⟩, fun batch isBatch listed => ?_⟩
    obtain ⟨row, member, rfl⟩ := List.mem_map.mp listed
    obtain ⟨live, isLive, state_eq⟩ := ((sound.accepts (.launches idle chosen)).inflight batch isBatch).each row member
    cases isEnded.symm.trans isLive
    rw [state_eq, needed_live] at settled
    simp [applyCancellations] at settled
  | completes _ inflight completes =>
    obtain ⟨request', found', later⟩ := (completes.evolves (sound.inflight _ inflight)).requests id request found
    refine ⟨⟨request', found', ?_⟩, fun batch isBatch => ?_⟩
    · rw [completes.cancellations_eq]
      exact settled.imp_left fun ended => later.ended ended ▸ ended
    · cases completes.inflight_eq.symm.trans isBatch

theorem Withdrawn.run (withdrawn : Withdrawn id old s) (sound : Sound s cached) (counter : Counter)
    (calls : List SchedulerCall) : Withdrawn id old (Scheduler.run counter s calls) := by
  induction calls generalizing s cached with
  | nil => exact withdrawn
  | cons entry rest ih =>
    refine ih (Action.Ends.relates (R := fun _ s' => Withdrawn id old s') ?_) (sound.call counter entry)
    refine (call_ends counter entry s).mono (fun _ _ accepts => withdrawn.accepts sound accepts) ?_
    rintro _ _ (rfl | ⟨_, _, rfl, _⟩)
    · exact withdrawn
    · exact withdrawn.settle

theorem cancelled_never_launched {sha256 : List UInt8 → Bytes32} {config : SchedulerConfig} {profile : GraphProfile}
    {tenantConfigs : List TenantConfig} (start : Scheduler.new sha256 config profile tenantConfigs = .ok s)
    (calls more : List SchedulerCall) (accepted : (call .u64 (.cancel id) (run .u64 s calls)).1 = .ok ()) :
    Withdrawn id (run .u64 s calls).inflight (run .u64 s (calls ++ .cancel id :: more)) := by
  have sound := (new_sound start).1.run .u64 calls
  rw [run_append]
  exact (cancel_withdraws accepted).run (sound.call .u64 (.cancel id)) .u64 more

theorem cancelled_while_running : Withdrawn 2
    (run .u64 sampleScheduler [.admitRequest ⟨2, 2, 7, 5, 0, .greedy⟩, .nextBatch]).inflight
    (run .u64 sampleScheduler ([.admitRequest ⟨2, 2, 7, 5, 0, .greedy⟩, .nextBatch] ++ .cancel 2 ::
      [.completeBatch true, .nextBatch])) :=
  cancelled_never_launched new_sampleScheduler _ _ rfl

end Cancellation

end Glmaxx.Proof.Scheduling
