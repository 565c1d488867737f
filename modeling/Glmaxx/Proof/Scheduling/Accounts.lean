import Glmaxx.Proof.Scheduling.Selection

namespace Glmaxx.Proof.Scheduling
open Std Library Cache Engine Glmaxx.Scheduling Glmaxx.Scheduling.Scheduler

structure RequestSound (request : Request) : Prop where
  limit : 0 < request.spec.maximumNewTokens.toNat
  prompt : request.promptDone ≤ request.spec.promptTokens.toNat
  generated : request.generated ≤ request.spec.maximumNewTokens.toNat
  waiting : request.state = .waitingPrefill →
    request.promptDone < request.spec.promptTokens.toNat ∧ request.generated = 0
  decoding : request.state = .decoding →
    request.promptDone = request.spec.promptTokens.toNat ∧
      request.generated < request.spec.maximumNewTokens.toNat

structure Configured (s : Scheduler) : Prop where
  batch_pos : 0 < s.config.maximumBatchSequences.toNat
  batch_le : s.config.maximumBatchSequences.toNat ≤ maximumBatchRows
  prefill_pos : 0 < s.config.maximumPrefillTokens.toNat
  burst_pos : 0 < s.config.maximumDecodeBurst.toNat
  entries : ∀ entry ∈ s.profile.entries, entry.Valid
  weighted : Weighted s

structure Admitted (s : Scheduler) (spec : RequestSpec) : Prop where
  id_pos : spec.id ≠ 0
  depth : spec.mtpDepth.toNat ≤ 6
  graph : s.hasGraphForRequest spec = true
  tenant : ∃ tenant, s.tenants[spec.tenant]? = some tenant

def serviceOf (cached : Nat → Nat) (tenant id : Nat) (request : Request) : Nat :=
  if request.spec.tenant = tenant then request.promptDone - cached id + request.generated else 0

/-- The books of a scheduler; `cached` tells the prompt tokens that were cached at each admission. -/
structure Accounts (s : Scheduler) (cached : Nat → Nat) : Prop where
  configured : Configured s
  keyed : Keyed s
  admitted : ∀ (id : Nat) (request : Request), s.requests[id]? = some request → Admitted s request.spec
  sound : ∀ (id : Nat) (request : Request), s.requests[id]? = some request →
    RequestSound request ∧ cached id ≤ request.promptDone
  active : ∀ (id : Nat) (tenant : Tenant), s.tenants[id]? = some tenant →
    s.activeRequests id ≤ tenant.config.maximumActiveRequests.toNat
  service : ∀ (id : Nat) (tenant : Tenant), s.tenants[id]? = some tenant →
    tenant.serviceUnits = total s.requests (serviceOf cached id)

variable {s s' : Scheduler} {cached : Nat → Nat} {id delta : Nat} {request request' : Request}

theorem activeRequests_eq (s : Scheduler) (tenant : Nat) : s.activeRequests tenant =
    total s.requests fun _ request =>
      if request.spec.tenant = tenant ∧ request.state.isTerminal = false then 1 else 0 := by
  unfold activeRequests
  rw [countP_values]
  simp only [decide_eq_true_eq]

def SameTenants (s s' : Scheduler) : Prop :=
  ∀ id : Nat, s'.tenants[id]?.map (·.config) = s.tenants[id]?.map (·.config)

theorem SameTenants.back (same : SameTenants s s') {tenant' : Tenant} (found : s'.tenants[id]? = some tenant') :
    ∃ tenant, s.tenants[id]? = some tenant ∧ tenant'.config = tenant.config := by
  have agree := same id
  rw [found] at agree
  obtain ⟨tenant, isTenant, config_eq⟩ := Option.map_eq_some_iff.mp agree.symm
  exact ⟨tenant, isTenant, config_eq.symm⟩

theorem SameTenants.symm (same : SameTenants s s') : SameTenants s' s := fun id => (same id).symm

theorem sameTenants_of_eq (tenants_eq : s'.tenants = s.tenants) : SameTenants s s' := fun _ => by rw [tenants_eq]

theorem Configured.carry (configured : Configured s) (config_eq : s'.config = s.config)
    (profile_eq : s'.profile = s.profile) (same : SameTenants s s') : Configured s' := by
  refine ⟨?_, ?_, ?_, ?_, ?_, ?_⟩
  · exact config_eq ▸ configured.batch_pos
  · exact config_eq ▸ configured.batch_le
  · exact config_eq ▸ configured.prefill_pos
  · exact config_eq ▸ configured.burst_pos
  · exact profile_eq ▸ configured.entries
  · intro id tenant' found
    obtain ⟨tenant, found, config_eq⟩ := same.back found
    exact config_eq ▸ configured.weighted id tenant found

theorem Admitted.carry {spec : RequestSpec} (admitted : Admitted s spec) (profile_eq : s'.profile = s.profile)
    (same : SameTenants s s') : Admitted s' spec := by
  refine ⟨admitted.id_pos, admitted.depth, ?_, ?_⟩
  · have graph := admitted.graph
    unfold hasGraphForRequest at graph ⊢
    rwa [profile_eq]
  · obtain ⟨tenant, found⟩ := admitted.tenant
    obtain ⟨tenant', found', _⟩ := same.symm.back found
    exact ⟨tenant', found'⟩

section
variable (accounts : Accounts s cached) (config_eq : s'.config = s.config) (profile_eq : s'.profile = s.profile)
include accounts config_eq profile_eq

theorem Accounts.carry (tenants_eq : s'.tenants = s.tenants)
    (requests_eq : s'.requests = s.requests) : Accounts s' cached := by
  have active_eq (tenant : Nat) : s'.activeRequests tenant = s.activeRequests tenant := by
    unfold activeRequests
    rw [requests_eq]
  have same := sameTenants_of_eq tenants_eq
  refine ⟨accounts.configured.carry config_eq profile_eq same, ?_, ?_, ?_, ?_, ?_⟩
  · intro id request found
    exact accounts.keyed id request (requests_eq ▸ found)
  · intro id request found
    exact (accounts.admitted id request (requests_eq ▸ found)).carry profile_eq same
  · intro id request found
    exact accounts.sound id request (requests_eq ▸ found)
  · intro id tenant found
    rw [active_eq]
    exact accounts.active id tenant (tenants_eq ▸ found)
  · intro id tenant found
    rw [requests_eq]
    exact accounts.service id tenant (tenants_eq ▸ found)

def charged (delta : Nat) (tenant : Tenant) : Tenant := { tenant with serviceUnits := tenant.serviceUnits + delta }

theorem Accounts.serve (found : s.requests[id]? = some request)
    (requests_eq : ∀ j : Nat, s'.requests[j]? = if j = id then some request' else s.requests[j]?)
    (tenants_eq : ∀ j : Nat, s'.tenants[j]? =
      if j = request.spec.tenant then s.tenants[j]?.map (charged delta) else s.tenants[j]?)
    (spec_eq : request'.spec = request.spec) (sound : RequestSound request')
    (advanced : request.promptDone ≤ request'.promptDone)
    (progress : request'.promptDone + request'.generated = request.promptDone + request.generated + delta)
    (ended : request.state.isTerminal = true → request'.state.isTerminal = true) : Accounts s' cached := by
  have same : SameTenants s s' := by
    intro j
    rw [tenants_eq]
    split
    · rw [Option.map_map]
      rfl
    · rfl
  have here : s'.requests[id]? = some request' := by rw [requests_eq, if_pos rfl]
  have agree : ∀ j : Nat, j ≠ id → s'.requests[j]? = s.requests[j]? := fun j other => by
    rw [requests_eq, if_neg other]
  obtain ⟨_, within⟩ := accounts.sound id request found
  refine ⟨accounts.configured.carry config_eq profile_eq same, ?_, ?_, ?_, ?_, ?_⟩
  · intro j other isOther
    rw [requests_eq] at isOther
    split at isOther
    next isHere =>
      cases isOther
      rw [spec_eq, isHere]
      exact accounts.keyed id request found
    next => exact accounts.keyed j other isOther
  · intro j other isOther
    rw [requests_eq] at isOther
    split at isOther
    next =>
      cases isOther
      exact spec_eq ▸ (accounts.admitted id request found).carry profile_eq same
    next => exact (accounts.admitted j other isOther).carry profile_eq same
  · intro j other isOther
    rw [requests_eq] at isOther
    split at isOther
    next isHere =>
      cases isOther
      exact ⟨sound, isHere ▸ within.trans advanced⟩
    next => exact accounts.sound j other isOther
  · intro tenantId tenant' isTenant
    obtain ⟨tenant, isTenant, config_eq⟩ := same.back isTenant
    have before := accounts.active tenantId tenant isTenant
    have share := total_agree (fun _ request =>
      if request.spec.tenant = tenantId ∧ request.state.isTerminal = false then 1 else 0) id agree
    rw [found, here, Option.elim_some, Option.elim_some, spec_eq] at share
    rw [activeRequests_eq] at before ⊢
    have fewer : (if request.spec.tenant = tenantId ∧ request'.state.isTerminal = false then 1 else 0) ≤
        if request.spec.tenant = tenantId ∧ request.state.isTerminal = false then 1 else 0 := by
      cases was : request.state.isTerminal with
      | false => split <;> simp_all
      | true => simp [ended was]
    rw [config_eq]
    omega
  · intro tenantId tenant' isTenant
    have share := total_agree (serviceOf cached tenantId) id agree
    rw [found, here, Option.elim_some, Option.elim_some, serviceOf, serviceOf, spec_eq] at share
    rw [tenants_eq] at isTenant
    by_cases mine : tenantId = request.spec.tenant
    · rw [if_pos mine] at isTenant
      obtain ⟨tenant, wasTenant, rfl⟩ := Option.map_eq_some_iff.mp isTenant
      have before := accounts.service tenantId tenant wasTenant
      rw [if_pos mine.symm, if_pos mine.symm] at share
      show tenant.serviceUnits + delta = _
      omega
    · rw [if_neg mine] at isTenant
      have before := accounts.service tenantId tenant' isTenant
      rw [if_neg (fun same => mine same.symm), if_neg (fun same => mine same.symm)] at share
      omega

end

section Cancellations

theorem cancelRequest_cases (request : Request) : cancelRequest request = request ∨
      request.state ≠ .finished ∧ request.state ≠ .failed ∧
        cancelRequest request = { request with state := .cancelled } := by
  unfold cancelRequest
  split
  next => exact .inl rfl
  next live => exact .inr ⟨fun h => live (.inl h), fun h => live (.inr h), rfl⟩

theorem RequestSound.cancelled (sound : RequestSound request) : RequestSound (cancelRequest request) := by
  rcases cancelRequest_cases request with same | ⟨_, _, same⟩
  · rw [same]
    exact sound
  · rw [same]
    exact ⟨sound.limit, sound.prompt, sound.generated, nofun, nofun⟩

theorem cancelRequest_spec (request : Request) : (cancelRequest request).spec = request.spec ∧
    (cancelRequest request).promptDone = request.promptDone ∧
    (cancelRequest request).generated = request.generated := by
  rcases cancelRequest_cases request with same | ⟨_, _, same⟩ <;> rw [same] <;> exact ⟨rfl, rfl, rfl⟩

theorem cancelRequest_isTerminal (request : Request) : (cancelRequest request).state.isTerminal = true := by
  unfold cancelRequest
  split
  next ended => rcases ended with ended | ended <;> rw [ended] <;> rfl
  next => rfl

theorem getElem?_applyCancellations (s : Scheduler) (id : Nat) : (applyCancellations s).requests[id]? =
      s.requests[id]?.map fun request => if id ∈ s.cancellations then cancelRequest request else request :=
  ExtTreeMap.getElem?_map

theorem applyCancellations_cases (found : (applyCancellations s).requests[id]? = some request') :
    ∃ request, s.requests[id]? = some request ∧ (request' = request ∨ request' = cancelRequest request) := by
  rw [getElem?_applyCancellations] at found
  obtain ⟨request, was, rfl⟩ := Option.map_eq_some_iff.mp found
  refine ⟨request, was, ?_⟩
  split
  · exact .inr rfl
  · exact .inl rfl

theorem total_applyCancellations (s : Scheduler) (f : Nat → Request → Nat)
    (same : ∀ id request, f id (cancelRequest request) = f id request) :
    total (applyCancellations s).requests f = total s.requests f := by
  refine (total_map f s.requests _).trans (total_congr _ fun id request _ => ?_)
  split
  · exact same id request
  · rfl

theorem Accounts.cancelled (accounts : Accounts s cached) : Accounts (applyCancellations s) cached := by
  have same : SameTenants s (applyCancellations s) := fun _ => rfl
  refine ⟨accounts.configured.carry rfl rfl same, ?_, ?_, ?_, ?_, ?_⟩
  · intro id request' found
    obtain ⟨request, was, rfl | rfl⟩ := applyCancellations_cases found
    · exact accounts.keyed id request' was
    · rw [(cancelRequest_spec request).1]
      exact accounts.keyed id request was
  · intro id request' found
    obtain ⟨request, was, rfl | rfl⟩ := applyCancellations_cases found
    · exact (accounts.admitted id request' was).carry rfl same
    · rw [(cancelRequest_spec request).1]
      exact (accounts.admitted id request was).carry rfl same
  · intro id request' found
    obtain ⟨request, was, rfl | rfl⟩ := applyCancellations_cases found
    · exact accounts.sound id request' was
    · obtain ⟨sound, within⟩ := accounts.sound id request was
      exact ⟨sound.cancelled, by rw [(cancelRequest_spec request).2.1]; exact within⟩
  · intro tenantId tenant isTenant
    have before := accounts.active tenantId tenant isTenant
    rw [activeRequests_eq] at before ⊢
    refine LE.le.trans ((total_map _ s.requests _).trans_le (total_mono _ fun id request => ?_)) before
    split
    · rcases cancelRequest_cases request with same | ⟨_, _, same⟩
      · rw [same]
      · rw [same]
        exact (if_neg (fun active => nomatch active.2)).trans_le (Nat.zero_le _)
    · exact le_rfl
  · intro tenantId tenant isTenant
    rw [total_applyCancellations]
    · exact accounts.service tenantId tenant isTenant
    · intro id request
      obtain ⟨spec_eq, prompt_eq, generated_eq⟩ := cancelRequest_spec request
      rw [serviceOf, serviceOf, spec_eq, prompt_eq, generated_eq]

end Cancellations

section Admission

def fresh (spec : RequestSpec) (tokens : UInt32) : Request :=
  ⟨spec, if tokens = spec.promptTokens then .decoding else .waitingPrefill, tokens.toNat, 0⟩

structure Admits (spec : RequestSpec) (tokens : UInt32) (s s' : Scheduler) : Prop where
  admitted : Admitted s spec
  unknown : s.requests[spec.id]? = none
  sound : RequestSound (fresh spec tokens)
  room : ∀ tenant, s.tenants[spec.tenant]? = some tenant →
    s.activeRequests spec.tenant < tenant.config.maximumActiveRequests.toNat
  state_eq : s' = { s with requests := s.requests.insert spec.id (fresh spec tokens) }

theorem toNat_pos_of_ne {n : UInt32} (positive : ¬n = 0) : 0 < n.toNat := by
  rw [Nat.pos_iff_ne_zero]
  intro zero
  exact positive (UInt32.toNat_inj.mp zero)

theorem admitWithPrefix_ends (spec : RequestSpec) (tokens : UInt32) (s : Scheduler) :
    Action.Ends (admitWithPrefix spec tokens) s (fun _ s' => Admits spec tokens s s') (fun _ s' => s' = s) := by
  refine Action.Ends.updates (fun _ s' ran => ?_) fun _ _ => rfl
  split at ran
  · cases ran
  next valid =>
  simp only [not_or] at valid
  obtain ⟨id_pos, prompt, new, depth, cachedLe, _, unknown⟩ := valid
  obtain ⟨tenant, isTenant, ran⟩ := bind_eq_ok.mp ran
  have isTenant := okOr_eq_ok.mp isTenant
  split at ran
  · cases ran
  next room =>
  split at ran
  · cases ran
  next graph =>
  cases ran
  have shallow : spec.mtpDepth.toNat ≤ 6 := UInt8.le_iff_toNat_le.mp (UInt8.not_lt.mp depth)
  have within : tokens.toNat ≤ spec.promptTokens.toNat := UInt32.le_iff_toNat_le.mp (UInt32.not_lt.mp cachedLe)
  refine ⟨⟨id_pos, shallow, by simpa using graph, tenant, isTenant⟩, ?_, ?_, ?_, rfl⟩
  · rw [ExtTreeMap.mem_iff_isSome_getElem?] at unknown
    simpa using unknown
  · refine ⟨toNat_pos_of_ne new, within, Nat.zero_le _, ?_, ?_⟩
    · intro waits
      have differs : tokens ≠ spec.promptTokens := by
        intro same
        rw [fresh, if_pos same] at waits
        cases waits
      have differs : tokens.toNat ≠ spec.promptTokens.toNat := fun same => differs (UInt32.toNat_inj.mp same)
      exact ⟨show tokens.toNat < spec.promptTokens.toNat by omega, rfl⟩
    · intro decodes
      have same : tokens = spec.promptTokens := by
        by_contra differs
        rw [fresh, if_neg differs] at decodes
        cases decodes
      exact ⟨congrArg UInt32.toNat same, toNat_pos_of_ne new⟩
  · intro other isOther
    rw [isTenant] at isOther
    cases isOther
    omega

theorem Accounts.admits {spec : RequestSpec} {tokens : UInt32} (accounts : Accounts s cached)
    (admits : Admits spec tokens s s') : Accounts s' (Function.update cached spec.id tokens.toNat) := by
  obtain ⟨admitted, unknown, sound, room, rfl⟩ := admits
  have same : SameTenants s { s with requests := s.requests.insert spec.id (fresh spec tokens) } := fun _ => rfl
  have cases {j : Nat} {other : Request}
      (isOther : (s.requests.insert spec.id (fresh spec tokens))[j]? = some other) :
      (j = spec.id ∧ other = fresh spec tokens) ∨ j ≠ spec.id ∧ s.requests[j]? = some other := by
    rw [getElem?_insert_ite] at isOther
    split at isOther
    next isHere => exact .inl ⟨isHere, (Option.some.inj isOther).symm⟩
    next isElse => exact .inr ⟨isElse, isOther⟩
  refine ⟨accounts.configured.carry rfl rfl same, ?_, ?_, ?_, ?_, ?_⟩
  · intro j other isOther
    rcases cases isOther with ⟨rfl, rfl⟩ | ⟨_, found⟩
    · rfl
    · exact accounts.keyed j other found
  · intro j other isOther
    rcases cases isOther with ⟨rfl, rfl⟩ | ⟨_, found⟩
    · exact admitted.carry rfl same
    · exact (accounts.admitted j other found).carry rfl same
  · intro j other isOther
    rcases cases isOther with ⟨rfl, rfl⟩ | ⟨different, found⟩
    · exact ⟨sound, by rw [Function.update_self]; exact le_rfl⟩
    · rw [Function.update_of_ne different]
      exact accounts.sound j other found
  · intro tenantId tenant isTenant
    have before := accounts.active tenantId tenant isTenant
    rw [activeRequests_eq] at before ⊢
    rw [total_insert_new _ _ unknown]
    split
    next mine =>
      obtain rfl : spec.tenant = tenantId := mine.1
      have room := room tenant isTenant
      rw [activeRequests_eq] at room
      omega
    next => omega
  · intro tenantId tenant isTenant
    have before := accounts.service tenantId tenant isTenant
    rw [total_insert_new _ _ unknown]
    have nothing : serviceOf (Function.update cached spec.id tokens.toNat) tenantId spec.id (fresh spec tokens) = 0 := by
      unfold serviceOf
      rw [Function.update_self]
      simp [fresh]
    rw [nothing, Nat.zero_add, before]
    refine total_congr _ fun j other found => ?_
    have different : j ≠ spec.id := by
      rintro rfl
      rw [unknown] at found
      cases found
    rw [serviceOf, serviceOf, Function.update_of_ne different]

end Admission

end Glmaxx.Proof.Scheduling
