import Glmaxx.Proof.Scheduling.Fairness

namespace Glmaxx.Proof.Scheduling
open Std Filter Library Cache Engine Glmaxx.Scheduling Glmaxx.Scheduling.Scheduler

variable {s t : Scheduler} {counter : Counter} {calls : Nat → SchedulerCall} {oldest : Nat}
  {request : Request} {batch : ScheduledBatch} {cached : Nat → Nat}

section Rest

def progressOf (s : Scheduler) (id : Nat) : Nat :=
  s.requests[id]?.elim 0 fun request => request.promptDone + request.generated

theorem progressOf_rests (sound : Sound s fun _ => 0) (counter : Counter) (calls : Nat → SchedulerCall) (id : Nat) :
    ∀ᶠ n in atTop, progressOf (trace counter s calls (n + 1)) id = progressOf (trace counter s calls n) id := by
  refine eventually_rests (f := fun n => progressOf (trace counter s calls n) id) (2 ^ 32 + 2 ^ 32)
    (fun n => ?_) fun n => ?_
  · unfold progressOf
    cases found : (trace counter s calls n).requests[id]? with
    | none => exact Nat.zero_le _
    | some request =>
      obtain ⟨request', found', later⟩ := (trace_step_evolves sound counter calls n).requests id request found
      rw [found']
      exact Nat.add_le_add later.prompt_le later.generated_le
  · unfold progressOf
    cases found : (trace counter s calls n).requests[id]? with
    | none => exact Nat.zero_le _
    | some request =>
      obtain ⟨cached, here⟩ := trace_sound sound counter calls n
      obtain ⟨its, _⟩ := here.accounts.sound id request found
      have := its.prompt.trans request.spec.promptTokens.toNat_lt.le
      have := its.generated.trans request.spec.maximumNewTokens.toNat_lt.le
      exact Nat.add_le_add ‹_› ‹_›

def Untouched (counter : Counter) (s : Scheduler) (calls : Nat → SchedulerCall) (n tenant : Nat) : Prop :=
  ∀ batch, CompletesAt counter s calls n batch → ∀ row ∈ batch.rows, ∀ request,
    (trace counter s calls n).requests[row.requestId]? = some request → request.spec.tenant ≠ tenant

theorem oldest_untouched {n : Nat} (rests : progressOf (trace counter s calls (n + 1)) oldest =
      progressOf (trace counter s calls n) oldest)
    (older : ∀ id < oldest, ¬Live (trace counter s calls n) id) (passes : ¬PassedOver counter s calls n oldest)
    (found : (trace counter s calls n).requests[oldest]? = some request)
    (live : request.state.isTerminal = false) : Untouched counter s calls n request.spec.tenant := by
  intro batch at_n row member other isOther mine
  by_cases listed : oldest ∈ batch.rows.map (·.requestId)
  · obtain ⟨same, request', delta, was, is, outcome⟩ := at_n.completes.serves.each oldest listed
    have served : Served batch.kind same request' delta := outcome
    unfold progressOf at rests
    rw [was, is] at rests
    have := served.progress
    have := served.positive
    dsimp only [Option.elim_some] at rests
    omega
  · refine passes ⟨batch, at_n.inflight, by rw [at_n.isCompletion]; nofun, at_n.accepted, request, found, live, ?_,
      listed, row, member, other, isOther, mine⟩
    intro id elder isOlder isElder _
    by_contra stays
    exact older id isOlder ⟨elder, isElder, by simpa using stays⟩

theorem oldest_rests (sound : Sound s fun _ => 0) (fair : FairRun counter s calls)
    (isOldest : ∀ᶠ n in atTop, Live (trace counter s calls n) oldest ∧
      ∀ id < oldest, ¬Live (trace counter s calls n) id)
    (passes : ∀ᶠ n in atTop, ¬PassedOver counter s calls n oldest) :
    ∃ request tenant, request.state.isTerminal = false ∧ ∀ᶠ n in atTop,
      (trace counter s calls n).requests[oldest]? = some request ∧
      (trace counter s calls n).tenants[request.spec.tenant]? = some tenant ∧
      Untouched counter s calls n request.spec.tenant := by
  have untouched : ∀ᶠ n in atTop, ∀ request, (trace counter s calls n).requests[oldest]? = some request →
      request.state.isTerminal = false → Untouched counter s calls n request.spec.tenant := by
    filter_upwards [progressOf_rests sound counter calls oldest, isOldest, passes] with n rests isOldest passes
    exact fun request => oldest_untouched rests isOldest.2 passes
  have same : ∀ᶠ n in atTop,
      (trace counter s calls (n + 1)).requests[oldest]? = (trace counter s calls n).requests[oldest]? := by
    filter_upwards [untouched, isOldest, (tendsto_add_atTop_nat 1).eventually isOldest] with n untouched now next
    obtain ⟨request, found, live⟩ := now.1
    refine request_rests fair now.1 next.1 fun batch at_n listed => ?_
    obtain ⟨row, member, isRow⟩ := List.mem_map.mp listed
    exact untouched request found live batch at_n row member request (isRow ▸ found) rfl
  obtain ⟨kept, constant⟩ := eventually_const_of_step (f := fun n => (trace counter s calls n).requests[oldest]?) same
  obtain ⟨n, ⟨request, found, live⟩, isKept⟩ := ((isOldest.mono fun _ h => h.1).and constant).exists
  obtain rfl : kept = some request := isKept.symm.trans found
  have untouched : ∀ᶠ n in atTop, Untouched counter s calls n request.spec.tenant := by
    filter_upwards [untouched, constant] with n untouched found
    exact untouched request found live
  have sameTenant : ∀ᶠ n in atTop, (trace counter s calls (n + 1)).tenants[request.spec.tenant]? =
      (trace counter s calls n).tenants[request.spec.tenant]? :=
    untouched.mono fun n untouched => tenant_rests fair untouched
  obtain ⟨keptTenant, tenantConstant⟩ := eventually_const_of_step
    (f := fun n => (trace counter s calls n).tenants[request.spec.tenant]?) sameTenant
  obtain ⟨n, found, isTenant⟩ := (constant.and tenantConstant).exists
  obtain ⟨cached, here⟩ := trace_sound sound counter calls n
  obtain ⟨tenant, configured⟩ := (here.accounts.admitted oldest request found).tenant
  obtain rfl : keptTenant = some tenant := isTenant.symm.trans configured
  exact ⟨request, tenant, live, constant.and (tenantConstant.and untouched)⟩

end Rest

section First

theorem score_le_of_rank_le {other : Request} (le : rank t other ≤ rank t request) :
    score (t.tenantOf other) ≤ score (t.tenantOf request) := by
  unfold rank at le
  rw [Prod.Lex.le_iff] at le
  rcases le with less | ⟨same, _⟩
  · exact less.le
  · exact same.le

theorem rank_head_le (weighted : Weighted t) {state : RequestState}
    {decodeClass : Option (Nat × SamplingCollective)} {head : Request} {rest : List Request}
    (ordered : t.orderedRequests state decodeClass = head :: rest)
    (member : request ∈ t.orderedRequests state decodeClass) : rank t head ≤ rank t request := by
  have sorted := orderedRequests_sorted weighted state decodeClass
  rw [ordered] at sorted member
  rcases List.mem_cons.mp member with rfl | later
  · exact le_rfl
  · exact (List.pairwise_cons.mp sorted).1 request later

theorem Chosen.first (accounts : Accounts t cached) (chosen : Chosen t batch) {id : Nat}
    (found : t.requests[id]? = some request) (isState : request.state = needed batch.kind) :
    ∃ row ∈ batch.rows, ∃ other, t.requests[row.requestId]? = some other ∧
      score (t.tenantOf other) ≤ score (t.tenantOf request) := by
  have weighted := accounts.configured.weighted
  have rows := chosen.rows
  split at rows
  · obtain ⟨isPrefill, entry, isEntry, mode, rows_eq⟩ := rows
    rw [isPrefill] at isState
    have listed : request ∈ t.orderedRequests .waitingPrefill none :=
      mem_orderedRequests.mpr ⟨⟨id, found⟩, isState, rfl⟩
    obtain ⟨head, rest, ordered⟩ := List.exists_cons_of_ne_nil (List.ne_nil_of_mem listed)
    have headListed : head ∈ t.orderedRequests .waitingPrefill none := ordered ▸ List.mem_cons_self ..
    obtain ⟨headFound, waiting⟩ := mem_ordered_get accounts.keyed headListed
    have left := ((accounts.sound _ head headFound).1.waiting waiting).1
    obtain ⟨_, tokens, more, _, _, first⟩ :=
      prefillRows_first accounts.configured (accounts.configured.entries entry isEntry) mode left rest
    rw [rows_eq, ordered, first]
    exact ⟨_, List.mem_cons_self .., head, headFound, score_le_of_rank_le (rank_head_le weighted ordered listed)⟩
  · obtain ⟨first, depth, isFirst, isDepth, kind_eq, _, n, positive, _, rows_eq⟩ := rows
    rw [kind_eq, needed_decodeKind] at isState
    have listed : request ∈ t.orderedRequests .decoding none := mem_orderedRequests.mpr ⟨⟨id, found⟩, isState, rfl⟩
    obtain ⟨rest, ordered⟩ := List.head?_eq_some_iff.mp isFirst
    have firstListed : first ∈ t.orderedRequests .decoding none := ordered ▸ List.mem_cons_self ..
    obtain ⟨firstFound, decoding⟩ := mem_ordered_get accounts.keyed firstListed
    have eligible : first ∈ t.orderedRequests .decoding (some (depth, first.spec.sampling)) :=
      mem_orderedRequests.mpr ⟨⟨_, firstFound⟩, decoding, inClass_some.mpr ⟨isDepth, rfl⟩⟩
    obtain ⟨head, more, isEligible⟩ := List.exists_cons_of_ne_nil (List.ne_nil_of_mem eligible)
    obtain ⟨m, rfl⟩ := Nat.exists_eq_succ_of_ne_zero positive.ne'
    have headListed : head ∈ t.orderedRequests .decoding (some (depth, first.spec.sampling)) :=
      isEligible ▸ List.mem_cons_self ..
    rw [rows_eq, isEligible, List.take_succ_cons]
    refine ⟨_, List.mem_cons_self .., head, (mem_ordered_get accounts.keyed headListed).1, score_le_of_rank_le ?_⟩
    exact (rank_head_le weighted isEligible eligible).trans (rank_head_le weighted ordered listed)

end First

section Overtaken

def Overtaken (request : Request) (s : Scheduler) : Prop :=
  ∀ batch, s.inflight = some batch → request.state = needed batch.kind →
    ∃ row ∈ batch.rows, ∃ other, s.requests[row.requestId]? = some other ∧
      score (s.tenantOf other) ≤ score (s.tenantOf request)

theorem Overtaken.step {n : Nat} (sound : Sound s fun _ => 0)
    (found : (trace counter s calls (n + 1)).requests[oldest]? = some request)
    (overtaken : Overtaken request (trace counter s calls n)) :
    Overtaken request (trace counter s calls (n + 1)) := by
  obtain ⟨cached, here⟩ := trace_sound sound counter calls n
  intro batch inflight isState
  rcases trace_cases counter s calls n with ⟨accepted, accepts⟩ | ⟨_, refuses⟩
  · generalize trace counter s calls (n + 1) = s' at accepts found inflight
    generalize trace counter s calls n = t at accepts here overtaken
    generalize calls n = entry at accepts
    cases accepts with
    | admits _ admits =>
      obtain ⟨_, unknown, _, _, rfl⟩ := admits
      obtain ⟨row, member, other, isOther, less⟩ := overtaken batch inflight isState
      refine ⟨row, member, other, ?_, less⟩
      exact getElem?_insert_old unknown isOther
    | cancels _ _ | ignores => exact overtaken batch inflight isState
    | settles idle _ => exact absurd (idle.symm.trans inflight) nofun
    | launches idle chosen =>
      cases inflight
      have first := chosen.first here.accounts.cancelled (show (applyCancellations t).requests[oldest]? = _ from found)
        isState
      exact first
    | completes _ _ completes => exact absurd (completes.inflight_eq.symm.trans inflight) nofun
  · rcases refuses with same | ⟨_, idle, same, _⟩
    · rw [same] at inflight ⊢
      exact overtaken batch inflight isState
    · rw [same] at inflight
      exact absurd (idle.symm.trans inflight) nofun

theorem eventually_overtaken (sound : Sound s fun _ => 0)
    (found : ∀ᶠ n in atTop, (trace counter s calls n).requests[oldest]? = some request)
    (completes : ∃ᶠ n in atTop, ∃ batch, CompletesAt counter s calls n batch) :
    ∀ᶠ n in atTop, Overtaken request (trace counter s calls n) := by
  obtain ⟨start, found⟩ := eventually_atTop.mp found
  obtain ⟨m, late, batch, at_m⟩ := frequently_atTop.mp completes start
  refine eventually_atTop.mpr ⟨m + 1, fun n later => ?_⟩
  induction n, later using Nat.le_induction with
  | base => exact fun batch inflight _ => absurd (at_m.completes.inflight_eq.symm.trans inflight) nofun
  | succ n later ih => exact ih.step sound (found (n + 1) (by omega))

end Overtaken

section Recurrence
variable {calls : Nat → SchedulerCall}

theorem completesAt_of_accepted {n : Nat} (isCompletion : completion (calls n) = some true) (accepted : Accepted counter s calls n) :
    ∃ batch, CompletesAt counter s calls n batch := by
  rcases trace_cases counter s calls n with ⟨_, accepts⟩ | ⟨refused, _⟩
  · generalize after : trace counter s calls (n + 1) = s' at accepts
    generalize before : trace counter s calls n = t at accepts
    generalize isEntry : calls n = entry at accepts isCompletion
    cases accepts with
    | admits isAdmission _ => cases entry <;> cases isAdmission <;> cases isCompletion
    | cancels _ _ | ignores => cases isCompletion
    | settles _ isBoundary => rcases isBoundary with rfl | ⟨rfl, _⟩ <;> cases isCompletion
    | launches _ _ => cases isCompletion
    | completes success inflight completes =>
      rw [isCompletion] at success
      cases success
      subst before after isEntry
      exact ⟨_, isCompletion, accepted, inflight, completes⟩
  · exact absurd accepted refused

theorem nextBatch_requests (idle : t.inflight = none) :
    (call counter .nextBatch t).2.requests = (applyCancellations t).requests := by
  rw [call_nextBatch]
  have ends := nextBatch_ends counter idle
  unfold Action.Ends at ends
  split at ends
  next result s' ran =>
    rw [ran]
    cases result with
    | none => rw [ends.1]
    | some batch => rw [ends.2]; rfl
  next ran =>
    rw [ran, ends.1]

/-- The resting request is there whenever `next_batch` chooses. -/
theorem awaits_at_next (live : request.state.isTerminal = false) {n : Nat}
    (found : (trace counter s calls (n + 1)).requests[oldest]? = some request)
    (isNext : calls n = .nextBatch) (idle : (trace counter s calls n).inflight = none) :
    Awaits request.state (trace counter s calls n) := by
  have next : trace counter s calls (n + 1) = (call counter (calls n) (trace counter s calls n)).2 := rfl
  rw [next, isNext, nextBatch_requests idle] at found
  exact (hasRequest_applyCancellations live).mp (hasRequest_iff.mpr ⟨oldest, request, found, rfl⟩)

theorem frequently_completes (sound : Sound s fun _ => 0) (fair : FairRun .unbounded s calls)
    (live : request.state.isTerminal = false)
    (found : ∀ᶠ n in atTop, (trace .unbounded s calls n).requests[oldest]? = some request) :
    ∃ᶠ n in atTop, ∃ batch, CompletesAt .unbounded s calls n batch := by
  obtain ⟨start, found⟩ := eventually_atTop.mp found
  have busy (n : Nat) (batch : ScheduledBatch) (inflight : (trace .unbounded s calls n).inflight = some batch) :
      ∃ m ≥ n, ∃ batch, CompletesAt .unbounded s calls m batch := by
    obtain ⟨m, later, isCompletion, accepted⟩ := fair.completes n batch inflight
    exact ⟨m, later, completesAt_of_accepted isCompletion accepted⟩
  refine frequently_atTop.mpr fun a => ?_
  suffices ∃ n ≥ max a start, ∃ m ≥ n, ∃ batch, CompletesAt .unbounded s calls m batch by
    obtain ⟨n, late, m, later, completes⟩ := this
    exact ⟨m, by omega, completes⟩
  cases inflight : (trace .unbounded s calls (max a start)).inflight with
  | some batch => exact ⟨_, le_rfl, busy _ batch inflight⟩
  | none =>
    obtain ⟨m, later, isNext⟩ := fair.asks _ inflight
    cases inflight' : (trace .unbounded s calls m).inflight with
    | some batch => exact ⟨m, later, busy m batch inflight'⟩
    | none =>
      obtain ⟨cached, here⟩ := trace_sound sound .unbounded calls m
      have present := awaits_at_next live (found (m + 1) (by omega)) isNext inflight'
      have runnable : Runnable (applyCancellations (trace .unbounded s calls m)) := by
        rw [runnable_applyCancellations]
        cases isState : request.state with
        | waitingPrefill => exact .inl (isState ▸ present)
        | decoding => exact .inr (isState ▸ present)
        | finished | cancelled | failed => simp [isState, RequestState.isTerminal] at live
      have advanced : Counter.unbounded.add (trace .unbounded s calls m).nextStepId 1 = _ := rfl
      obtain ⟨batch, ran⟩ := nextBatch_ok here.accounts inflight' advanced runnable
      refine ⟨m + 1, by omega, busy (m + 1) batch ?_⟩
      show (call .unbounded (calls m) (trace .unbounded s calls m)).2.inflight = _
      rw [isNext, call_nextBatch, ran]
      rfl

theorem decode_only_ends (fair : FairRun counter s calls)
    (present : ∀ᶠ n in atTop, calls n = .nextBatch → (trace counter s calls n).inflight = none →
      Awaits .waitingPrefill (trace counter s calls n))
    (kinds : ∀ᶠ n in atTop, ∀ batch, CompletesAt counter s calls n batch → batch.kind ≠ .prefill) :
    ∀ᶠ n in atTop, ¬∃ batch, CompletesAt counter s calls n batch := by
  refine eventually_not_of_falls (f := fun n => allowance (trace counter s calls n)) ?_
  filter_upwards [present, kinds] with n waiting kinds
  have config_eq := call_config counter (calls n) (trace counter s calls n)
  rcases fair_turn fair n with ⟨batch, at_n, turn⟩ | ⟨quiet, turn⟩
  · have less := turn.allowance_le config_eq waiting fun isPrefill => kinds batch at_n (Option.some.inj isPrefill)
    rw [Option.toList_some, List.length_singleton] at less
    exact ⟨by omega, fun _ => by omega⟩
  · exact ⟨turn.allowance_le config_eq waiting nofun, fun completes => absurd completes quiet⟩

theorem prefill_only_ends (sound : Sound s fun _ => 0) (fair : FairRun counter s calls)
    (present : ∀ᶠ n in atTop, calls n = .nextBatch → (trace counter s calls n).inflight = none →
      Awaits .decoding (trace counter s calls n))
    (kinds : ∀ᶠ n in atTop, ∀ batch, CompletesAt counter s calls n batch → batch.kind = .prefill) :
    ¬∃ᶠ n in atTop, ∃ batch, CompletesAt counter s calls n batch := by
  intro completes
  obtain ⟨start, regular⟩ := eventually_atTop.mp (present.and kinds)
  obtain ⟨n, late, batch, at_n⟩ := frequently_atTop.mp completes start
  have spending (m : Nat) (later : start ≤ m) :
      (∀ batch, CompletesAt counter s calls m batch → ¬Spent (trace counter s calls m)) ∧
      ((∃ batch, CompletesAt counter s calls m batch) ∨ Spent (trace counter s calls m) →
        Spent (trace counter s calls (m + 1))) := by
    obtain ⟨cached, here⟩ := trace_sound sound counter calls m
    obtain ⟨decoding, kinds⟩ := regular m later
    have positive := here.accounts.configured.burst_pos
    rcases fair_turn fair m with ⟨batch, at_m, turn⟩ | ⟨quiet, turn⟩
    · have spends := (turn.spent positive decoding).1 (congrArg some (kinds batch at_m))
      exact ⟨fun _ _ => spends.1, fun _ => spends.2⟩
    · exact ⟨fun batch at_m => absurd ⟨batch, at_m⟩ quiet,
        fun either => (turn.spent positive decoding).2 rfl (either.resolve_left quiet)⟩
  have spent (m : Nat) (later : n + 1 ≤ m) : Spent (trace counter s calls m) := by
    induction m, later using Nat.le_induction with
    | base => exact (spending n late).2 (.inl ⟨batch, at_n⟩)
    | succ m later ih => exact (spending m (by omega)).2 (.inr ih)
  obtain ⟨m, later, batch, at_m⟩ := frequently_atTop.mp completes (n + 1)
  exact (spending m (by omega)).1 batch at_m (spent m later)

theorem frequently_serves_phase (sound : Sound s fun _ => 0) (fair : FairRun counter s calls)
    (live : request.state.isTerminal = false)
    (found : ∀ᶠ n in atTop, (trace counter s calls n).requests[oldest]? = some request)
    (completes : ∃ᶠ n in atTop, ∃ batch, CompletesAt counter s calls n batch) :
    ∃ᶠ n in atTop, ∃ batch, CompletesAt counter s calls n batch ∧ request.state = needed batch.kind := by
  have present : ∀ᶠ n in atTop, calls n = .nextBatch → (trace counter s calls n).inflight = none →
      Awaits request.state (trace counter s calls n) :=
    ((tendsto_add_atTop_nat 1).eventually found).mono fun n => awaits_at_next live
  by_contra never
  rw [not_frequently] at never
  cases isState : request.state with
  | waitingPrefill =>
    rw [isState] at present never
    refine completes (decode_only_ends fair present ?_)
    exact never.mono fun n none batch at_n isPrefill => none ⟨batch, at_n, by rw [isPrefill]; rfl⟩
  | decoding =>
    rw [isState] at present never
    refine prefill_only_ends sound fair present ?_ completes
    refine never.mono fun n none batch at_n => ?_
    by_contra isDecode
    refine none ⟨batch, at_n, ?_⟩
    cases kind : batch.kind with
    | «prefill» => exact absurd kind isDecode
    | decode => rfl
    | verify depth => rfl
  | finished | cancelled | failed => simp [isState, RequestState.isTerminal] at live

end Recurrence

section Caps

def unitsOf (s : Scheduler) (tenant : Nat) : Nat := s.tenants[tenant]?.elim 0 (·.serviceUnits)

def weightOf (s : Scheduler) (tenant : Nat) : Nat := s.tenants[tenant]?.elim 0 (·.config.weight.toNat)

theorem unitsOf_capped_rests (sound : Sound s fun _ => 0) (counter : Counter) (calls : Nat → SchedulerCall)
    (cap : Nat → Nat) : ∀ᶠ n in atTop, ∀ tenant ∈ s.tenants.keys.toFinset,
      min (unitsOf (trace counter s calls (n + 1)) tenant) (cap tenant) =
        min (unitsOf (trace counter s calls n) tenant) (cap tenant) := by
  refine (eventually_all_finset _).mpr fun tenant _ => ?_
  refine eventually_rests (f := fun n => min (unitsOf (trace counter s calls n) tenant) (cap tenant)) (cap tenant)
    (fun n => ?_) fun n => Nat.min_le_right ..
  obtain ⟨delta, charges⟩ := (trace_step_evolves sound counter calls n).tenants tenant
  unfold unitsOf
  rw [charges]
  cases (trace counter s calls n).tenants[tenant]? with
  | none => exact le_rfl
  | some its =>
    show min its.serviceUnits _ ≤ min (its.serviceUnits + delta) _
    omega

theorem trace_tenant (sound : Sound s fun _ => 0) {n tenant : Nat} {its : Tenant}
    (found : (trace counter s calls n).tenants[tenant]? = some its) :
    tenant ∈ s.tenants.keys.toFinset ∧ weightOf s tenant = its.config.weight.toNat := by
  obtain ⟨delta, charges⟩ := (trace_evolves sound counter calls (Nat.zero_le n)).tenants tenant
  rw [found] at charges
  obtain ⟨first, wasFound, rfl⟩ := Option.map_eq_some_iff.mp charges.symm
  have wasFound : s.tenants[tenant]? = some first := wasFound
  refine ⟨?_, by unfold weightOf; rw [wasFound]; rfl⟩
  rw [List.mem_toFinset, ExtTreeMap.mem_keys, ExtTreeMap.mem_iff_isSome_getElem?, wasFound]
  rfl

theorem tenantOf_eq {its : Tenant} (found : t.tenants[request.spec.tenant]? = some its) : t.tenantOf request = its := by
  unfold tenantOf
  rw [found]
  rfl

theorem not_frequently_overtaken (sound : Sound s fun _ => 0) {tenant : Tenant}
    (rests : ∀ᶠ n in atTop, (trace counter s calls n).tenants[request.spec.tenant]? = some tenant)
    (overtaken : ∀ᶠ n in atTop, Overtaken request (trace counter s calls n)) :
    ¬∃ᶠ n in atTop, ∃ batch, CompletesAt counter s calls n batch ∧ request.state = needed batch.kind := by
  intro serves
  have capped := unitsOf_capped_rests sound counter calls fun id => tenant.serviceUnits * weightOf s id + 1
  obtain ⟨n, ⟨⟨batch, at_n, isState⟩, isTenant, overtaken⟩, capped⟩ :=
    ((serves.and_eventually (rests.and overtaken)).and_eventually capped).exists
  obtain ⟨row, member, other, isOther, less⟩ := overtaken batch at_n.inflight isState
  obtain ⟨cached, here⟩ := trace_sound sound counter calls n
  obtain ⟨its, isIts⟩ := (here.accounts.admitted _ other isOther).tenant
  obtain ⟨known, weight_eq⟩ := trace_tenant sound isIts
  have weighted := here.accounts.configured.weighted
  have weightIts := weighted.weight_pos other
  have weightTenant := weighted.weight_pos request
  rw [tenantOf_eq isIts] at less weightIts
  rw [tenantOf_eq isTenant] at less weightTenant
  -- so far the tenant of that row has less service than its cap
  have below : its.serviceUnits ≤ tenant.serviceUnits * its.config.weight.toNat := by
    have cross := Nat.not_lt.mp ((score_lt_iff weightTenant weightIts).not.mp less.not_gt)
    exact (Nat.le_mul_of_pos_right _ weightTenant).trans cross
  obtain ⟨delta, charges, positive⟩ := at_n.completes.serves.tenants other.spec.tenant
  have charged := positive.mpr ⟨rfl, row.requestId, List.mem_map_of_mem member, other, isOther, rfl⟩
  have same := capped other.spec.tenant known
  unfold unitsOf at same
  rw [charges, isIts, weight_eq] at same
  dsimp only [Option.map_some, Option.elim_some, Scheduling.charged] at same
  omega

end Caps

section Starvation

theorem noStarvation_of_passes (sound : Sound s fun _ => 0) (empty : ∀ id : Nat, s.requests[id]? = none)
    (fair : FairRun .unbounded s calls)
    (passes : ∀ id, ∀ᶠ n in atTop, ¬PassedOver .unbounded s calls n id) : NoStarvation .unbounded s calls := by
  by_contra starves
  obtain ⟨oldest, isOldest⟩ := oldest_starves empty sound fair starves
  obtain ⟨request, tenant, live, rests⟩ := oldest_rests sound fair isOldest (passes oldest)
  have found := rests.mono fun n h => h.1
  have completes := frequently_completes sound fair live found
  exact not_frequently_overtaken sound (rests.mono fun n h => h.2.1) (eventually_overtaken sound found completes)
    (frequently_serves_phase sound fair live found completes)

theorem passes_of_noStarvation (sound : Sound s fun _ => 0) (served : NoStarvation counter s calls) (id : Nat) :
    ∀ᶠ n in atTop, ¬PassedOver counter s calls n id := by
  by_cases present : ∃ n, (trace counter s calls n).requestState id ≠ none
  · obtain ⟨n, present⟩ := present
    obtain ⟨m, _, ended⟩ := served n id present
    refine eventually_atTop.mpr ⟨m, fun k later => ?_⟩
    rintro ⟨batch, _, _, _, request, found, live, _⟩
    cases was : (trace counter s calls m).requests[id]? with
    | none => simp [requestState, was] at ended
    | some old =>
      have terminal : old.state.isTerminal = true := by
        rcases ended with isState | isState <;> simp [requestState, was] at isState <;> rw [isState] <;> rfl
      obtain ⟨request', found', later⟩ := (trace_evolves sound counter calls later).requests id old was
      rw [found] at found'
      cases found'
      rw [later.ended terminal, terminal] at live
      cases live
  · refine Eventually.of_forall fun n => ?_
    rintro ⟨batch, _, _, _, request, found, _⟩
    exact present ⟨n, by simp [requestState, found]⟩

end Starvation

end Glmaxx.Proof.Scheduling
