import Glmaxx.Proof.Scheduling.Overtaking

namespace Glmaxx.Proof.Scheduling
open Std Filter Library Cache Engine Glmaxx.Scheduling Glmaxx.Scheduling.Scheduler

variable {spec : RequestSpec} {tokens : UInt32} {id : Nat} {newcomers : List RequestSpec}

variable {s t : Scheduler} {cached : Nat → Nat} {request : Request} {k : Nat}

section Evaluation

theorem activeRequests_le (keyed : Keyed t) {tenant : Nat} {listed : List Request}
    (each : ∀ (id : Nat) (request : Request), t.requests[id]? = some request →
      request.state.isTerminal = false → request ∈ listed) : t.activeRequests tenant ≤ listed.length := by
  unfold activeRequests
  rw [List.countP_eq_length_filter]
  refine (keyed.ids_nodup.of_map.filter _).length_le_of_subset fun request member => ?_
  obtain ⟨isValue, active⟩ := List.mem_filter.mp member
  obtain ⟨id, found⟩ := mem_values.mp isValue
  exact each id request found (of_decide_eq_true active).2

theorem admitWithPrefix_ok {tenant : Tenant}
    (valid : ¬(spec.id = 0 ∨ spec.promptTokens = 0 ∨ spec.maximumNewTokens = 0 ∨ spec.mtpDepth > 6 ∨
      tokens > spec.promptTokens ∨ (tokens ≠ spec.promptTokens ∧ tokens.toNat % 64 ≠ 0) ∨ spec.id ∈ t.requests))
    (isTenant : t.tenants[spec.tenant]? = some tenant)
    (room : t.activeRequests spec.tenant < tenant.config.maximumActiveRequests.toNat)
    (graph : t.hasGraphForRequest spec = true) :
    admitWithPrefix spec tokens t =
      (.ok (), { t with requests := t.requests.insert spec.id (fresh spec tokens) }) := by
  refine Action.updates_ok ?_
  rw [if_neg valid]
  refine bind_eq_ok.mpr ⟨tenant, okOr_eq_ok.mpr isTenant, ?_⟩
  rw [if_neg (by omega), if_neg (by simp [graph])]
  rfl

end Evaluation

section Rounds

def minority : RequestSpec := ⟨1, 2, 64, 1, 0, .topK⟩

def first (k : Nat) : RequestSpec := ⟨2 * k + 2, 1, 64, 1, 0, .greedy⟩

def second (k : Nat) : RequestSpec := ⟨2 * k + 3, 2, 64, 1, 0, .greedy⟩

def starve : Nat → SchedulerCall
  | 0 => .admitWithPrefix minority 64
  | 1 => .admitWithPrefix (first 0) 64
  | 2 => .admitWithPrefix (second 0) 64
  | n + 3 => match n % 4 with
    | 0 => .nextBatch
    | 1 => .admitWithPrefix (first (n / 4 + 1)) 64
    | 2 => .admitWithPrefix (second (n / 4 + 1)) 64
    | _ => .completeBatch true

structure Round (k : Nat) (s : Scheduler) : Prop where
  config_eq : s.config = ⟨4, 32, 2⟩
  profile_eq : s.profile = sampleProfile
  cancellations_eq : s.cancellations = ∅
  inflight_eq : s.inflight = none
  tenants : s.tenants[1]? = some ⟨⟨1, 1, 8⟩, k⟩ ∧ s.tenants[2]? = some ⟨⟨2, 1, 8⟩, k⟩
  accounts : ∃ cached, Accounts s cached
  minority : s.requests[1]? = some (fresh minority 64)
  first : s.requests[2 * k + 2]? = some (fresh (first k) 64)
  second : s.requests[2 * k + 3]? = some (fresh (second k) 64)
  rest : ∀ (id : Nat) (request : Request), s.requests[id]? = some request →
    id ≠ 1 → id ≠ 2 * k + 2 → id ≠ 2 * k + 3 → request.state = .finished ∧ id < 2 * k + 2

theorem Round.settled (round : Round k s) : Round k (applyCancellations s) := by
  have same (id : Nat) : (applyCancellations s).requests[id]? = s.requests[id]? := by
    rw [getElem?_applyCancellations, round.cancellations_eq]
    simp
  obtain ⟨cached, accounts⟩ := round.accounts
  refine ⟨round.config_eq, round.profile_eq, rfl, round.inflight_eq, round.tenants, ⟨cached, accounts.cancelled⟩, ?_, ?_, ?_, ?_⟩
  · rw [same, round.minority]
  · rw [same, round.first]
  · rw [same, round.second]
  · intro id request found
    rw [same] at found
    exact round.rest id request found

section
variable (round : Round k t)
include round

theorem Round.live (found : t.requests[id]? = some request) (live : request.state.isTerminal = false) :
    request = fresh (Scheduling.first k) 64 ∨ request = fresh Scheduling.minority 64 ∨
      request = fresh (Scheduling.second k) 64 := by
  by_cases isMinority : id = 1
  · rw [isMinority, round.minority] at found
    exact .inr (.inl (Option.some.inj found).symm)
  by_cases isFirst : id = 2 * k + 2
  · rw [isFirst, round.first] at found
    exact .inl (Option.some.inj found).symm
  by_cases isSecond : id = 2 * k + 3
  · rw [isSecond, round.second] at found
    exact .inr (.inr (Option.some.inj found).symm)
  rw [(round.rest id request found isMinority isFirst isSecond).1] at live
  cases live

theorem Round.decoding : ∀ request, request ∈ t.orderedRequests .decoding none ↔
    request ∈ [fresh (Scheduling.first k) 64, fresh Scheduling.minority 64, fresh (Scheduling.second k) 64] := by
  intro request
  rw [mem_orderedRequests]
  constructor
  · rintro ⟨⟨id, found⟩, isState, _⟩
    have := round.live found (by rw [isState]; rfl)
    simpa using this
  · intro member
    simp only [List.mem_cons, List.not_mem_nil, or_false] at member
    rcases member with rfl | rfl | rfl
    · exact ⟨⟨_, round.first⟩, rfl, rfl⟩
    · exact ⟨⟨_, round.minority⟩, rfl, rfl⟩
    · exact ⟨⟨_, round.second⟩, rfl, rfl⟩

theorem Round.ranks : rank t (fresh (Scheduling.first k) 64) = toLex ((k : ℚ), toLex (1, 2 * k + 2)) ∧
    rank t (fresh Scheduling.minority 64) = toLex ((k : ℚ), toLex (2, 1)) ∧
    rank t (fresh (Scheduling.second k) 64) = toLex ((k : ℚ), toLex (2, 2 * k + 3)) := by
  have firstTenant : t.tenantOf (fresh (Scheduling.first k) 64) = ⟨⟨1, 1, 8⟩, k⟩ := tenantOf_eq round.tenants.1
  have minorityTenant : t.tenantOf (fresh Scheduling.minority 64) = ⟨⟨2, 1, 8⟩, k⟩ := tenantOf_eq round.tenants.2
  have secondTenant : t.tenantOf (fresh (Scheduling.second k) 64) = ⟨⟨2, 1, 8⟩, k⟩ := tenantOf_eq round.tenants.2
  unfold rank
  rw [firstTenant, minorityTenant, secondTenant]
  simp [score, fresh, Scheduling.first, Scheduling.second, Scheduling.minority]

theorem Round.ordered : t.orderedRequests .decoding none =
    [fresh (Scheduling.first k) 64, fresh Scheduling.minority 64, fresh (Scheduling.second k) 64] := by
  obtain ⟨cached, accounts⟩ := round.accounts
  obtain ⟨first, minority, second⟩ := round.ranks
  refine orderedRequests_eq accounts.keyed accounts.configured.weighted round.decoding ?_
  simp [first, minority, second, Prod.Lex.lt_iff]

theorem Round.depth (shallow : spec.mtpDepth = 0)
    (short : spec.maximumNewTokens = 1) (tokens : UInt32) : t.effectiveDecodeDepth (fresh spec tokens) = .ok 0 := by
  unfold effectiveDecodeDepth capturedDepths
  rw [round.profile_eq]
  simp only [fresh, short, shallow]
  rfl

theorem Round.eligible : t.orderedRequests .decoding (some (0, .greedy)) =
    [fresh (Scheduling.first k) 64, fresh (Scheduling.second k) 64] := by
  obtain ⟨cached, accounts⟩ := round.accounts
  obtain ⟨first, minority, second⟩ := round.ranks
  refine orderedRequests_eq accounts.keyed accounts.configured.weighted (fun request => ?_) ?_
  · rw [mem_orderedRequests, inClass_some]
    constructor
    · rintro ⟨⟨id, found⟩, isState, _, sampling⟩
      rcases round.live found (by rw [isState]; rfl) with rfl | rfl | rfl
      · exact List.mem_cons_self ..
      · cases sampling
      · exact List.mem_cons_of_mem _ (List.mem_cons_self ..)
    · intro member
      simp only [List.mem_cons, List.not_mem_nil, or_false] at member
      rcases member with rfl | rfl
      · exact ⟨⟨_, round.first⟩, rfl, round.depth rfl rfl 64, rfl⟩
      · exact ⟨⟨_, round.second⟩, rfl, round.depth rfl rfl 64, rfl⟩
  · simp [first, second, Prod.Lex.lt_iff]

def roundBatch (k stepId : Nat) : ScheduledBatch :=
  ⟨stepId, .decode, 2, [⟨2 * k + 2, 0⟩, ⟨2 * k + 3, 0⟩], 2, .greedy⟩

theorem Round.builds : buildDecodeBatch .unbounded t =
    (.ok (roundBatch k t.nextStepId), { t with nextStepId := t.nextStepId + 1 }) := by
  have chosen : t.chooseDecodeClass = .ok (0, .greedy) := by
    refine bind_eq_ok.mpr ⟨fresh (Scheduling.first k) 64, okOr_eq_ok.mpr (by rw [round.ordered]; rfl), ?_⟩
    exact bind_eq_ok.mpr ⟨0, round.depth rfl rfl 64, rfl⟩
  have captured : t.bestGraph .decode 2 2 = some (sampleEntry 2 .decode 4 0) := by
    unfold bestGraph
    rw [round.profile_eq]
    rfl
  have finalized : finalizeBatch .unbounded .decode .greedy [⟨2 * k + 2, 0⟩, ⟨2 * k + 3, 0⟩] t =
      (.ok (roundBatch k t.nextStepId), { t with nextStepId := t.nextStepId + 1 }) := by
    refine Action.updates_ok ?_
    rw [if_neg (List.cons_ne_nil _ _)]
    refine bind_eq_ok.mpr ⟨2, rfl, bind_eq_ok.mpr ⟨2, rfl, ?_⟩⟩
    exact bind_eq_ok.mpr ⟨_, okOr_eq_ok.mpr captured, rfl⟩
  refine (Action.bind_ok (Action.reads_ok chosen)).trans ((Action.bind_ok rfl).trans ?_)
  have size : t.config.maximumBatchSequences.toNat = 4 := by
    rw [round.config_eq]
    rfl
  rw [round.eligible, size]
  exact Action.bind_ok (Action.attempt_ok finalized)

end

theorem Round.next (round : Round k s) : nextBatch .unbounded s =
    (.ok (some (roundBatch k s.nextStepId)), launched (applyCancellations s) (roundBatch k s.nextStepId)) := by
  have settled := round.settled
  have waiting : (applyCancellations s).hasRequest .waitingPrefill = false := by
    rw [Bool.eq_false_iff]
    intro waits
    obtain ⟨id, request, found, isState⟩ := hasRequest_iff.mp waits
    rcases settled.live found (by rw [isState]; rfl) with rfl | rfl | rfl <;> cases isState
  have decoding : (applyCancellations s).hasRequest .decoding = true :=
    hasRequest_iff.mpr ⟨1, _, settled.minority, rfl⟩
  have chooses : (applyCancellations s).choosesPrefill = false := by
    unfold choosesPrefill
    rw [waiting]
    rfl
  rw [nextBatch_idle .unbounded round.inflight_eq, if_neg (by simp [decoding])]
  have built : buildBatch .unbounded (applyCancellations s) =
      (.ok (roundBatch k s.nextStepId), { applyCancellations s with nextStepId := s.nextStepId + 1 }) := by
    unfold buildBatch
    rw [if_neg (by simp [chooses])]
    exact settled.builds
  exact (Action.bind_ok built).trans (Action.bind_ok rfl)

/-- Round `k` after its batch was launched and some requests were admitted. -/
structure Midway (k : Nat) (newcomers : List RequestSpec) (s : Scheduler) : Prop where
  config_eq : s.config = ⟨4, 32, 2⟩
  profile_eq : s.profile = sampleProfile
  cancellations_eq : s.cancellations = ∅
  inflight_eq : ∃ stepId, s.inflight = some (roundBatch k stepId)
  tenants : s.tenants[1]? = some ⟨⟨1, 1, 8⟩, k⟩ ∧ s.tenants[2]? = some ⟨⟨2, 1, 8⟩, k⟩
  accounts : ∃ cached, Accounts s cached
  minority : s.requests[1]? = some (fresh minority 64)
  first : s.requests[2 * k + 2]? = some (fresh (first k) 64)
  second : s.requests[2 * k + 3]? = some (fresh (second k) 64)
  arrived : ∀ spec ∈ newcomers, s.requests[spec.id]? = some (fresh spec 64)
  rest : ∀ (id : Nat) (request : Request), s.requests[id]? = some request →
    id ≠ 1 → id ≠ 2 * k + 2 → id ≠ 2 * k + 3 →
      (∃ spec ∈ newcomers, id = spec.id) ∨ request.state = .finished ∧ id < 2 * k + 2

theorem Round.midway (round : Round k s) : Midway k [] (nextBatch .unbounded s).2 := by
  rw [round.next]
  have settled := round.settled
  obtain ⟨cached, accounts⟩ := settled.accounts
  exact { settled with
    inflight_eq := ⟨_, rfl⟩
    accounts := ⟨cached, accounts.carry rfl rfl rfl rfl⟩
    arrived := nofun
    rest := fun id request found a b c => .inr (settled.rest id request found a b c) }

section
variable (midway : Midway k newcomers t)
include midway

theorem Midway.absent
    (isNew : 2 * k + 3 < id) (differs : ∀ other ∈ newcomers, other.id ≠ id) : t.requests[id]? = none := by
  cases found : t.requests[id]? with
  | none => rfl
  | some request =>
    rcases midway.rest id request found (by omega) (by omega) (by omega) with ⟨other, member, same⟩ | ⟨_, less⟩
    · exact absurd same.symm (differs other member)
    · omega

theorem Midway.active (id : Nat) : t.activeRequests id ≤ newcomers.length + 3 := by
  obtain ⟨cached, accounts⟩ := midway.accounts
  refine (activeRequests_le accounts.keyed fun other request found live => ?_ :
    _ ≤ ((fresh (Scheduling.first k) 64) :: (fresh Scheduling.minority 64) :: (fresh (Scheduling.second k) 64) ::
      newcomers.map (fresh · 64)).length).trans_eq (by simp)
  simp only [List.mem_cons, List.mem_map]
  by_cases isMinority : other = 1
  · exact .inr (.inl (Option.some.inj ((isMinority ▸ found).symm.trans midway.minority)))
  by_cases isFirst : other = 2 * k + 2
  · exact .inl (Option.some.inj ((isFirst ▸ found).symm.trans midway.first))
  by_cases isSecond : other = 2 * k + 3
  · exact .inr (.inr (.inl (Option.some.inj ((isSecond ▸ found).symm.trans midway.second))))
  rcases midway.rest other request found isMinority isFirst isSecond with ⟨spec, member, same⟩ | ⟨ended, _⟩
  · have arrived := midway.arrived spec member
    rw [← same, found] at arrived
    exact .inr (.inr (.inr ⟨spec, member, (Option.some.inj arrived).symm⟩))
  · rw [ended] at live
    cases live

theorem Midway.admits
    (few : newcomers.length < 2) (isNew : 2 * k + 3 < spec.id) (differs : ∀ other ∈ newcomers, other.id ≠ spec.id)
    (tenant : spec.tenant = 1 ∨ spec.tenant = 2)
    (shape : spec.promptTokens = 64 ∧ spec.maximumNewTokens = 1 ∧ spec.mtpDepth = 0) :
    (admitWithPrefix spec 64 t).1 = .ok () ∧ Midway k (newcomers ++ [spec]) (admitWithPrefix spec 64 t).2 := by
  obtain ⟨cached, accounts⟩ := midway.accounts
  have absent := midway.absent isNew differs
  obtain ⟨its, isTenant, limit⟩ : ∃ its, t.tenants[spec.tenant]? = some its ∧
      its.config.maximumActiveRequests.toNat = 8 := by
    rcases tenant with is | is <;> rw [is]
    · exact ⟨_, midway.tenants.1, rfl⟩
    · exact ⟨_, midway.tenants.2, rfl⟩
  have graph : t.hasGraphForRequest spec = true := by
    unfold hasGraphForRequest
    rw [midway.profile_eq, shape.2.2]
    rfl
  have unknown : spec.id ∉ t.requests := by
    rw [ExtTreeMap.mem_iff_isSome_getElem?, absent]
    nofun
  have valid : ¬(spec.id = 0 ∨ spec.promptTokens = 0 ∨ spec.maximumNewTokens = 0 ∨ spec.mtpDepth > 6 ∨
      (64 : UInt32) > spec.promptTokens ∨ ((64 : UInt32) ≠ spec.promptTokens ∧ (64 : UInt32).toNat % 64 ≠ 0) ∨
      spec.id ∈ t.requests) := by
    have nonzero : spec.id ≠ 0 := by omega
    rw [shape.1, shape.2.1, shape.2.2]
    simp [unknown, nonzero]
  have admitted := admitWithPrefix_ok valid isTenant (by have := midway.active spec.tenant; omega) graph
  have admits := (admitWithPrefix_ends spec 64 t).value admitted
  rw [admitted]
  have elsewhere (id : Nat) (other : id ≠ spec.id) :
      (t.requests.insert spec.id (fresh spec 64))[id]? = t.requests[id]? :=
    getElem?_insert_ne other
  refine ⟨rfl, midway.config_eq, midway.profile_eq, midway.cancellations_eq, midway.inflight_eq, midway.tenants,
    ⟨_, accounts.admits admits⟩, ?_, ?_, ?_, ?_, ?_⟩
  · exact (elsewhere 1 (by omega)).trans midway.minority
  · exact (elsewhere _ (by omega)).trans midway.first
  · exact (elsewhere _ (by omega)).trans midway.second
  · intro other member
    rcases List.mem_append.mp member with old | new
    · exact (elsewhere _ (differs other old)).trans (midway.arrived other old)
    · obtain rfl := List.mem_singleton.mp new
      exact ExtTreeMap.getElem?_insert_self
  · intro id request found a b c
    by_cases isHere : id = spec.id
    · exact .inl ⟨spec, by simp, isHere⟩
    · have found : t.requests[id]? = some request := (elsewhere id isHere).symm.trans found
      rcases midway.rest id request found a b c with ⟨other, member, same⟩ | done
      · exact .inl ⟨other, List.mem_append_left _ member, same⟩
      · exact .inr done

def roundPlan (k burst : Nat) : BatchCompletionPlan :=
  ⟨[⟨2 * k + 2, .finished, 64, 1⟩, ⟨2 * k + 3, .finished, 64, 1⟩], [⟨1, k + 1⟩, ⟨2, k + 1⟩], burst⟩

theorem Midway.plans : ∃ burst, completionPlan .unbounded true [] false t = .ok (roundPlan k burst) := by
  obtain ⟨stepId, inflight⟩ := midway.inflight_eq
  have accepted : ¬completionsRefused (roundBatch k stepId) true [] false := by
    unfold completionsRefused roundBatch
    simp [maximumBatchRows, maxActiveSequences]
  refine ⟨min (t.decodeBurst + 1) (2 ^ 16 - 1), ?_⟩
  refine bind_eq_ok.mpr ⟨_, okOr_eq_ok.mpr inflight, ?_⟩
  rw [if_neg accepted]
  refine bind_eq_ok.mpr ⟨_, rfl, ?_⟩
  refine bind_eq_ok.mpr ⟨⟨[⟨2 * k + 2, .finished, 64, 1⟩], [⟨1, k + 1⟩], min (t.decodeBurst + 1) (2 ^ 16 - 1)⟩,
    ?_, bind_eq_ok.mpr ⟨_, ?_, rfl⟩⟩
  · refine bind_eq_ok.mpr ⟨_, okOr_eq_ok.mpr midway.first, ?_⟩
    exact bind_eq_ok.mpr ⟨_, okOr_eq_ok.mpr midway.tenants.1, rfl⟩
  · refine bind_eq_ok.mpr ⟨_, okOr_eq_ok.mpr midway.second, ?_⟩
    exact bind_eq_ok.mpr ⟨_, okOr_eq_ok.mpr midway.tenants.2, rfl⟩

end

theorem Midway.completes (midway : Midway k [Scheduling.first (k + 1), Scheduling.second (k + 1)] t) :
    (completeBatch .unbounded true t).1 = .ok () ∧ Round (k + 1) (completeBatch .unbounded true t).2 := by
  obtain ⟨burst, planned⟩ := midway.plans
  have ran : completeBatch .unbounded true t = (.ok (), commitPlan (roundPlan k burst) t) :=
    (Action.bind_ok (Action.reads_ok planned)).trans rfl
  obtain ⟨batch, _, completes⟩ := completionPlan_completes planned
  obtain ⟨cached, accounts⟩ := midway.accounts
  have requests (id : Nat) : (commitPlan (roundPlan k burst) t).requests[id]? =
      if id = 2 * k + 2 ∨ id = 2 * k + 3 then t.requests[id]?.map fun request =>
        { request with state := .finished, promptDone := 64, generated := 1 }
      else t.requests[id]? := by
    show (updateRequest (updateRequest t.requests _) _)[id]? = _
    unfold updateRequest
    simp only [ExtTreeMap.getElem?_modify, Nat.compare_eq_eq]
    split_ifs <;> first | omega | simp_all
  have tenants (id : Nat) : (commitPlan (roundPlan k burst) t).tenants[id]? =
      if id = 1 ∨ id = 2 then t.tenants[id]?.map fun tenant => { tenant with serviceUnits := k + 1 }
      else t.tenants[id]? := by
    show (updateTenant (updateTenant t.tenants _) _)[id]? = _
    unfold updateTenant
    simp only [ExtTreeMap.getElem?_modify, Nat.compare_eq_eq]
    split_ifs <;> first | omega | simp_all
  rw [ran]
  refine ⟨rfl, midway.config_eq, midway.profile_eq, midway.cancellations_eq, rfl, ⟨?_, ?_⟩,
    ⟨cached, completes.accounts cached accounts⟩, ?_, ?_, ?_, ?_⟩
  · rw [tenants, if_pos (.inl rfl), midway.tenants.1]
    rfl
  · rw [tenants, if_pos (.inr rfl), midway.tenants.2]
    rfl
  · rw [requests, if_neg (by omega), midway.minority]
  · rw [requests, if_neg (by omega)]
    exact midway.arrived (Scheduling.first (k + 1)) (by simp)
  · rw [requests, if_neg (by omega)]
    exact midway.arrived (Scheduling.second (k + 1)) (by simp)
  · intro id request found a b c
    rw [requests] at found
    split at found
    next served =>
      obtain ⟨old, _, rfl⟩ := Option.map_eq_some_iff.mp found
      exact ⟨rfl, by omega⟩
    next =>
      rcases midway.rest id request found a (by omega) (by omega) with ⟨spec, member, same⟩ | ⟨ended, less⟩
      · simp only [List.mem_cons, List.not_mem_nil, or_false] at member
        rcases member with rfl | rfl
        · exact absurd same b
        · exact absurd same c
      · exact ⟨ended, by omega⟩

end Rounds

section Starving

theorem starve_round (k : Nat) :
    starve (4 * k + 3) = .nextBatch ∧ starve (4 * k + 4) = .admitWithPrefix (first (k + 1)) 64 ∧
      starve (4 * k + 5) = .admitWithPrefix (second (k + 1)) 64 ∧ starve (4 * k + 6) = .completeBatch true := by
  have zero : 4 * k % 4 = 0 := by omega
  have one : (4 * k + 1) % 4 = 1 ∧ (4 * k + 1) / 4 = k := by omega
  have two : (4 * k + 2) % 4 = 2 ∧ (4 * k + 2) / 4 = k := by omega
  have three : (4 * k + 3) % 4 = 3 := by omega
  simp only [starve, zero, one, two, three, and_self]

theorem round_zero : Round 0 (trace .unbounded sampleScheduler starve 3) := by
  have state : trace .unbounded sampleScheduler starve 3 = { sampleScheduler with
      requests := (((∅ : ExtTreeMap Nat Request).insert 1 (fresh minority 64)).insert 2 (fresh (first 0) 64)).insert 3
        (fresh (second 0) 64) } := by rfl
  have sound := trace_sound (new_sound new_sampleScheduler).1 .unbounded starve 3
  rw [state] at sound ⊢
  refine ⟨rfl, rfl, rfl, rfl, ⟨by rfl, by rfl⟩, sound.imp fun _ sound => sound.accounts,
    by rfl, by rfl, by rfl, ?_⟩
  intro id request found a b c
  have others : ¬(3 = id) ∧ ¬(2 = id) ∧ ¬(1 = id) := by omega
  simp [others] at found

theorem round_succ (round : Round k (trace .unbounded sampleScheduler starve (4 * k + 3))) :
    Accepted .unbounded sampleScheduler starve (4 * k + 6) ∧
      Round (k + 1) (trace .unbounded sampleScheduler starve (4 * k + 7)) := by
  obtain ⟨isNext, isFirst, isSecond, isCompletion⟩ := starve_round k
  have launched : Midway k [] (trace .unbounded sampleScheduler starve (4 * k + 4)) := by
    show Midway k [] (call .unbounded (starve (4 * k + 3)) _).2
    rw [isNext, call_nextBatch]
    exact round.midway
  have one : Midway k [first (k + 1)] (trace .unbounded sampleScheduler starve (4 * k + 5)) := by
    show Midway k _ (call .unbounded (starve (4 * k + 4)) _).2
    rw [isFirst]
    exact (launched.admits (by simp) (show 2 * k + 3 < 2 * (k + 1) + 2 by omega) nofun (.inl rfl) ⟨rfl, rfl, rfl⟩).2
  have two : Midway k [first (k + 1), second (k + 1)] (trace .unbounded sampleScheduler starve (4 * k + 6)) := by
    show Midway k _ (call .unbounded (starve (4 * k + 5)) _).2
    rw [isSecond]
    exact (one.admits (by simp) (show 2 * k + 3 < 2 * (k + 1) + 3 by omega) (by simp [first, second]) (.inr rfl) ⟨rfl, rfl, rfl⟩).2
  unfold Accepted
  rw [isCompletion]
  refine ⟨two.completes.1, ?_⟩
  show Round (k + 1) (call .unbounded (starve (4 * k + 6)) _).2
  rw [isCompletion]
  exact two.completes.2

theorem round_at (k : Nat) : Round k (trace .unbounded sampleScheduler starve (4 * k + 3)) := by
  induction k with
  | zero => exact round_zero
  | succ k ih => exact (round_succ ih).2

theorem starve_admission {n : Nat} (isAdmission : admission (starve n) = some (spec, tokens)) :
    (n < 3 ∧ spec.id = n + 1) ∨ ∃ k, (n = 4 * k + 4 ∧ spec.id = 2 * k + 4) ∨ (n = 4 * k + 5 ∧ spec.id = 2 * k + 5) := by
  match n with
  | 0 => cases isAdmission; exact .inl ⟨by omega, rfl⟩
  | 1 => cases isAdmission; exact .inl ⟨by omega, rfl⟩
  | 2 => cases isAdmission; exact .inl ⟨by omega, rfl⟩
  | n + 3 =>
    refine .inr ⟨n / 4, ?_⟩
    obtain ⟨isNext, isFirst, isSecond, isCompletion⟩ := starve_round (n / 4)
    have four : n % 4 = 0 ∨ n % 4 = 1 ∨ n % 4 = 2 ∨ n % 4 = 3 := by omega
    rcases four with rem | rem | rem | rem
    · rw [show n + 3 = 4 * (n / 4) + 3 by omega, isNext] at isAdmission
      cases isAdmission
    · rw [show n + 3 = 4 * (n / 4) + 4 by omega, isFirst] at isAdmission
      cases isAdmission
      exact .inl ⟨by omega, by simp [first]; omega⟩
    · rw [show n + 3 = 4 * (n / 4) + 5 by omega, isSecond] at isAdmission
      cases isAdmission
      exact .inr ⟨by omega, by simp [second]; omega⟩
    · rw [show n + 3 = 4 * (n / 4) + 6 by omega, isCompletion] at isAdmission
      cases isAdmission

theorem starve_succeeds (n : Nat) : completion (starve n) ≠ some false := by
  match n with
  | 0 => nofun
  | 1 => nofun
  | 2 => nofun
  | n + 3 =>
    unfold starve
    dsimp only
    split <;> nofun

theorem starve_fair : FairRun .unbounded sampleScheduler starve := by
  refine ⟨fun n _ => ?_, fun n _ _ => ?_, fun n failing => absurd failing (starve_succeeds n), ?_⟩
  · exact ⟨4 * n + 3, by omega, (starve_round n).1⟩
  · refine ⟨4 * n + 6, by omega, ?_, (round_succ (round_at n)).1⟩
    rw [(starve_round n).2.2.2]
    rfl
  · intro m n spec tokens spec' tokens' earlier isAdmission _ isAdmission' _
    rcases starve_admission isAdmission with before | ⟨k, before⟩ <;>
      rcases starve_admission isAdmission' with after | ⟨k', after⟩ <;> omega

theorem minority_starves : ¬NoStarvation .unbounded sampleScheduler starve := by
  intro served
  have sound := (new_sound new_sampleScheduler).1
  have present : (trace .unbounded sampleScheduler starve 3).requestState 1 ≠ none := by
    unfold requestState
    rw [(round_at 0).minority]
    nofun
  obtain ⟨m, _, ended⟩ := served 3 1 present
  cases was : (trace .unbounded sampleScheduler starve m).requests[1]? with
  | none => simp [requestState, was] at ended
  | some old =>
    have terminal : old.state.isTerminal = true := by
      rcases ended with isState | isState <;> simp [requestState, was] at isState <;> rw [isState] <;> rfl
    obtain ⟨request', found, later⟩ :=
      (trace_evolves sound .unbounded starve (show m ≤ 4 * m + 3 by omega)).requests 1 old was
    rw [(round_at m).minority] at found
    cases found
    rw [← later.ended terminal] at terminal
    cases terminal

theorem equal_tenants_starve_minority :
    Scheduler.new (fun _ => Bytes32.zero) ⟨4, 32, 2⟩ sampleProfile [⟨1, 1, 8⟩, ⟨2, 1, 8⟩] = .ok sampleScheduler ∧
    FairRun .unbounded sampleScheduler starve ∧ ¬NoStarvation .unbounded sampleScheduler starve :=
  ⟨new_sampleScheduler, starve_fair, minority_starves⟩

/-- Requests starve only where batches charge a tenant and pass over its oldest request again and again. -/
theorem fair_run_serves_iff {sha256 : List UInt8 → Bytes32} {config : SchedulerConfig} {profile : GraphProfile}
    {tenantConfigs : List TenantConfig} {calls : Nat → SchedulerCall}
    (start : Scheduler.new sha256 config profile tenantConfigs = .ok s) (fair : FairRun .unbounded s calls) :
    NoStarvation .unbounded s calls ↔ ∀ id, ∃ n, ∀ m ≥ n, ¬PassedOver .unbounded s calls m id := by
  obtain ⟨sound, _, _, noRequests⟩ := new_sound start
  have empty (id : Nat) : s.requests[id]? = none := by
    rw [noRequests]
    simp
  constructor
  · exact fun served id => eventually_atTop.mp (passes_of_noStarvation sound served id)
  · exact fun passes => noStarvation_of_passes sound empty fair fun id => eventually_atTop.mpr (passes id)

theorem minority_passed_over_forever : ¬∀ id, ∃ n, ∀ m ≥ n, ¬PassedOver .unbounded sampleScheduler starve m id :=
  fun passes => minority_starves ((fair_run_serves_iff new_sampleScheduler starve_fair).mpr passes)

end Starving

end Glmaxx.Proof.Scheduling
