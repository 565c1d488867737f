import Glmaxx.Scheduling.Batching

namespace Glmaxx.Proof.Scheduling
open Std Library Cache Engine Glmaxx.Scheduling Glmaxx.Scheduling.Scheduler

variable {s : Scheduler} {id : Nat} {request other : Request}

section Requests

theorem hasRequest_iff {state : RequestState} :
    s.hasRequest state = true ↔ ∃ (id : Nat) (request : Request), s.requests[id]? = some request ∧ request.state = state := by
  rw [hasRequest, List.any_eq_true]
  constructor
  · rintro ⟨request, member, isState⟩
    obtain ⟨id, found⟩ := mem_values.mp member
    exact ⟨id, request, found, of_decide_eq_true isState⟩
  · rintro ⟨id, request, found, isState⟩
    exact ⟨request, mem_values.mpr ⟨id, found⟩, decide_eq_true isState⟩

def Keyed (s : Scheduler) : Prop := ∀ (id : Nat) (request : Request), s.requests[id]? = some request → request.spec.id = id

theorem Keyed.ids_nodup (keyed : Keyed s) : (s.requests.values.map (·.spec.id)).Nodup := by
  have ids : s.requests.values.map (·.spec.id) = s.requests.toList.map (·.1) := by
    rw [values_eq_map_toList, List.map_map]
    refine List.map_congr_left ?_
    rintro ⟨id, request⟩ member
    exact keyed id request (mem_toList_iff.mp member)
  rw [ids]
  exact keys_nodup s.requests

end Requests

section Ranking

def Weighted (s : Scheduler) : Prop := ∀ (id : Nat) (tenant : Tenant), s.tenants[id]? = some tenant → tenant.config.weight ≠ 0

def score (tenant : Tenant) : ℚ := tenant.serviceUnits / tenant.config.weight.toNat

def rank (s : Scheduler) (request : Request) : ℚ ×ₗ (ℕ ×ₗ ℕ) :=
  toLex (score (s.tenantOf request), toLex (request.spec.tenant, request.spec.id))

theorem Weighted.weight_pos (weighted : Weighted s) (request : Request) :
    0 < (s.tenantOf request).config.weight.toNat := by
  have positive : (s.tenantOf request).config.weight ≠ 0 := by
    unfold tenantOf
    cases found : s.tenants[request.spec.tenant]? with
    | none => simp
    | some tenant => exact weighted _ tenant found
  rw [Nat.pos_iff_ne_zero]
  intro zero
  exact positive (UInt16.toNat_inj.mp zero)

theorem score_lt_iff {a b : Tenant} (weightA : 0 < a.config.weight.toNat) (weightB : 0 < b.config.weight.toNat) :
    score a < score b ↔
      a.serviceUnits * b.config.weight.toNat < b.serviceUnits * a.config.weight.toNat := by
  unfold score
  rw [div_lt_div_iff₀ (by exact_mod_cast weightA) (by exact_mod_cast weightB)]
  exact_mod_cast Iff.rfl

theorem score_eq_iff {a b : Tenant} (weightA : 0 < a.config.weight.toNat) (weightB : 0 < b.config.weight.toNat) :
    score a = score b ↔
      a.serviceUnits * b.config.weight.toNat = b.serviceUnits * a.config.weight.toNat := by
  unfold score
  rw [div_eq_div_iff (by exact_mod_cast weightA.ne') (by exact_mod_cast weightB.ne')]
  exact_mod_cast Iff.rfl

/-- The comparison of the source, without division, orders requests by rank. -/
theorem precedes_iff (weighted : Weighted s) : s.Precedes request other ↔ rank s request ≤ rank s other := by
  have weightA := weighted.weight_pos request
  have weightB := weighted.weight_pos other
  unfold Precedes rank
  rw [Prod.Lex.le_iff, Prod.Lex.le_iff]
  simp only [ofLex_toLex]
  rw [score_lt_iff weightA weightB, score_eq_iff weightA weightB]

theorem orderedRequests_sorted (weighted : Weighted s) (state : RequestState)
    (decodeClass : Option (Nat × SamplingCollective)) :
    (s.orderedRequests state decodeClass).Pairwise fun a b => rank s a ≤ rank s b := by
  have total : Std.Total s.Precedes :=
    ⟨fun a b => by rw [precedes_iff weighted, precedes_iff weighted]; exact le_total _ _⟩
  have trans : IsTrans Request s.Precedes :=
    ⟨fun a b c => by simp only [precedes_iff weighted]; exact fun first second => first.trans second⟩
  refine (List.pairwise_insertionSort s.Precedes _).imp ?_
  intro a b first
  exact (precedes_iff weighted).mp first

theorem mem_orderedRequests {state : RequestState} {decodeClass : Option (Nat × SamplingCollective)} :
    request ∈ s.orderedRequests state decodeClass ↔
      (∃ id : Nat, s.requests[id]? = some request) ∧ request.state = state ∧ s.inClass request decodeClass = true := by
  rw [orderedRequests, (List.perm_insertionSort _ _).mem_iff, List.mem_filter, mem_values, decide_eq_true_iff]

theorem orderedRequests_nodup (keyed : Keyed s) (state : RequestState)
    (decodeClass : Option (Nat × SamplingCollective)) :
    ((s.orderedRequests state decodeClass).map (·.spec.id)).Nodup := by
  refine ((List.perm_insertionSort _ _).map _).nodup_iff.mpr ?_
  exact keyed.ids_nodup.sublist (List.filter_sublist.map _)

theorem orderedRequests_strict (keyed : Keyed s) (weighted : Weighted s) (state : RequestState)
    (decodeClass : Option (Nat × SamplingCollective)) :
    (s.orderedRequests state decodeClass).Pairwise fun a b => rank s a < rank s b := by
  have distinct := orderedRequests_nodup keyed state decodeClass
  rw [List.Nodup, List.pairwise_map] at distinct
  apply ((orderedRequests_sorted weighted state decodeClass).and distinct).imp
  rintro a b ⟨first, other⟩
  apply first.lt_of_ne
  intro same
  have ids := congrArg (fun key => (ofLex (ofLex key).2).2) same
  exact other ids

theorem orderedRequests_eq (keyed : Keyed s) (weighted : Weighted s) {state : RequestState}
    {decodeClass : Option (Nat × SamplingCollective)} {expected : List Request}
    (members : ∀ request, request ∈ s.orderedRequests state decodeClass ↔ request ∈ expected)
    (sorted : expected.Pairwise fun a b => rank s a < rank s b) :
    s.orderedRequests state decodeClass = expected := by
  have distinct {requests : List Request} (sorted : requests.Pairwise fun a b => rank s a < rank s b) : requests.Nodup :=
    sorted.imp fun less same => less.ne (congrArg (rank s) same)
  have strict := orderedRequests_strict keyed weighted state decodeClass
  apply List.Perm.eq_of_pairwise (fun a b _ _ less more => absurd less more.asymm) strict sorted
  exact (List.perm_ext_iff_of_nodup (distinct strict) (distinct sorted)).mpr members

end Ranking

section Depth

def depths (s : Scheduler) (request : Request) : Set Nat :=
  {depth | depth = 0 ∨ ∃ entry ∈ s.profile.entries, entry.key.mode = .verify ∧ entry.key.mtpDepth.toNat = depth ∧
    depth ≤ request.spec.mtpDepth.toNat ∧ depth ≤ request.spec.maximumNewTokens.toNat - request.generated - 1 ∧
    depth < entry.maximumQueryRows.toNat}

theorem mem_depths {depth : Nat} : depth ∈ depths s request ↔ depth = 0 ∨
    depth ∈ s.capturedDepths (min request.spec.mtpDepth.toNat
      ((narrow 8 (request.spec.maximumNewTokens.toNat - request.generated - 1)).getD 255)) := by
  have shallow : depth ≤ min request.spec.mtpDepth.toNat
      ((narrow 8 (request.spec.maximumNewTokens.toNat - request.generated - 1)).getD 255) ↔
      depth ≤ request.spec.mtpDepth.toNat ∧
        depth ≤ request.spec.maximumNewTokens.toNat - request.generated - 1 := by
    have byte := request.spec.mtpDepth.toNat_lt
    unfold narrow
    split
    · rw [Option.getD_some]
      omega
    · rw [Option.getD_none]
      omega
  unfold depths capturedDepths
  simp only [Set.mem_ofPred_eq, List.mem_map, List.mem_filter, decide_eq_true_eq]
  constructor
  · rintro (zero | ⟨entry, captured, mode, rfl, most, short, rows⟩)
    · exact .inl zero
    · exact .inr ⟨entry, ⟨captured, mode, shallow.mpr ⟨most, short⟩, rows⟩, rfl⟩
  · rintro (zero | ⟨entry, ⟨captured, mode, least, rows⟩, rfl⟩)
    · exact .inl zero
    · obtain ⟨most, short⟩ := shallow.mp least
      exact .inr ⟨entry, captured, mode, rfl, most, short, rows⟩

theorem effectiveDecodeDepth_ok (s : Scheduler) (left : request.generated < request.spec.maximumNewTokens.toNat) :
    ∃ depth, s.effectiveDecodeDepth request = .ok depth ∧ IsGreatest (depths s request) depth := by
  have left' : checkedSub request.spec.maximumNewTokens.toNat request.generated =
      some (request.spec.maximumNewTokens.toNat - request.generated) := if_pos left.le
  unfold effectiveDecodeDepth
  rw [left']
  refine ⟨_, if_neg (by omega), ?_⟩
  have captured (depth : Nat) := @mem_depths s request depth
  cases deepest : (s.capturedDepths (min request.spec.mtpDepth.toNat
      ((narrow 8 (request.spec.maximumNewTokens.toNat - request.generated - 1)).getD 255))).max? with
  | none =>
    rw [List.max?_eq_none_iff] at deepest
    refine ⟨.inl rfl, fun other member => ?_⟩
    rw [captured, deepest] at member
    simpa using member
  | some deepest' =>
    obtain ⟨member, most⟩ := List.max?_eq_some_iff.mp deepest
    refine ⟨(captured deepest').mpr (.inr member), fun other member => ?_⟩
    rcases (captured other).mp member with zero | inside
    · rw [zero]
      exact Nat.zero_le _
    · exact most other inside

theorem effectiveDecodeDepth_greatest {depth : Nat} (left : request.generated < request.spec.maximumNewTokens.toNat) :
    s.effectiveDecodeDepth request = .ok depth ↔ IsGreatest (depths s request) depth := by
  obtain ⟨actual, ran, greatest⟩ := effectiveDecodeDepth_ok s left
  rw [ran, Except.ok.injEq]
  exact ⟨fun same => same ▸ greatest, fun other => greatest.unique other⟩

theorem depths_le {depth : Nat} (member : depth ∈ depths s request) : depth ≤ request.spec.mtpDepth.toNat := by
  rcases member with rfl | ⟨_, _, _, _, most, _⟩
  · exact Nat.zero_le _
  · exact most

theorem inClass_some {depth : Nat} {sampling : SamplingCollective} :
    s.inClass request (some (depth, sampling)) = true ↔
      s.effectiveDecodeDepth request = .ok depth ∧ request.spec.sampling = sampling := by
  unfold inClass
  rw [Bool.and_eq_true, decide_eq_true_iff]
  refine and_congr_left fun _ => ?_
  cases s.effectiveDecodeDepth request with
  | error e => simp
  | ok actual => simp

end Depth

end Glmaxx.Proof.Scheduling
