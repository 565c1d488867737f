import Glmaxx.Library.Assoc
import Glmaxx.Proof.Scheduling.Accounts

namespace Glmaxx.Proof.Scheduling
open Std Library Cache Engine Glmaxx.Scheduling Glmaxx.Scheduling.Scheduler

variable {index id : Nat} {t t' : Scheduler} {completions : List BatchCompletion}

variable {s s' : Scheduler} {cached : Nat → Nat} {counter : Counter} {success : Bool} {kind : BatchKind}
  {request request' : Request} {row : BatchRow} {completion : Option BatchCompletion}
  {update : RequestCompletionUpdate} {delta : Nat} {plan plan' : BatchCompletionPlan} {done : List Nat}

def needed : BatchKind → RequestState
  | .prefill => .waitingPrefill
  | .decode | .verify _ => .decoding

section Rows

def advanced (request : Request) (update : RequestCompletionUpdate) : Request :=
  { request with state := update.state, promptDone := update.promptDone, generated := update.generated }

/-- A request is moved on by a row of a batch, and `delta` is the progress it makes. -/
structure Served (kind : BatchKind) (request request' : Request) (delta : Nat) : Prop where
  spec_eq : request'.spec = request.spec
  state_eq : request.state = needed kind
  alive : request'.state ≠ .cancelled ∧ request'.state ≠ .failed
  prompt_le : request.promptDone ≤ request'.promptDone
  generated_le : request.generated ≤ request'.generated
  progress : request'.promptDone + request'.generated = request.promptDone + request.generated + delta
  positive : 0 < delta
  sound : RequestSound request → RequestSound request'

theorem prefillUpdate_served (ok : prefillUpdate request row = .ok (update, delta)) :
    update.requestId = row.requestId ∧ Served .prefill request (advanced request update) delta := by
  unfold prefillUpdate at ok
  split at ok
  · cases ok
  next valid =>
  obtain ⟨waiting, positive⟩ := not_or.mp valid
  have waiting := not_not.mp waiting
  obtain ⟨promptDone, added, ok⟩ := bind_eq_ok.mp ok
  have added := checkedAdd_some (okOr_eq_ok.mp added)
  split at ok
  · cases ok
  next within =>
  cases ok
  refine ⟨rfl, rfl, waiting, ?_, ?_, le_rfl, ?_, by omega,
    fun sound => ⟨sound.limit, Nat.not_lt.mp within, sound.generated, ?_, ?_⟩⟩
  · unfold advanced
    dsimp only
    split <;> exact ⟨nofun, nofun⟩
  · show request.promptDone ≤ promptDone
    omega
  · show promptDone + request.generated = _
    omega
  · intro waits
    have short : promptDone ≠ request.spec.promptTokens.toNat := by
      intro same
      rw [advanced, if_pos same] at waits
      cases waits
    exact ⟨show promptDone < request.spec.promptTokens.toNat by omega, (sound.waiting waiting).2⟩
  · intro decodes
    have full : promptDone = request.spec.promptTokens.toNat := by
      by_contra short
      rw [advanced, if_neg short] at decodes
      cases decodes
    refine ⟨full, ?_⟩
    show request.generated < request.spec.maximumNewTokens.toNat
    rw [(sound.waiting waiting).2]
    exact sound.limit

theorem decodeUpdate_served {maximumCommit : Nat} (isDecode : needed kind = .decoding)
    (ok : decodeUpdate maximumCommit request row completion = .ok (update, delta)) :
    update.requestId = row.requestId ∧ Served kind request (advanced request update) delta := by
  unfold decodeUpdate at ok
  split at ok
  · cases ok
  next valid =>
  have decoding := not_not.mp (not_or.mp valid).1
  obtain ⟨remaining, left, ok⟩ := bind_eq_ok.mp ok
  obtain ⟨left, isRemaining⟩ := checkedSub_some (okOr_eq_ok.mp left)
  split at ok
  · cases ok
  next accepted =>
  obtain ⟨nonzero, _, within⟩ : _ ∧ _ ∧ _ := by simpa only [not_or] using accepted
  obtain ⟨generated, added, ok⟩ := bind_eq_ok.mp ok
  have added := checkedAdd_some (okOr_eq_ok.mp added)
  cases ok
  have positive : 0 < (completion.getD ⟨row.requestId, 1, false⟩).committedTokens.toNat := by
    rw [Nat.pos_iff_ne_zero]
    intro zero
    exact nonzero (UInt8.toNat_inj.mp zero)
  refine ⟨rfl, rfl, decoding.trans isDecode.symm, ?_, le_rfl, ?_, ?_, positive,
    fun sound => ⟨sound.limit, sound.prompt, ?_, ?_, ?_⟩⟩
  · unfold advanced
    dsimp only
    split <;> exact ⟨nofun, nofun⟩
  · show request.generated ≤ generated
    omega
  · show request.promptDone + generated = _
    omega
  · show generated ≤ request.spec.maximumNewTokens.toNat
    omega
  · intro waits
    unfold advanced at waits
    dsimp only at waits
    split at waits <;> cases waits
  · intro decodes
    have short : generated ≠ request.spec.maximumNewTokens.toNat := by
      intro full
      rw [advanced, if_pos (.inr full)] at decodes
      cases decodes
    exact ⟨(sound.decoding decoding).1, show generated < request.spec.maximumNewTokens.toNat by omega⟩

theorem rowUpdate_served (ok : rowUpdate kind request row completion = .ok (update, delta)) :
    update.requestId = row.requestId ∧ Served kind request (advanced request update) delta := by
  cases kind with
  | «prefill» => exact prefillUpdate_served ok
  | decode | verify depth => exact decodeUpdate_served rfl ok

end Rows

section Plan

/-- The plan has an update for each request of `done` and at most one for each tenant. -/
structure Planning (plan : BatchCompletionPlan) (done : List Nat) : Prop where
  requests : plan.requests.map (·.requestId) = done
  distinct : done.Nodup
  tenants : (plan.tenantServiceUnits.map (·.tenantId)).Nodup

theorem Planning.nil (burst : Nat) : Planning ⟨[], [], burst⟩ [] := ⟨rfl, List.nodup_nil, List.nodup_nil⟩

theorem Planning.requests_get (planning : Planning plan done) (s : Scheduler) (j : Nat) :
    (commitPlan plan s).requests[j]? =
      (plan.requests.find? (·.requestId = j)).elim s.requests[j]? fun update =>
        s.requests[j]?.map (advanced · update) :=
  getElem?_foldl_modify (fun update : RequestCompletionUpdate => update.requestId)
    (fun update request => advanced request update) plan.requests s.requests
    (planning.requests ▸ planning.distinct) j

def billed (update : TenantServiceUpdate) (tenant : Tenant) : Tenant :=
  { tenant with serviceUnits := update.serviceUnits }

theorem Planning.tenants_get (planning : Planning plan done) (s : Scheduler) (j : Nat) :
    (commitPlan plan s).tenants[j]? =
      (plan.tenantServiceUnits.find? (·.tenantId = j)).elim s.tenants[j]? fun update =>
        s.tenants[j]?.map (billed update) :=
  getElem?_foldl_modify (fun update : TenantServiceUpdate => update.tenantId) billed plan.tenantServiceUnits
    s.tenants planning.tenants j

theorem Planning.unserved (planning : Planning plan done) {j : Nat} (fresh : j ∉ done) :
    (commitPlan plan s).requests[j]? = s.requests[j]? := by
  have none : plan.requests.find? (·.requestId = j) = none := by
    refine List.find?_eq_none.mpr fun update member => ?_
    have listed : update.requestId ∈ done := planning.requests ▸ List.mem_map_of_mem member
    have different : update.requestId ≠ j := fun same => fresh (same ▸ listed)
    simpa using different
  rw [planning.requests_get, none]
  rfl

theorem commitPlan_snoc (requests_eq : plan'.requests = plan.requests ++ [update])
    (found : (commitPlan plan s).requests[update.requestId]? = some request) (j : Nat) :
    (commitPlan plan' s).requests[j]? =
      if j = update.requestId then some (advanced request update) else (commitPlan plan s).requests[j]? := by
  have last : (commitPlan plan' s).requests = updateRequest (commitPlan plan s).requests update := by
    unfold commitPlan
    rw [requests_eq, List.foldl_append]
    rfl
  rw [last, updateRequest, ExtTreeMap.getElem?_modify]
  by_cases here : j = update.requestId
  · rw [if_pos (Std.compare_eq_iff_eq.mpr here.symm), if_pos here, found]
    rfl
  · rw [if_neg (fun same => here (Std.compare_eq_iff_eq.mp same).symm), if_neg here]

/-- The slot that the source looks for is the tenant's own, or a new one. -/
theorem tenantUpdateIndex_cases {updates : List TenantServiceUpdate} {tenant : Nat}
    (ok : tenantUpdateIndex updates tenant = .ok index) :
    (∃ old, updates[index]? = some old ∧ old.tenantId = tenant) ∨
      index = updates.length ∧ tenant ∉ updates.map (·.tenantId) := by
  unfold tenantUpdateIndex at ok
  split at ok
  next i found =>
    cases ok
    obtain ⟨inside, isTenant, _⟩ := List.findIdx?_eq_some_iff_getElem.mp found
    exact .inl ⟨_, List.getElem?_eq_getElem inside, of_decide_eq_true isTenant⟩
  next absent =>
    split at ok
    next =>
      cases ok
      refine .inr ⟨rfl, fun listed => ?_⟩
      obtain ⟨update, member, isTenant⟩ := List.mem_map.mp listed
      have different := List.findIdx?_eq_none_iff.mp absent update member
      simp [isTenant] at different
    next => cases ok

theorem putTenantUpdate_charges {tenant : Tenant} {tenantId charge : Nat} (planning : Planning plan done)
    (isTenant : s.tenants[tenantId]? = some tenant)
    (slot : tenantUpdateIndex plan.tenantServiceUnits tenantId = .ok index)
    (sum : charge = plan.tenantServiceUnits[index]?.elim tenant.serviceUnits (·.serviceUnits) + delta)
    (updates_eq : plan'.tenantServiceUnits =
      putTenantUpdate plan.tenantServiceUnits index ⟨tenantId, charge⟩) :
    (plan'.tenantServiceUnits.map (·.tenantId)).Nodup ∧ ∀ j : Nat,
      (plan'.tenantServiceUnits.find? (·.tenantId = j)).elim s.tenants[j]? (fun update =>
        s.tenants[j]?.map (billed update)) =
      if j = tenantId then (commitPlan plan s).tenants[j]?.map (charged delta)
      else (commitPlan plan s).tenants[j]? := by
  have before := planning.tenants_get s
  rcases tenantUpdateIndex_cases slot with ⟨old, get, isOld⟩ | ⟨rfl, absent⟩
  · have inside := (List.getElem?_eq_some_iff.mp get).1
    rw [get, Option.elim_some] at sum
    rw [putTenantUpdate, if_pos inside] at updates_eq
    rw [updates_eq]
    have same : (TenantServiceUpdate.mk tenantId charge).tenantId = old.tenantId := isOld.symm
    refine ⟨(map_key_set get same).symm ▸ planning.tenants, fun j => ?_⟩
    rw [find?_key_set planning.tenants get same, before]
    dsimp only
    split
    next here =>
      subst here
      rw [(find?_key_iff planning.tenants).mpr ⟨List.mem_of_getElem? get, isOld⟩, isTenant]
      show some (billed _ tenant) = some (charged delta (billed old tenant))
      rw [sum]
      rfl
    next => rfl
  · rw [List.getElem?_eq_none le_rfl, Option.elim_none] at sum
    rw [putTenantUpdate, if_neg (Nat.lt_irrefl _)] at updates_eq
    rw [updates_eq]
    refine ⟨?_, fun j => ?_⟩
    · rw [List.map_append]
      exact List.nodup_append_comm.mpr (List.nodup_cons.mpr ⟨absent, planning.tenants⟩)
    · have lookup := find?_key_append (show (TenantServiceUpdate.mk tenantId charge).tenantId ∉
        plan.tenantServiceUnits.map (·.tenantId) from absent) j
      rw [lookup, before]
      dsimp only
      split
      next here =>
        subst here
        have none : plan.tenantServiceUnits.find? (·.tenantId = j) = none := by
          refine List.find?_eq_none.mpr fun update member => ?_
          have different : update.tenantId ≠ j := fun same => absent (same ▸ List.mem_map_of_mem member)
          simpa using different
        rw [none, isTenant]
        show some (billed _ tenant) = some (charged delta tenant)
        rw [sum]
        rfl
      next => rfl

def Outcome (success : Bool) (kind : BatchKind) (request request' : Request) (delta : Nat) : Prop :=
  match success with
  | true => Served kind request request' delta
  | false => request' = { request with state := .failed } ∧ delta = 0

theorem planRow_serves (planning : Planning plan done) (unserved : row.requestId ∉ done)
    (ok : planRow counter s success kind plan row completion = .ok plan') :
    ∃ request request' delta, s.requests[row.requestId]? = some request ∧
      Outcome success kind request request' delta ∧
      Planning plan' (done ++ [row.requestId]) ∧ plan'.decodeBurst = plan.decodeBurst ∧
      (∀ j : Nat, (commitPlan plan' s).requests[j]? =
        if j = row.requestId then some request' else (commitPlan plan s).requests[j]?) ∧
      ∀ j : Nat, (commitPlan plan' s).tenants[j]? =
        if j = request.spec.tenant then (commitPlan plan s).tenants[j]?.map (charged delta)
        else (commitPlan plan s).tenants[j]? := by
  obtain ⟨request, found, ok⟩ := bind_eq_ok.mp ok
  have found := okOr_eq_ok.mp found
  have current : (commitPlan plan s).requests[row.requestId]? = some request := (planning.unserved unserved).trans found
  have distinct : (done ++ [row.requestId]).Nodup :=
    List.nodup_append_comm.mpr (List.nodup_cons.mpr ⟨unserved, planning.distinct⟩)
  cases success with
  | false =>
    rw [if_pos rfl] at ok
    cases ok
    refine ⟨request, _, 0, found, ⟨rfl, rfl⟩, ⟨?_, distinct, planning.tenants⟩, rfl, ?_, ?_⟩
    · rw [List.map_append, planning.requests]
      rfl
    · exact commitPlan_snoc (show _ = plan.requests ++ [RequestCompletionUpdate.mk row.requestId .failed
        request.promptDone request.generated] from rfl) current
    · intro j
      show (commitPlan plan s).tenants[j]? = _
      split
      · cases (commitPlan plan s).tenants[j]? <;> rfl
      · rfl
  | true =>
    rw [if_neg nofun] at ok
    obtain ⟨tenant, isTenant, ok⟩ := bind_eq_ok.mp ok
    obtain ⟨index, slot, ok⟩ := bind_eq_ok.mp ok
    obtain ⟨⟨update, delta⟩, updated, ok⟩ := bind_eq_ok.mp ok
    obtain ⟨charge, added, ok⟩ := bind_eq_ok.mp ok
    obtain ⟨isRow, served⟩ := rowUpdate_served updated
    have sum := counter.exact (okOr_eq_ok.mp added)
    cases ok
    obtain ⟨tenantsNodup, charges⟩ := putTenantUpdate_charges planning (okOr_eq_ok.mp isTenant) slot sum
      (show (BatchCompletionPlan.mk (plan.requests ++ [update]) (putTenantUpdate plan.tenantServiceUnits index
        ⟨request.spec.tenant, charge⟩) plan.decodeBurst).tenantServiceUnits = _ from rfl)
    have planning' : Planning ⟨plan.requests ++ [update], putTenantUpdate plan.tenantServiceUnits index
        ⟨request.spec.tenant, charge⟩, plan.decodeBurst⟩ (done ++ [row.requestId]) := by
      refine ⟨?_, distinct, tenantsNodup⟩
      rw [List.map_append, planning.requests, List.map_singleton, isRow]
    refine ⟨request, advanced request update, delta, found, served, planning', rfl, ?_, ?_⟩
    · intro j
      rw [← isRow]
      exact commitPlan_snoc rfl (isRow ▸ current) j
    · intro j
      rw [planning'.tenants_get]
      exact charges j

/-- The requests of `done` were served and their tenants charged; the others are as before. -/
structure Serves (success : Bool) (kind : BatchKind) (done : List Nat) (s s' : Scheduler) : Prop where
  others : ∀ j : Nat, j ∉ done → s'.requests[j]? = s.requests[j]?
  each : ∀ j ∈ done, ∃ request request' delta, s.requests[j]? = some request ∧
    s'.requests[j]? = some request' ∧ Outcome success kind request request' delta
  tenants : ∀ j : Nat, ∃ delta, s'.tenants[j]? = s.tenants[j]?.map (charged delta) ∧
    (0 < delta ↔ success = true ∧
      ∃ id ∈ done, ∃ request, s.requests[id]? = some request ∧ request.spec.tenant = j)

theorem charged_zero (tenant : Option Tenant) : tenant.map (charged 0) = tenant := by
  cases tenant <;> rfl

theorem Serves.nil (s : Scheduler) (burst : Nat) : Serves success kind [] s (commitPlan ⟨[], [], burst⟩ s) := by
  refine ⟨fun _ _ => rfl, nofun, fun j => ⟨0, (charged_zero _).symm, ?_⟩⟩
  simp

theorem Outcome.positive_iff (outcome : Outcome success kind request request' delta) :
    0 < delta ↔ success = true := by
  cases success with
  | true => exact ⟨fun _ => rfl, fun _ => Served.positive outcome⟩
  | false => exact ⟨fun positive => absurd outcome.2 positive.ne', nofun⟩

theorem Serves.snoc (serves : Serves success kind done s t) (unserved : id ∉ done)
    (found : s.requests[id]? = some request) (outcome : Outcome success kind request request' delta)
    (requests_eq : ∀ j : Nat, t'.requests[j]? = if j = id then some request' else t.requests[j]?)
    (tenants_eq : ∀ j : Nat, t'.tenants[j]? =
      if j = request.spec.tenant then t.tenants[j]?.map (charged delta) else t.tenants[j]?) :
    Serves success kind (done ++ [id]) s t' := by
  refine ⟨?_, ?_, ?_⟩
  · intro j fresh
    simp only [List.mem_append, List.mem_singleton, not_or] at fresh
    rw [requests_eq, if_neg fresh.2, serves.others j fresh.1]
  · intro j member
    rcases List.mem_append.mp member with old | new
    · obtain ⟨other, other', share, was, is, served⟩ := serves.each j old
      have different : j ≠ id := fun same => unserved (same ▸ old)
      exact ⟨other, other', share, was, by rw [requests_eq, if_neg different, is], served⟩
    · obtain rfl := List.mem_singleton.mp new
      exact ⟨request, request', delta, found, by rw [requests_eq, if_pos rfl], outcome⟩
  · intro j
    obtain ⟨share, was, charges⟩ := serves.tenants j
    by_cases mine : j = request.spec.tenant
    · refine ⟨share + delta, ?_, ?_⟩
      · rw [tenants_eq, if_pos mine, was, Option.map_map]
        refine congrArg (Option.map · s.tenants[j]?) (funext fun tenant => ?_)
        simp [charged, Nat.add_assoc]
      · constructor
        · intro positive
          rcases Nat.eq_zero_or_pos share with none | some
          · exact ⟨outcome.positive_iff.mp (by omega), id, by simp, request, found, mine.symm⟩
          · obtain ⟨isSuccess, other, member, rest⟩ := charges.mp some
            exact ⟨isSuccess, other, List.mem_append_left _ member, rest⟩
        · rintro ⟨isSuccess, _⟩
          have positive := outcome.positive_iff.mpr isSuccess
          omega
    · refine ⟨share, by rw [tenants_eq, if_neg mine, was], charges.trans (and_congr_right fun _ => ?_)⟩
      constructor
      · rintro ⟨other, member, rest⟩
        exact ⟨other, List.mem_append_left _ member, rest⟩
      · rintro ⟨other, member, its, isIts, tenant⟩
        rcases List.mem_append.mp member with old | new
        · exact ⟨other, old, its, isIts, tenant⟩
        · obtain rfl := List.mem_singleton.mp new
          rw [found] at isIts
          cases isIts
          exact absurd tenant.symm mine

theorem planRow_accounts (accounts : Accounts t cached)
    (config_eq : t'.config = t.config) (profile_eq : t'.profile = t.profile)
    (found : t.requests[id]? = some request) (outcome : Outcome success kind request request' delta)
    (requests_eq : ∀ j : Nat, t'.requests[j]? = if j = id then some request' else t.requests[j]?)
    (tenants_eq : ∀ j : Nat, t'.tenants[j]? =
      if j = request.spec.tenant then t.tenants[j]?.map (charged delta) else t.tenants[j]?) :
    Accounts t' cached := by
  obtain ⟨sound, _⟩ := accounts.sound id request found
  cases success with
  | true =>
    have served : Served kind request request' delta := outcome
    refine accounts.serve config_eq profile_eq found requests_eq tenants_eq served.spec_eq (served.sound sound)
      served.prompt_le served.progress ?_
    rw [served.state_eq]
    cases kind <;> nofun
  | false =>
    obtain ⟨rfl, rfl⟩ := outcome
    exact accounts.serve config_eq profile_eq found requests_eq tenants_eq rfl
      ⟨sound.limit, sound.prompt, sound.generated, nofun, nofun⟩ le_rfl rfl fun _ => rfl

theorem planRows_serves {rows : List (BatchRow × Option BatchCompletion)} (planning : Planning plan done)
    (distinct : (done ++ rows.map (·.1.requestId)).Nodup)
    (serves : Serves success kind done s (commitPlan plan s))
    (ok : planRows counter s success kind rows plan = .ok plan') :
    Serves success kind (done ++ rows.map (·.1.requestId)) s (commitPlan plan' s) ∧
      plan'.decodeBurst = plan.decodeBurst ∧
      ∀ cached, Accounts (commitPlan plan s) cached → Accounts (commitPlan plan' s) cached := by
  induction rows generalizing plan done with
  | nil =>
    cases ok
    rw [List.map_nil, List.append_nil]
    exact ⟨serves, rfl, fun _ accounts => accounts⟩
  | cons pair rest ih =>
    obtain ⟨row, completion⟩ := pair
    obtain ⟨middle, planned, ok⟩ := bind_eq_ok.mp ok
    have unserved : row.requestId ∉ done := by
      intro member
      rw [List.nodup_append] at distinct
      exact distinct.2.2 _ member _ (List.mem_cons_self ..) rfl
    obtain ⟨request, request', delta, found, outcome, planning', burst_eq, requests_eq, tenants_eq⟩ :=
      planRow_serves planning unserved planned
    rw [List.map_cons, List.append_cons] at distinct ⊢
    obtain ⟨serves', burst_eq', accounts'⟩ :=
      ih planning' distinct (serves.snoc unserved found outcome requests_eq tenants_eq) ok
    refine ⟨serves', burst_eq'.trans burst_eq, fun cached accounts => accounts' cached ?_⟩
    exact planRow_accounts accounts rfl rfl ((planning.unserved unserved).trans found) outcome requests_eq tenants_eq

theorem assignCompletions_length {rows : List BatchRow}
    {byRow byRow' : List (Option BatchCompletion)} (ok : assignCompletions rows byRow completions = .ok byRow') :
    byRow'.length = byRow.length := by
  induction completions generalizing byRow with
  | nil =>
    cases ok
    rfl
  | cons completion rest ih =>
    obtain ⟨row, _, ok⟩ := bind_eq_ok.mp ok
    split at ok
    · cases ok
    · rw [ih ok, List.length_set]

end Plan

section Batch

structure Completes (success : Bool) (batch : ScheduledBatch) (s s' : Scheduler) : Prop where
  inflight_eq : s'.inflight = none
  config_eq : s'.config = s.config
  profile_eq : s'.profile = s.profile
  cancellations_eq : s'.cancellations = s.cancellations
  stepId_eq : s'.nextStepId = s.nextStepId
  burst_eq : s'.decodeBurst = if batch.kind = .prefill then 0 else min (s.decodeBurst + 1) (2 ^ 16 - 1)
  serves : Serves success batch.kind (batch.rows.map (·.requestId)) s s'
  accounts : ∀ cached, Accounts s cached → Accounts s' cached

theorem completionPlan_completes {requireExplicit : Bool}
    (ok : completionPlan counter success completions requireExplicit s = .ok plan) :
    ∃ batch, s.inflight = some batch ∧ Completes success batch s (commitPlan plan s) := by
  obtain ⟨batch, inflight, ok⟩ := bind_eq_ok.mp ok
  split at ok
  · cases ok
  next accepted =>
  unfold completionsRefused at accepted
  simp only [not_or] at accepted
  obtain ⟨small, _, _, _, _, distinct⟩ := accepted
  obtain ⟨byRow, assigned, ok⟩ := bind_eq_ok.mp ok
  have slots : byRow.length = maximumBatchRows := by rw [assignCompletions_length assigned, List.length_replicate]
  have ids : (batch.rows.zip byRow).map (·.1.requestId) = batch.rows.map (·.requestId) := by
    rw [show (fun pair : BatchRow × Option BatchCompletion => pair.1.requestId) =
      (fun row : BatchRow => row.requestId) ∘ Prod.fst from rfl, ← List.map_map, List.map_fst_zip (by omega)]
  have distinct := not_not.mp distinct
  obtain ⟨serves, burst_eq, accounts⟩ := planRows_serves (Planning.nil _)
    (by rw [List.nil_append, ids]; exact distinct) (Serves.nil s _) ok
  rw [List.nil_append, ids] at serves
  refine ⟨batch, okOr_eq_ok.mp inflight, rfl, rfl, rfl, rfl, rfl, burst_eq, serves, fun cached start => ?_⟩
  exact accounts cached (start.carry rfl rfl rfl rfl)

theorem completeBatchInternal_ends (counter : Counter) (success : Bool) (completions : List BatchCompletion)
    (requireExplicit : Bool) (s : Scheduler) :
    Action.Ends (completeBatchInternal counter success completions requireExplicit) s
      (fun _ s' => ∃ batch, s.inflight = some batch ∧ Completes success batch s s') (fun _ s' => s' = s) := by
  refine Action.Ends.reads (fun plan ok => ?_) fun _ _ => rfl
  exact completionPlan_completes ok

end Batch

end Glmaxx.Proof.Scheduling
