import Glmaxx.Proof.Scheduling.Alternation

namespace Glmaxx.Proof.Scheduling
open Std Filter Library Cache Engine Glmaxx.Scheduling Glmaxx.Scheduling.Scheduler

def trace (counter : Counter) (s : Scheduler) (calls : Nat → SchedulerCall) : Nat → Scheduler
  | 0 => s
  | n + 1 => (call counter (calls n) (trace counter s calls n)).2

def Accepted (counter : Counter) (s : Scheduler) (calls : Nat → SchedulerCall) (n : Nat) : Prop :=
  (call counter (calls n) (trace counter s calls n)).1 = .ok ()

/-- Batches are asked for and completed, with success, and request ids grow. -/
structure FairRun (counter : Counter) (s : Scheduler) (calls : Nat → SchedulerCall) : Prop where
  asks : ∀ n, (trace counter s calls n).inflight = none → ∃ m ≥ n, calls m = .nextBatch
  completes : ∀ n batch, (trace counter s calls n).inflight = some batch →
    ∃ m ≥ n, completion (calls m) = some true ∧ Accepted counter s calls m
  succeeds : ∀ n, completion (calls n) = some false → ¬Accepted counter s calls n
  increasing : ∀ m n spec tokens spec' tokens', m < n → admission (calls m) = some (spec, tokens) →
    Accepted counter s calls m → admission (calls n) = some (spec', tokens') → Accepted counter s calls n →
    spec.id < spec'.id

def NoStarvation (counter : Counter) (s : Scheduler) (calls : Nat → SchedulerCall) : Prop :=
  ∀ (n id : Nat), (trace counter s calls n).requestState id ≠ none → ∃ m ≥ n,
    (trace counter s calls m).requestState id = some .finished ∨
      (trace counter s calls m).requestState id = some .cancelled

def Live (s : Scheduler) (id : Nat) : Prop :=
  ∃ request, s.requests[id]? = some request ∧ request.state.isTerminal = false

def PassesOver (s : Scheduler) (batch : ScheduledBatch) (id : Nat) : Prop :=
  ∃ request, s.requests[id]? = some request ∧ request.state.isTerminal = false ∧
    (∀ (other : Nat) (older : Request), other < id → s.requests[other]? = some older →
      older.spec.tenant = request.spec.tenant → older.state.isTerminal = true) ∧
    id ∉ batch.rows.map (·.requestId) ∧
    ∃ row ∈ batch.rows, ∃ younger, s.requests[row.requestId]? = some younger ∧
      younger.spec.tenant = request.spec.tenant

def PassedOver (counter : Counter) (s : Scheduler) (calls : Nat → SchedulerCall) (n id : Nat) : Prop :=
  ∃ batch, (trace counter s calls n).inflight = some batch ∧ completion (calls n) ≠ none ∧
    Accepted counter s calls n ∧ PassesOver (trace counter s calls n) batch id

variable {s : Scheduler} {counter : Counter} {calls : Nat → SchedulerCall} {id : Nat} {request : Request}

section Trace

section
variable (sound : Sound s fun _ => 0) (counter : Counter) (calls : Nat → SchedulerCall)
include sound

theorem trace_sound (n : Nat) : ∃ cached, Sound (trace counter s calls n) cached := by
  induction n with
  | zero => exact ⟨_, sound⟩
  | succ n ih =>
    obtain ⟨cached, before⟩ := ih
    exact ⟨_, before.call counter (calls n)⟩

theorem trace_step_evolves (n : Nat) : Evolves (trace counter s calls n) (trace counter s calls (n + 1)) := by
  obtain ⟨cached, before⟩ := trace_sound sound counter calls n
  exact before.call_evolves counter (calls n)

theorem trace_evolves {m n : Nat} (later : m ≤ n) :
    Evolves (trace counter s calls m) (trace counter s calls n) := by
  induction n, later using Nat.le_induction with
  | base => exact Evolves.refl _
  | succ n later ih => exact ih.trans (trace_step_evolves sound counter calls n)

end

theorem trace_cases (counter : Counter) (s : Scheduler) (calls : Nat → SchedulerCall) (n : Nat) :
    (Accepted counter s calls n ∧ Accepts (calls n) (trace counter s calls n) (trace counter s calls (n + 1))) ∨
      ¬Accepted counter s calls n ∧ Refuses (calls n) (trace counter s calls n) (trace counter s calls (n + 1)) := by
  have ends := call_ends counter (calls n) (trace counter s calls n)
  unfold Action.Ends at ends
  have next : trace counter s calls (n + 1) = (call counter (calls n) (trace counter s calls n)).2 := rfl
  rw [next]
  unfold Accepted
  split at ends
  next ran =>
    rw [ran]
    exact .inl ⟨rfl, ends⟩
  next ran =>
    rw [ran]
    exact .inr ⟨nofun, ends⟩

theorem admission_of_new {n : Nat} (absent : (trace counter s calls n).requests[id]? = none)
    (found : (trace counter s calls (n + 1)).requests[id]? = some request) :
    ∃ spec tokens, admission (calls n) = some (spec, tokens) ∧ Accepted counter s calls n ∧ spec.id = id := by
  have cancelled (s' : Scheduler) (same : s'.requests = (applyCancellations (trace counter s calls n)).requests) :
      s'.requests[id]? = none := by
    rw [same, getElem?_applyCancellations, absent]
    rfl
  rcases trace_cases counter s calls n with ⟨accepted, accepts⟩ | ⟨_, refuses⟩
  · generalize trace counter s calls (n + 1) = s' at accepts found
    generalize trace counter s calls n = t at accepts absent cancelled
    generalize isEntry : calls n = entry at accepts
    cases accepts with
    | admits isAdmission admits =>
      obtain ⟨_, _, _, _, rfl⟩ := admits
      rw [getElem?_insert_ite] at found
      split at found
      next here => exact ⟨_, _, isAdmission, accepted, here.symm⟩
      next =>
        rw [absent] at found
        cases found
    | cancels _ _ | ignores => exact absurd (absent.symm.trans found) nofun
    | settles _ _ | launches _ _ => exact absurd ((cancelled _ rfl).symm.trans found) nofun
    | completes _ _ completes =>
      have unserved : id ∉ _ := fun listed => by
        obtain ⟨_, _, _, was, _⟩ := completes.serves.each id listed
        exact absurd (absent.symm.trans was) nofun
      rw [completes.serves.others id unserved, absent] at found
      cases found
  · rcases refuses with same | ⟨_, _, same, _⟩
    · rw [same, absent] at found
      cases found
    · rw [same] at found
      exact absurd ((cancelled _ rfl).symm.trans found) nofun

theorem admission_of_present (empty : ∀ id : Nat, s.requests[id]? = none) {n : Nat}
    (found : (trace counter s calls n).requests[id]? = some request) :
    ∃ m < n, ∃ spec tokens, admission (calls m) = some (spec, tokens) ∧ Accepted counter s calls m ∧ spec.id = id := by
  induction n generalizing request with
  | zero => exact absurd ((empty id).symm.trans found) nofun
  | succ n ih =>
    cases before : (trace counter s calls n).requests[id]? with
    | none =>
      obtain ⟨spec, tokens, admitted⟩ := admission_of_new before found
      exact ⟨n, by omega, spec, tokens, admitted⟩
    | some old =>
      obtain ⟨m, earlier, admitted⟩ := ih before
      exact ⟨m, by omega, admitted⟩

theorem applyCancellations_not_failed {t : Scheduler}
    (fine : ∀ (id : Nat) (request : Request), t.requests[id]? = some request → request.state ≠ .failed)
    (id : Nat) (request : Request) (found : (applyCancellations t).requests[id]? = some request) :
    request.state ≠ .failed := by
  obtain ⟨old, was, rfl | rfl⟩ := applyCancellations_cases found
  · exact fine id request was
  · rcases cancelRequest_cases old with same | ⟨_, _, same⟩
    · rw [same]
      exact fine id old was
    · rw [same]
      nofun

theorem never_failed (empty : ∀ id : Nat, s.requests[id]? = none) (fair : FairRun counter s calls) (n : Nat) :
    ∀ (id : Nat) (request : Request), (trace counter s calls n).requests[id]? = some request →
      request.state ≠ .failed := by
  induction n with
  | zero => exact fun id request found => absurd ((empty id).symm.trans found) nofun
  | succ n ih =>
    intro id request found
    rcases trace_cases counter s calls n with ⟨accepted, accepts⟩ | ⟨_, refuses⟩
    · have successful := fair.succeeds n
      generalize trace counter s calls (n + 1) = s' at accepts found
      generalize trace counter s calls n = t at accepts ih
      generalize calls n = entry at accepts successful
      cases accepts with
      | admits _ admits =>
        obtain ⟨_, _, _, _, rfl⟩ := admits
        rw [ExtTreeMap.getElem?_insert] at found
        split at found
        · cases found
          unfold fresh
          dsimp only
          split <;> nofun
        · exact ih id request found
      | cancels _ _ | ignores => exact ih id request found
      | settles _ _ | launches _ _ => exact applyCancellations_not_failed ih id request found
      | completes isCompletion inflight completes =>
        rename_i success batch
        cases success with
        | false => exact absurd accepted (successful isCompletion)
        | true =>
          by_cases listed : id ∈ batch.rows.map (·.requestId)
          · obtain ⟨_, request', _, _, is, served⟩ := completes.serves.each id listed
            rw [found] at is
            cases is
            exact (Served.alive served).2
          · rw [completes.serves.others id listed] at found
            exact ih id request found
    · rcases refuses with same | ⟨_, _, same, _⟩
      · exact ih id request (same ▸ found)
      · rw [same] at found
        exact applyCancellations_not_failed ih id request found

end Trace

section Oldest

theorem eventually_not_live (sound : Sound s fun _ => 0) (empty : ∀ id : Nat, s.requests[id]? = none)
    (fair : FairRun counter s calls) {oldest start : Nat} (older : id < oldest)
    (present : (trace counter s calls start).requests[oldest]? = some request)
    (leaves : ∃ m ≥ start, ¬Live (trace counter s calls m) id) :
    ∀ᶠ n in atTop, ¬Live (trace counter s calls n) id := by
  obtain ⟨m, late, gone⟩ := leaves
  obtain ⟨admittedAt, early, spec, tokens, isAdmission, accepted, isOldest⟩ := admission_of_present empty present
  refine eventually_atTop.mpr ⟨m, fun n later => ?_⟩
  induction n, later using Nat.le_induction with
  | base => exact gone
  | succ n later ih =>
    rintro ⟨request', found', live'⟩
    cases before : (trace counter s calls n).requests[id]? with
    | none =>
      obtain ⟨spec', tokens', isAdmission', accepted', isId⟩ := admission_of_new before found'
      have grows := fair.increasing admittedAt n _ _ _ _ (by omega) isAdmission accepted isAdmission' accepted'
      omega
    | some old =>
      have ended : old.state.isTerminal = true := by
        by_contra live
        exact ih ⟨old, before, by simpa using live⟩
      obtain ⟨same, isSame, kept⟩ := (trace_step_evolves sound counter calls n).requests id old before
      rw [found'] at isSame
      cases isSame
      rw [kept.ended ended, ended] at live'
      cases live'

section
variable (empty : ∀ id : Nat, s.requests[id]? = none) (sound : Sound s fun _ => 0)
  (fair : FairRun counter s calls) (starves : ¬NoStarvation counter s calls)
include empty sound fair starves

theorem live_of_starving : ∃ id start, ∀ m ≥ start, Live (trace counter s calls m) id := by
  unfold NoStarvation at starves
  push Not at starves
  obtain ⟨start, id, present, never⟩ := starves
  refine ⟨id, start, fun m later => ?_⟩
  obtain ⟨old, found⟩ : ∃ old, (trace counter s calls start).requests[id]? = some old := by
    cases found : (trace counter s calls start).requests[id]? with
    | none => simp [requestState, found] at present
    | some old => exact ⟨old, rfl⟩
  obtain ⟨request, found', _⟩ := (trace_evolves sound counter calls later).requests id old found
  have notFailed := never_failed empty fair m id request found'
  have neither := never m later
  unfold requestState at neither
  rw [found'] at neither
  refine ⟨request, found', ?_⟩
  cases isState : request.state with
  | waitingPrefill => rfl
  | decoding => rfl
  | finished => exact absurd (congrArg some isState) neither.1
  | cancelled => exact absurd (congrArg some isState) neither.2
  | failed => exact absurd isState notFailed

theorem oldest_starves : ∃ oldest, ∀ᶠ n in atTop, Live (trace counter s calls n) oldest ∧
      ∀ id < oldest, ¬Live (trace counter s calls n) id := by
  classical
  have starving := live_of_starving empty sound fair starves
  have least := Nat.find_spec starving
  have minimal := fun id => Nat.find_min (m := id) starving
  generalize Nat.find starving = oldest at least minimal
  obtain ⟨start, always⟩ := least
  obtain ⟨request, present, _⟩ := always start le_rfl
  have olderLeave : ∀ id ∈ Finset.range oldest, ∀ᶠ n in atTop, ¬Live (trace counter s calls n) id := by
    intro id older
    have older := Finset.mem_range.mp older
    refine eventually_not_live sound empty fair older present ?_
    have leaves := minimal id older
    push Not at leaves
    exact leaves start
  refine ⟨oldest, ?_⟩
  filter_upwards [eventually_ge_atTop start, (eventually_all_finset _).mpr olderLeave] with n late gone
  exact ⟨always n late, fun id older => gone id (Finset.mem_range.mpr older)⟩

end

end Oldest

section Completions

structure CompletesAt (counter : Counter) (s : Scheduler) (calls : Nat → SchedulerCall) (n : Nat)
    (batch : ScheduledBatch) : Prop where
  isCompletion : completion (calls n) = some true
  accepted : Accepted counter s calls n
  inflight : (trace counter s calls n).inflight = some batch
  completes : Completes true batch (trace counter s calls n) (trace counter s calls (n + 1))

/-- A step that completes nothing charges no tenant and moves no request on. -/
structure Uncharged (s s' : Scheduler) : Prop where
  tenants_eq : s'.tenants = s.tenants
  requests : ∀ (id : Nat) (request : Request), s.requests[id]? = some request →
    s'.requests[id]? = some request ∨ s'.requests[id]? = some (cancelRequest request)
  inflight : ∀ batch, s.inflight = some batch → s'.inflight = some batch

theorem applyCancellations_uncharged (t : Scheduler) : Uncharged t (applyCancellations t) := by
  refine ⟨rfl, fun id request found => ?_, fun _ inflight => inflight⟩
  rw [getElem?_applyCancellations, found]
  dsimp only [Option.map_some]
  split
  · exact .inr rfl
  · exact .inl rfl

section
variable (fair : FairRun counter s calls)
include fair

theorem fair_step (n : Nat) : (∃ batch, CompletesAt counter s calls n batch) ∨
      Uncharged (trace counter s calls n) (trace counter s calls (n + 1)) := by
  rcases trace_cases counter s calls n with ⟨accepted, accepts⟩ | ⟨_, refuses⟩
  · have successful := fair.succeeds n
    generalize after : trace counter s calls (n + 1) = s' at accepts
    generalize before : trace counter s calls n = t at accepts
    generalize isEntry : calls n = entry at accepts successful
    cases accepts with
    | admits _ admits =>
      obtain ⟨_, unknown, _, _, rfl⟩ := admits
      refine .inr ⟨rfl, fun id request found => .inl ?_, fun _ inflight => inflight⟩
      exact getElem?_insert_old unknown found
    | cancels _ _ | ignores => exact .inr ⟨rfl, fun _ _ found => .inl found, fun _ inflight => inflight⟩
    | settles _ _ => exact .inr (applyCancellations_uncharged t)
    | launches idle _ =>
      have settled := applyCancellations_uncharged t
      exact .inr ⟨rfl, settled.requests, fun _ inflight => absurd (idle.symm.trans inflight) nofun⟩
    | completes isCompletion inflight completes =>
      rename_i success batch
      cases success with
      | false => exact absurd accepted (successful isCompletion)
      | true =>
        subst before after isEntry
        exact .inl ⟨batch, isCompletion, accepted, inflight, completes⟩
  · rcases refuses with same | ⟨_, _, same, _⟩
    · rw [same]
      exact .inr ⟨rfl, fun _ _ found => .inl found, fun _ inflight => inflight⟩
    · rw [same]
      exact .inr (applyCancellations_uncharged _)

theorem request_rests {n : Nat} (live : Live (trace counter s calls n) id)
    (live' : Live (trace counter s calls (n + 1)) id)
    (noRow : ∀ batch, CompletesAt counter s calls n batch → id ∉ batch.rows.map (·.requestId)) :
    (trace counter s calls (n + 1)).requests[id]? = (trace counter s calls n).requests[id]? := by
  obtain ⟨request, found, _⟩ := live
  rcases fair_step fair n with ⟨batch, at_n⟩ | uncharged
  · exact at_n.completes.serves.others id (noRow batch at_n)
  · rcases uncharged.requests id request found with same | isCancelled
    · exact same.trans found.symm
    · rcases cancelRequest_cases request with same | ⟨_, _, same⟩
      · rw [isCancelled, same, found]
      · obtain ⟨request', found', stays⟩ := live'
        rw [isCancelled, same] at found'
        cases found'
        cases stays

theorem tenant_rests {n tenant : Nat}
    (noRow : ∀ batch, CompletesAt counter s calls n batch → ∀ row ∈ batch.rows, ∀ request,
      (trace counter s calls n).requests[row.requestId]? = some request → request.spec.tenant ≠ tenant) :
    (trace counter s calls (n + 1)).tenants[tenant]? = (trace counter s calls n).tenants[tenant]? := by
  rcases fair_step fair n with ⟨batch, at_n⟩ | uncharged
  · obtain ⟨delta, charges, positive⟩ := at_n.completes.serves.tenants tenant
    have free : delta = 0 := by
      by_contra some
      obtain ⟨_, id, listed, request, found, mine⟩ := positive.mp (Nat.pos_of_ne_zero some)
      obtain ⟨row, member, rfl⟩ := List.mem_map.mp listed
      exact noRow batch at_n row member request found mine
    rw [charges, free, charged_zero]
  · rw [uncharged.tenants_eq]

theorem fair_turn (n : Nat) : (∃ batch, CompletesAt counter s calls n batch ∧
        Turn (calls n) (trace counter s calls n) (trace counter s calls (n + 1)) (some batch.kind)) ∨
      (¬∃ batch, CompletesAt counter s calls n batch) ∧
        Turn (calls n) (trace counter s calls n) (trace counter s calls (n + 1)) none := by
  by_cases completes : ∃ batch, CompletesAt counter s calls n batch
  · obtain ⟨batch, at_n⟩ := completes
    exact .inl ⟨batch, at_n, .complete at_n.inflight at_n.completes.inflight_eq at_n.completes.burst_eq⟩
  · obtain ⟨kind, turn, _⟩ := call_turn counter (calls n) (trace counter s calls n)
    have turn : Turn (calls n) (trace counter s calls n) (trace counter s calls (n + 1)) kind := turn
    have uncharged := (fair_step fair n).resolve_left completes
    refine .inr ⟨completes, ?_⟩
    cases turn with
    | steady inflight_eq burst_eq => exact .steady inflight_eq burst_eq
    | launch isNext idle chosen isLaunched => exact .launch isNext idle chosen isLaunched
    | complete inflight idle burst_eq =>
      rw [uncharged.inflight _ inflight] at idle
      cases idle

end

end Completions

end Glmaxx.Proof.Scheduling
