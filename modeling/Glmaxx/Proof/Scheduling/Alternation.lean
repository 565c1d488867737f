import Glmaxx.Proof.Scheduling.Progress

namespace Glmaxx.Proof.Scheduling
open Std Library Cache Engine Glmaxx.Scheduling Glmaxx.Scheduling.Scheduler

variable {s s' t : Scheduler} {counter : Counter} {entry : SchedulerCall} {calls : List SchedulerCall}
  {batch : ScheduledBatch} {P : Scheduler → Prop}

def emitted (counter : Counter) : Scheduler → List SchedulerCall → List ScheduledBatch
  | _, [] => []
  | s, entry :: rest =>
    match entry, (nextBatch counter s).1 with
    | .nextBatch, .ok (some batch) => batch :: emitted counter (call counter entry s).2 rest
    | _, _ => emitted counter (call counter entry s).2 rest

def completed (counter : Counter) : Scheduler → List SchedulerCall → List BatchKind
  | _, [] => []
  | s, entry :: rest =>
    match completion entry, (call counter entry s).1, s.inflight with
    | some _, .ok (), some batch => batch.kind :: completed counter (call counter entry s).2 rest
    | _, _, _ => completed counter (call counter entry s).2 rest

/-- `P` holds at every call of `next_batch` that finds nothing in flight. -/
def AtNextBatch (counter : Counter) (P : Scheduler → Prop) : Scheduler → List SchedulerCall → Prop
  | _, [] => True
  | s, entry :: rest =>
    (entry = .nextBatch → s.inflight = none → P s) ∧ AtNextBatch counter P (call counter entry s).2 rest

section Awaiting
variable {state : RequestState}

/-- Some request is in `state`, and its cancellation is not due. -/
def Awaits (state : RequestState) (s : Scheduler) : Prop :=
  ∃ id, s.requestState id = some state ∧ id ∉ s.cancellations

/-- `next_batch` finds the requests that await it: it applies the cancellations that are due before it looks. -/
theorem hasRequest_applyCancellations (live : state.isTerminal = false) :
    (applyCancellations s).hasRequest state = true ↔ Awaits state s := by
  rw [hasRequest_iff]
  constructor
  · rintro ⟨id, request, found, isState⟩
    rw [getElem?_applyCancellations] at found
    obtain ⟨old, was, rfl⟩ := Option.map_eq_some_iff.mp found
    split at isState
    · have ended := cancelRequest_isTerminal old
      rw [isState, live] at ended
      cases ended
    next kept => exact ⟨id, Option.map_eq_some_iff.mpr ⟨old, was, isState⟩, kept⟩
  · rintro ⟨id, isState, kept⟩
    obtain ⟨request, found, isState⟩ := Option.map_eq_some_iff.mp isState
    refine ⟨id, request, ?_, isState⟩
    rw [getElem?_applyCancellations, found]
    exact congrArg some (if_neg kept)

theorem runnable_applyCancellations :
    Runnable (applyCancellations s) ↔ Awaits .waitingPrefill s ∨ Awaits .decoding s :=
  or_congr (hasRequest_applyCancellations rfl) (hasRequest_applyCancellations rfl)

end Awaiting

section Turns

inductive Turn (entry : SchedulerCall) (s s' : Scheduler) : Option BatchKind → Prop where
  | steady (inflight_eq : s'.inflight = s.inflight) (burst_eq : s'.decodeBurst = s.decodeBurst) : Turn entry s s' none
  | launch {batch : ScheduledBatch} (isNext : entry = .nextBatch) (idle : s.inflight = none)
      (chosen : Chosen (applyCancellations s) batch) (isLaunched : s' = launched (applyCancellations s) batch) :
      Turn entry s s' none
  | complete {batch : ScheduledBatch} (inflight : s.inflight = some batch) (idle : s'.inflight = none)
      (burst_eq : s'.decodeBurst = if batch.kind = .prefill then 0 else min (s.decodeBurst + 1) (2 ^ 16 - 1)) :
      Turn entry s s' (some batch.kind)

theorem call_turn (counter : Counter) (entry : SchedulerCall) (s : Scheduler) :
    ∃ kind, Turn entry s (call counter entry s).2 kind ∧
      ∀ rest, completed counter s (entry :: rest) = kind.toList ++ completed counter (call counter entry s).2 rest := by
  have ends := call_ends counter entry s
  unfold Action.Ends at ends
  split at ends
  next s' ran =>
    have quiet (none : completion entry = none) (rest : List SchedulerCall) :
        completed counter s (entry :: rest) = completed counter (call counter entry s).2 rest := by
      rw [completed, none]
    rw [ran] at quiet ⊢
    cases ends with
    | admits isAdmission admits =>
      obtain ⟨_, _, _, _, rfl⟩ := admits
      exact ⟨none, .steady rfl rfl, quiet (by cases entry <;> first | rfl | cases isAdmission)⟩
    | cancels _ _ | ignores => exact ⟨none, .steady rfl rfl, quiet rfl⟩
    | settles _ isBoundary =>
      exact ⟨none, .steady rfl rfl, quiet (by rcases isBoundary with rfl | ⟨rfl, _⟩ <;> rfl)⟩
    | launches idle chosen => exact ⟨none, .launch rfl idle chosen rfl, quiet rfl⟩
    | completes isCompletion inflight completes =>
      refine ⟨_, .complete inflight completes.inflight_eq completes.burst_eq, fun rest => ?_⟩
      rw [completed, isCompletion, ran, inflight]
      rfl
  next error s' ran =>
    have quiet (rest : List SchedulerCall) :
        completed counter s (entry :: rest) = completed counter (call counter entry s).2 rest := by
      rw [completed, ran]
      split
      next impossible _ => cases impossible
      next => rfl
    rw [ran] at quiet ⊢
    rcases ends with rfl | ⟨_, idle, rfl, _⟩
    · exact ⟨none, .steady rfl rfl, quiet⟩
    · exact ⟨none, .steady rfl rfl, quiet⟩

theorem call_config (counter : Counter) (entry : SchedulerCall) (s : Scheduler) :
    (call counter entry s).2.config = s.config := by
  have ends := call_ends counter entry s
  unfold Action.Ends at ends
  split at ends
  next ran =>
    rw [ran]
    cases ends with
    | admits _ admits => rw [admits.state_eq]
    | cancels _ _ => rfl
    | ignores => rfl
    | settles _ _ => rfl
    | launches _ _ => rfl
    | completes _ _ completes => exact completes.config_eq
  next ran =>
    rw [ran]
    rcases ends with rfl | ⟨_, _, rfl, _⟩ <;> rfl

theorem completed_split {before after : List BatchKind} (stretch : AtNextBatch counter P s calls)
    (split : completed counter s calls = before ++ after) :
    ∃ middle rest, middle.config = s.config ∧ AtNextBatch counter P middle rest ∧
      completed counter middle rest = after := by
  induction calls generalizing s before with
  | nil =>
    obtain ⟨rfl, rfl⟩ := List.append_eq_nil_iff.mp split.symm
    exact ⟨s, [], rfl, trivial, rfl⟩
  | cons entry calls ih =>
    cases before with
    | nil => exact ⟨s, entry :: calls, rfl, stretch, split⟩
    | cons first before =>
      obtain ⟨kind, _, counted⟩ := call_turn counter entry s
      rw [counted] at split
      have tail : ∃ earlier, completed counter (call counter entry s).2 calls = earlier ++ after := by
        cases kind with
        | none => exact ⟨first :: before, split⟩
        | some kind => exact ⟨before, (List.cons.inj split).2⟩
      obtain ⟨earlier, split⟩ := tail
      obtain ⟨middle, rest, config_eq, found⟩ := ih stretch.2 split
      exact ⟨middle, rest, config_eq.trans (call_config ..), found⟩

end Turns

section Prefill

def allowance (s : Scheduler) : Nat :=
  match s.inflight with
  | none => s.config.maximumDecodeBurst.toNat - s.decodeBurst
  | some batch =>
    if batch.kind = .prefill then 0 else 1 + (s.config.maximumDecodeBurst.toNat - (s.decodeBurst + 1))

theorem Chosen.kind_iff (chosen : Chosen t batch) : batch.kind = .prefill ↔ t.choosesPrefill = true := by
  have rows := chosen.rows
  split at rows
  next chooses => exact ⟨fun _ => chooses, fun _ => rows.1⟩
  next chooses =>
    obtain ⟨_, depth, _, _, kind_eq, _⟩ := rows
    refine ⟨fun isPrefill => absurd (kind_eq.symm.trans isPrefill) (decodeKind_ne_prefill depth), fun h => absurd h chooses⟩

theorem allowance_le (s : Scheduler) (positive : 0 < s.config.maximumDecodeBurst.toNat) :
    allowance s ≤ s.config.maximumDecodeBurst.toNat := by
  unfold allowance
  split
  · omega
  · split <;> omega

theorem mem_take_of_le {α : Type} {a : α} {m n : Nat} {l : List α} (le : m ≤ n) (member : a ∈ l.take m) :
    a ∈ l.take n := by
  rw [← Nat.min_eq_left le, ← List.take_take] at member
  exact List.mem_of_mem_take member

theorem Turn.allowance_le {kind : Option BatchKind} (turn : Turn entry s s' kind) (config_eq : s'.config = s.config)
    (waiting : entry = .nextBatch → s.inflight = none → Awaits .waitingPrefill s)
    (noPrefill : kind ≠ some .prefill) : allowance s' + kind.toList.length ≤ allowance s := by
  cases turn with
  | steady inflight_eq burst_eq =>
    unfold allowance
    rw [inflight_eq, burst_eq, config_eq]
    exact le_rfl
  | launch isNext idle chosen isLaunched =>
    have waits := (hasRequest_applyCancellations rfl).mpr (waiting isNext idle)
    rw [isLaunched]
    unfold allowance
    rw [idle]
    dsimp only [launched, applyCancellations, Option.toList_none, List.length_nil]
    split
    · exact Nat.zero_le _
    next isDecode =>
      rw [chosen.kind_iff, choosesPrefill, waits] at isDecode
      simp only [Bool.true_and, Bool.or_eq_true, not_or, decide_eq_true_eq] at isDecode
      have below : ¬s.config.maximumDecodeBurst.toNat ≤ s.decodeBurst := isDecode.2
      omega
  | complete inflight idle burst_eq =>
    have isDecode := fun isPrefill => noPrefill (congrArg some isPrefill)
    have width := s.config.maximumDecodeBurst.toNat_lt
    unfold allowance
    rw [inflight, idle]
    dsimp only [Option.toList_some, List.length_singleton]
    rw [if_neg isDecode, burst_eq, if_neg isDecode, config_eq]
    omega

theorem completed_lead (stretch : AtNextBatch counter (Awaits .waitingPrefill) s calls)
    (long : allowance s < (completed counter s calls).length) :
    .prefill ∈ (completed counter s calls).take (allowance s + 1) := by
  induction calls generalizing s with
  | nil => cases long
  | cons entry calls ih =>
    obtain ⟨waiting, stretch⟩ := stretch
    obtain ⟨kind, turn, counted⟩ := call_turn counter entry s
    rw [counted] at long ⊢
    by_cases isPrefill : kind = some .prefill
    · rw [isPrefill]
      exact List.mem_cons_self ..
    · have less := turn.allowance_le (call_config counter entry s) waiting isPrefill
      rw [List.length_append] at long
      have later := ih stretch (by omega)
      refine mem_take_of_le (show kind.toList.length + (allowance (call counter entry s).2 + 1) ≤ allowance s + 1
        by omega) ?_
      rw [List.take_append, List.take_of_length_le (by omega)]
      refine List.mem_append_right _ ?_
      rwa [Nat.add_sub_cancel_left]

end Prefill

section Decode

def Spent (s : Scheduler) : Prop :=
  match s.inflight with
  | none => s.decodeBurst = 0
  | some batch => batch.kind ≠ .prefill

theorem Turn.spent {kind : Option BatchKind} (turn : Turn entry s s' kind)
    (positive : 0 < s.config.maximumDecodeBurst.toNat)
    (decoding : entry = .nextBatch → s.inflight = none → Awaits .decoding s) :
    (kind = some .prefill → ¬Spent s ∧ Spent s') ∧ (kind = none → Spent s → Spent s') := by
  cases turn with
  | steady inflight_eq burst_eq =>
    refine ⟨nofun, fun _ spent => ?_⟩
    unfold Spent at spent ⊢
    rwa [inflight_eq, burst_eq]
  | launch isNext idle chosen isLaunched =>
    refine ⟨nofun, fun _ spent => ?_⟩
    have decodes := (hasRequest_applyCancellations rfl).mpr (decoding isNext idle)
    unfold Spent at spent
    rw [idle] at spent
    rw [isLaunched]
    show _ ≠ _
    rw [ne_eq, chosen.kind_iff, choosesPrefill, decodes]
    have early : ¬(applyCancellations s).config.maximumDecodeBurst.toNat ≤ (applyCancellations s).decodeBurst := by
      show ¬s.config.maximumDecodeBurst.toNat ≤ s.decodeBurst
      dsimp only at spent
      omega
    simp [early]
  | complete inflight idle burst_eq =>
    refine ⟨fun same => ?_, nofun⟩
    have isPrefill := Option.some.inj same
    unfold Spent
    rw [inflight, idle]
    exact ⟨fun spent => spent isPrefill, by rw [burst_eq, if_pos isPrefill]⟩

theorem completed_apart (positive : 0 < s.config.maximumDecodeBurst.toNat)
    (stretch : AtNextBatch counter (Awaits .decoding) s calls) :
    (completed counter s calls).IsChain (fun first second => ¬(first = .prefill ∧ second = .prefill)) ∧
      (Spent s → (completed counter s calls).head? ≠ some .prefill) := by
  induction calls generalizing s with
  | nil => exact ⟨List.IsChain.nil, nofun⟩
  | cons entry calls ih =>
    obtain ⟨decoding, stretch⟩ := stretch
    obtain ⟨kind, turn, counted⟩ := call_turn counter entry s
    obtain ⟨chain, head⟩ := ih ((call_config counter entry s) ▸ positive) stretch
    obtain ⟨spends, keeps⟩ := turn.spent positive decoding
    rw [counted]
    cases kind with
    | none => exact ⟨chain, fun spent => head (keeps rfl spent)⟩
    | some kind =>
      refine ⟨List.isChain_cons.mpr ⟨?_, chain⟩, ?_⟩
      · rintro second isSecond ⟨isPrefill, rfl⟩
        exact head (spends (congrArg some isPrefill)).2 isSecond
      · intro spent isPrefill
        exact (spends isPrefill).1 spent

end Decode

section Emission

theorem call_nextBatch (counter : Counter) (s : Scheduler) :
    (call counter .nextBatch s).2 = (nextBatch counter s).2 := by
  cases outcome : nextBatch counter s with
  | mk result s' =>
    cases result with
    | ok chosen => exact congrArg Prod.snd (Action.bind_ok outcome)
    | error e => exact congrArg Prod.snd (Action.bind_error outcome)

theorem emitted_cons (counter : Counter) (s : Scheduler) (entry : SchedulerCall) (rest : List SchedulerCall) :
    emitted counter s (entry :: rest) = match entry, (nextBatch counter s).1 with
      | .nextBatch, .ok (some batch) => batch :: emitted counter (call counter entry s).2 rest
      | _, _ => emitted counter (call counter entry s).2 rest := rfl

theorem call_stepId (counter : Counter) (entry : SchedulerCall) (s : Scheduler) :
    (∀ rest, emitted counter s (entry :: rest) = emitted counter (call counter entry s).2 rest) ∧
        (call counter entry s).2.nextStepId = s.nextStepId ∨
      ∃ batch, (∀ rest, emitted counter s (entry :: rest) = batch :: emitted counter (call counter entry s).2 rest) ∧
        batch.stepId = s.nextStepId ∧ (call counter entry s).2.nextStepId = s.nextStepId + 1 := by
  by_cases isNext : entry = .nextBatch
  · subst isNext
    simp_rw [emitted_cons, call_nextBatch]
    cases inflight : s.inflight with
    | some batch =>
      rw [nextBatch_busy inflight]
      exact .inl ⟨fun _ => rfl, rfl⟩
    | none =>
      have ends := nextBatch_ends counter inflight
      unfold Action.Ends at ends
      split at ends
      next result s' ran =>
        rw [ran]
        cases result with
        | none =>
          obtain ⟨rfl, _⟩ := ends
          exact .inl ⟨fun _ => rfl, rfl⟩
        | some batch =>
          obtain ⟨chosen, rfl⟩ := ends
          exact .inr ⟨batch, fun _ => rfl, chosen.stepId_eq, rfl⟩
      next ran =>
        obtain ⟨rfl, _⟩ := ends
        rw [ran]
        exact .inl ⟨fun _ => rfl, rfl⟩
  · refine .inl ⟨fun rest => ?_, ?_⟩
    · rw [emitted_cons]
      split
      · exact absurd rfl isNext
      · rfl
    · have ends := call_ends counter entry s
      unfold Action.Ends at ends
      split at ends
      next ran =>
        rw [ran]
        cases ends with
        | admits _ admits => rw [admits.state_eq]
        | cancels _ _ | ignores | settles _ _ => rfl
        | launches _ _ => exact absurd rfl isNext
        | completes _ _ completes => exact completes.stepId_eq
      next ran =>
        rw [ran]
        rcases ends with rfl | ⟨isNext', _⟩
        · rfl
        · exact absurd isNext' isNext

theorem emitted_stepIds (counter : Counter) (s : Scheduler) (calls : List SchedulerCall) :
    (emitted counter s calls).map (·.stepId) = List.range' s.nextStepId (emitted counter s calls).length := by
  induction calls generalizing s with
  | nil => rfl
  | cons entry calls ih =>
    rcases call_stepId counter entry s with ⟨same, next_eq⟩ | ⟨batch, emits, isNext, next_eq⟩
    · rw [same, ih, next_eq]
    · rw [emits, List.map_cons, ih, next_eq, isNext, List.length_cons, List.range'_succ]

end Emission

section Theorem
variable {sha256 : List UInt8 → Bytes32} {config : SchedulerConfig} {profile : GraphProfile}
  {tenantConfigs : List TenantConfig}

/-- `next_batch` has a batch whenever a request awaits one. As long as one awaits its prompt, a prompt batch comes after
`maximum_decode_burst` others at the latest; as long as one decodes, no two prompt batches come in a row. -/
theorem run_never_wedges (start : Scheduler.new sha256 config profile tenantConfigs = .ok s)
    (calls : List SchedulerCall) :
    ((run .u64 s calls).inflight = none → (run .u64 s calls).nextStepId < 2 ^ 64 - 1 →
      ((nextBatch .u64 (run .u64 s calls)).1 = .ok none ↔
        ¬(Awaits .waitingPrefill (run .u64 s calls) ∨ Awaits .decoding (run .u64 s calls))) ∧
      (Awaits .waitingPrefill (run .u64 s calls) ∨ Awaits .decoding (run .u64 s calls) →
        ∃ batch, (nextBatch .u64 (run .u64 s calls)).1 = .ok (some batch))) ∧
    (emitted .u64 s calls).map (·.stepId) = List.range' 1 (emitted .u64 s calls).length ∧
    ∀ stretch,
      (AtNextBatch .u64 (Awaits .waitingPrefill) (run .u64 s calls) stretch →
        ∀ before window after, completed .u64 (run .u64 s calls) stretch = before ++ (window ++ after) →
          window.length = config.maximumDecodeBurst.toNat + 1 → .prefill ∈ window) ∧
      (AtNextBatch .u64 (Awaits .decoding) (run .u64 s calls) stretch →
        (completed .u64 (run .u64 s calls) stretch).IsChain
          fun first second => ¬(first = .prefill ∧ second = .prefill)) := by
  obtain ⟨sound, config_eq, stepId_eq, _⟩ := new_sound start
  have reached := sound.run .u64 calls
  have sameConfig : (run .u64 s calls).config = config :=
    (sound.run_evolves .u64 calls).config_eq.trans config_eq
  have positive := reached.accounts.configured.burst_pos
  rw [← runnable_applyCancellations]
  refine ⟨fun idle room => ?_, ?_, fun stretch => ⟨?_, ?_⟩⟩
  · have served (runnable : Runnable (applyCancellations (run .u64 s calls))) :
        ∃ batch, (nextBatch .u64 (run .u64 s calls)).1 = .ok (some batch) := by
      have advanced : Counter.u64.add (run .u64 s calls).nextStepId 1 = _ := if_pos (by omega)
      obtain ⟨batch, ran⟩ := nextBatch_ok reached.accounts idle advanced runnable
      exact ⟨batch, by rw [ran]⟩
    refine ⟨⟨fun none runnable => ?_, fun stuck => by rw [nextBatch_none idle stuck]⟩, served⟩
    obtain ⟨batch, ran⟩ := served runnable
    cases none.symm.trans ran
  · rw [emitted_stepIds, stepId_eq]
  · intro waiting before window after split size
    obtain ⟨middle, rest, middle_eq, waiting, split⟩ := completed_split waiting split
    have few := allowance_le middle (by rw [middle_eq]; exact positive)
    rw [middle_eq, sameConfig] at few
    have lead := completed_lead waiting (by rw [split, List.length_append]; omega)
    have early := mem_take_of_le (show allowance middle + 1 ≤ window.length by omega) lead
    rwa [split, List.take_left] at early
  · exact fun decoding => (completed_apart positive decoding).1

/-- One request decodes and one waits: the third batch at the latest is a prompt batch. -/
theorem run_never_wedges_mixed : (∃ batch, (nextBatch .u64 (run .u64 sampleScheduler
      [.admitWithPrefix ⟨1, 1, 64, 9, 0, .greedy⟩ 64, .admitRequest ⟨2, 2, 100, 5, 0, .greedy⟩])).1 = .ok (some batch)) ∧
    .prefill ∈ completed .u64 (run .u64 sampleScheduler
      [.admitWithPrefix ⟨1, 1, 64, 9, 0, .greedy⟩ 64, .admitRequest ⟨2, 2, 100, 5, 0, .greedy⟩])
      [.nextBatch, .completeBatch true, .nextBatch, .completeBatch true, .nextBatch, .completeBatch true] := by
  obtain ⟨progress, _, stretches⟩ := run_never_wedges new_sampleScheduler
    [.admitWithPrefix ⟨1, 1, 64, 9, 0, .greedy⟩ 64, .admitRequest ⟨2, 2, 100, 5, 0, .greedy⟩]
  refine ⟨(progress (by rfl) (by decide)).2 (.inl ⟨2, by rfl, by decide⟩), ?_⟩
  refine (stretches _).1 ?_ [] _ [] (by rw [List.append_nil, List.nil_append]) (by rfl)
  refine ⟨?_, nofun, ?_, nofun, ?_, nofun, trivial⟩ <;> exact fun _ _ => ⟨2, by rfl, by decide⟩

/-- A request is admitted and cancelled before each batch. -/
def withdrawnRounds (admission : Nat → SchedulerCall) (ids : List Nat) : List SchedulerCall :=
  ids.flatMap fun id => [admission id, .cancel id, .nextBatch, .completeBatch true]

/-- A request whose cancellation is due is still waiting, or decoding, when `next_batch` is called, but it counts for
nothing: with such a one at every call, three batches pass without a prompt, or two prompt batches come in a row. -/
theorem withdrawn_requests_not_served :
    Scheduler.new (fun _ => Bytes32.zero) ⟨4, 32, 2⟩ sampleProfile [⟨1, 1, 8⟩, ⟨2, 1, 8⟩] = .ok sampleScheduler ∧
    (let s := run .u64 sampleScheduler [.admitWithPrefix ⟨1, 1, 64, 9, 0, .greedy⟩ 64]
      let stretch := withdrawnRounds (fun id => .admitRequest ⟨id, 2, 100, 5, 0, .greedy⟩) [2, 3, 4]
      AtNextBatch .u64 (fun s => ∃ id, s.requestState id = some .waitingPrefill) s stretch ∧
        completed .u64 s stretch = [.decode, .decode, .decode]) ∧
    (let s := run .u64 sampleScheduler [.admitRequest ⟨1, 1, 100, 5, 0, .greedy⟩]
      let stretch := withdrawnRounds (fun id => .admitWithPrefix ⟨id, 2, 64, 9, 0, .greedy⟩ 64) [2, 3]
      AtNextBatch .u64 (fun s => ∃ id, s.requestState id = some .decoding) s stretch ∧
        completed .u64 s stretch = [.prefill, .prefill]) := by
  refine ⟨rfl, ⟨?_, by rfl⟩, ?_, by rfl⟩
  · exact ⟨nofun, nofun, fun _ _ => ⟨2, by rfl⟩, nofun, nofun, nofun, fun _ _ => ⟨3, by rfl⟩, nofun,
      nofun, nofun, fun _ _ => ⟨4, by rfl⟩, nofun, trivial⟩
  · exact ⟨nofun, nofun, fun _ _ => ⟨2, by rfl⟩, nofun, nofun, nofun, fun _ _ => ⟨3, by rfl⟩, nofun, trivial⟩

end Theorem

end Glmaxx.Proof.Scheduling
