import Glmaxx.Proof.Scheduling.Order

namespace Glmaxx.Proof.Scheduling
open Std Library Cache Engine Glmaxx.Scheduling Glmaxx.Scheduling.Scheduler

variable {s s' : Scheduler} {counter : Counter} {kind : BatchKind} {sampling : SamplingCollective}
  {rows : List BatchRow} {batch : ScheduledBatch} {entry : GraphEntry} {entries : List GraphEntry}
  {active queryRows : Nat}

section Graphs

def graphModeOf : BatchKind → StepMode
  | .prefill => .prefill
  | .decode => .decode
  | .verify _ => .verify

def graphDepthOf : BatchKind → Nat
  | .prefill | .decode => 0
  | .verify depth => depth

structure TakesBatch (entry : GraphEntry) (kind : BatchKind) (active queryRows : Nat) : Prop where
  mode : entry.key.mode = graphModeOf kind
  depth : entry.key.mtpDepth.toNat = graphDepthOf kind
  sequences : active ≤ entry.maximumActiveSequences.toNat
  rows : queryRows ≤ entry.maximumQueryRows.toNat
  prompt : kind = .prefill → queryRows ≤ entry.maximumPromptTokens.toNat

def graphKey (entry : GraphEntry) : ℕ ×ₗ ℕ ×ₗ ℕ ×ₗ ℕ :=
  toLex (entry.key.sequenceBucket.toNat, toLex (entry.key.verifierRowBucket.toNat,
    toLex (entry.maximumQueryRows.toNat, entry.graphId.toNat)))

structure LeastGraph (entries : List GraphEntry) (kind : BatchKind) (active queryRows : Nat) (entry : GraphEntry) :
    Prop where
  captured : entry ∈ entries
  fits : TakesBatch entry kind active queryRows
  least : ∀ other ∈ entries, TakesBatch other kind active queryRows → graphKey entry ≤ graphKey other

theorem mem_fitting :
    entry ∈ entries.filter (fun entry => decide (entry.key.mode = graphModeOf kind ∧ entry.key.mtpDepth.toNat = graphDepthOf kind ∧
      active ≤ entry.maximumActiveSequences.toNat ∧ queryRows ≤ entry.maximumQueryRows.toNat ∧
      (graphModeOf kind ≠ .prefill ∨ queryRows ≤ entry.maximumPromptTokens.toNat))) ↔
    entry ∈ entries ∧ TakesBatch entry kind active queryRows := by
  rw [List.mem_filter, decide_eq_true_iff]
  have isPrefill : graphModeOf kind = .prefill ↔ kind = .prefill := by cases kind <;> simp [graphModeOf]
  constructor
  · rintro ⟨member, mode, depth, sequences, rows, prompt⟩
    exact ⟨member, mode, depth, sequences, rows, fun is => prompt.resolve_left fun other => other (isPrefill.mpr is)⟩
  · rintro ⟨member, mode, depth, sequences, rows, prompt⟩
    exact ⟨member, mode, depth, sequences, rows, or_iff_not_imp_left.mpr fun is => prompt (isPrefill.mp (not_not.mp is))⟩

theorem bestGraph_eq (kind : BatchKind) : s.bestGraph kind active queryRows =
    (s.profile.entries.filter fun entry => decide (entry.key.mode = graphModeOf kind ∧
      entry.key.mtpDepth.toNat = graphDepthOf kind ∧ active ≤ entry.maximumActiveSequences.toNat ∧
      queryRows ≤ entry.maximumQueryRows.toNat ∧
      (graphModeOf kind ≠ .prefill ∨ queryRows ≤ entry.maximumPromptTokens.toNat))).argmin graphKey := by
  cases kind <;> rfl

theorem bestGraph_least (found : s.bestGraph kind active queryRows = some entry) :
    LeastGraph s.profile.entries kind active queryRows entry := by
  rw [bestGraph_eq] at found
  obtain ⟨member, fits⟩ := mem_fitting.mp (List.argmin_mem found)
  refine ⟨member, fits, fun other captured fits => ?_⟩
  exact List.le_of_mem_argmin (mem_fitting.mpr ⟨captured, fits⟩) found

theorem bestGraph_of_fits (captured : entry ∈ s.profile.entries) (fits : TakesBatch entry kind active queryRows) :
    ∃ graph, s.bestGraph kind active queryRows = some graph := by
  rw [← Option.ne_none_iff_exists', bestGraph_eq, ne_eq, List.argmin_eq_none]
  exact List.ne_nil_of_mem (mem_fitting.mpr ⟨captured, fits⟩)

end Graphs

section Finalize

/-- A batch was finalized: it takes the next step id and the least graph it fits, and nothing else changes. -/
structure Finalized (counter : Counter) (kind : BatchKind) (sampling : SamplingCollective) (rows : List BatchRow)
    (s : Scheduler) (batch : ScheduledBatch) (s' : Scheduler) : Prop where
  nonempty : rows ≠ []
  counted : rows.length < 2 ^ 16
  shaped : queryRowsOf kind rows.length rows = .ok batch.queryRows
  graph : ∃ entry, entry.graphId = batch.graphId ∧ LeastGraph s.profile.entries kind rows.length batch.queryRows entry
  advanced : (counter.add s.nextStepId 1).isSome = true
  stepId_eq : batch.stepId = s.nextStepId
  kind_eq : batch.kind = kind
  rows_eq : batch.rows = rows
  sampling_eq : batch.sampling = sampling
  state_eq : s' = { s with nextStepId := s.nextStepId + 1 }

theorem finalizeBatch_ends (counter : Counter) (kind : BatchKind) (sampling : SamplingCollective)
    (rows : List BatchRow) (s : Scheduler) : Action.Ends (finalizeBatch counter kind sampling rows) s
    (fun batch s' => Finalized counter kind sampling rows s batch s') (fun _ s' => s' = s) := by
  refine Action.Ends.updates (fun batch s' built => ?_) fun _ _ => rfl
  split at built
  · cases built
  next nonempty =>
    obtain ⟨active, counted, built⟩ := bind_eq_ok.mp built
    obtain ⟨queryRows, shaped, built⟩ := bind_eq_ok.mp built
    obtain ⟨graph, captured, built⟩ := bind_eq_ok.mp built
    obtain ⟨next, advanced, built⟩ := bind_eq_ok.mp built
    cases built
    obtain ⟨few, rfl⟩ := narrow_eq_some.mp (okOr_eq_ok.mp counted)
    have advanced := okOr_eq_ok.mp advanced
    refine ⟨nonempty, few, shaped, ⟨graph, rfl, bestGraph_least (okOr_eq_ok.mp captured)⟩, by rw [advanced]; rfl,
      rfl, rfl, rfl, rfl, ?_⟩
    rw [counter.exact advanced]

theorem finalizeBatch_ok (kind : BatchKind) (sampling : SamplingCollective) {next : Nat}
    {graph : GraphEntry} (nonempty : rows ≠ [])
    (counted : narrow 16 rows.length = some active) (shaped : queryRowsOf kind active rows = .ok queryRows)
    (captured : s.bestGraph kind active queryRows = some graph)
    (advanced : counter.add s.nextStepId 1 = some next) :
    ∃ batch s', finalizeBatch counter kind sampling rows s = (.ok batch, s') := by
  refine ⟨⟨s.nextStepId, kind, graph.graphId, rows, queryRows, sampling⟩, { s with nextStepId := next },
    Action.updates_ok ?_⟩
  rw [if_neg nonempty, counted]
  refine bind_eq_ok.mpr ⟨active, rfl, ?_⟩
  refine bind_eq_ok.mpr ⟨queryRows, shaped, ?_⟩
  refine bind_eq_ok.mpr ⟨graph, okOr_eq_ok.mpr captured, ?_⟩
  exact bind_eq_ok.mpr ⟨next, okOr_eq_ok.mpr advanced, rfl⟩

end Finalize

section Prefill
variable {available : Nat} {requests : List Request}

def PromptRow (requests : List Request) (row : BatchRow) : Prop :=
  ∃ request ∈ requests, row.requestId = request.spec.id ∧ row.promptTokens ≠ 0 ∧
    row.promptTokens ≤ request.spec.promptTokens.toNat - request.promptDone

section
variable (available : Nat) (requests : List Request)

theorem fillRows_each : ∀ row ∈ fillRows available requests, PromptRow requests row := by
  induction requests generalizing available with
  | nil => nofun
  | cons request rest ih =>
    intro row member
    unfold fillRows at member
    split at member
    · cases member
    dsimp only at member
    split at member
    next some =>
      rcases List.mem_cons.mp member with rfl | later
      · exact ⟨request, List.mem_cons_self .., rfl, some, Nat.min_le_left ..⟩
      · obtain ⟨other, isOther, rest⟩ := ih _ row later
        exact ⟨other, List.mem_cons_of_mem _ isOther, rest⟩
    next =>
      obtain ⟨other, isOther, rest⟩ := ih _ row member
      exact ⟨other, List.mem_cons_of_mem _ isOther, rest⟩

theorem fillRows_sublist :
    ((fillRows available requests).map (·.requestId)).Sublist (requests.map (·.spec.id)) := by
  induction requests generalizing available with
  | nil => exact List.Sublist.refl _
  | cons request rest ih =>
    unfold fillRows
    split
    · exact List.nil_sublist _
    dsimp only
    split
    · exact (ih _).cons_cons _
    · exact (ih _).cons _

theorem fillRows_sum : ((fillRows available requests).map (·.promptTokens)).sum ≤ available := by
  induction requests generalizing available with
  | nil => exact Nat.zero_le _
  | cons request rest ih =>
    unfold fillRows
    split
    · exact Nat.zero_le _
    dsimp only
    split
    · have bound := ih (available - min (request.spec.promptTokens.toNat - request.promptDone) available)
      have fits := Nat.min_le_right (request.spec.promptTokens.toNat - request.promptDone) available
      rw [List.map_cons, List.sum_cons]
      dsimp only
      omega
    · exact ih available

end

theorem fillRows_cons {request : Request} (positive : 0 < available)
    (left : request.promptDone < request.spec.promptTokens.toNat) (rest : List Request) :
    ∃ tokens more, fillRows available (request :: rest) = ⟨request.spec.id, tokens⟩ :: more := by
  refine ⟨min (request.spec.promptTokens.toNat - request.promptDone) available,
    fillRows (available - min (request.spec.promptTokens.toNat - request.promptDone) available) rest, ?_⟩
  rw [fillRows, if_neg (by omega)]
  exact if_pos (by omega)

theorem sumPromptTokens_ok (rows : List BatchRow) (fits : (rows.map (·.promptTokens)).sum < 2 ^ 32) :
    sumPromptTokens rows = .ok (rows.map (·.promptTokens)).sum := by
  have general : ∀ sum, sum + (rows.map (·.promptTokens)).sum < 2 ^ 32 →
      rows.foldlM (fun sum row => okOr (checkedAdd 32 sum row.promptTokens) SchedulerError.overflow) sum =
        .ok (sum + (rows.map (·.promptTokens)).sum) := by
    clear fits
    induction rows with
    | nil => intro sum _; rfl
    | cons row rest ih =>
      intro sum fits
      rw [List.map_cons, List.sum_cons] at fits ⊢
      have added : checkedAdd 32 sum row.promptTokens = some (sum + row.promptTokens) := if_pos (by omega)
      rw [List.foldlM_cons, added]
      refine (ih (sum + row.promptTokens) (by omega)).trans ?_
      rw [Nat.add_assoc]
  have := general 0 (by omega)
  rwa [Nat.zero_add] at this

end Prefill

end Glmaxx.Proof.Scheduling
