import Glmaxx.Proof.Scheduling.Batches

namespace Glmaxx.Proof.Scheduling
open Std Library Cache Engine Glmaxx.Scheduling Glmaxx.Scheduling.Scheduler

variable {s t : Scheduler} {counter : Counter} {kind : BatchKind} {sampling : SamplingCollective}
  {rows : List BatchRow} {batch : ScheduledBatch} {eligible : List Request}

section Prefill

theorem bestPrefill_cases {entries : List GraphEntry} {best result : Option (Nat × List BatchRow)}
    (ok : s.bestPrefill eligible entries best = .ok result) :
    result = best ∨ ∃ entry ∈ entries, ∃ queryRows,
      sumPromptTokens (s.prefillRows eligible entry) = .ok queryRows ∧ queryRows ≠ 0 ∧
        result = some (queryRows, s.prefillRows eligible entry) := by
  induction entries generalizing best with
  | nil =>
    cases ok
    exact .inl rfl
  | cons entry rest ih =>
    obtain ⟨queryRows, summed, ok⟩ := bind_eq_ok.mp ok
    rcases ih ok with same | ⟨other, member, found⟩
    · split at same
      next better => exact .inr ⟨entry, List.mem_cons_self .., queryRows, summed, better.1, same⟩
      next => exact .inl same
    · exact .inr ⟨other, List.mem_cons_of_mem _ member, found⟩

theorem bestPrefill_ok {entries : List GraphEntry} (best : Option (Nat × List BatchRow))
    (each : ∀ entry ∈ entries, ∃ queryRows,
      sumPromptTokens (s.prefillRows eligible entry) = .ok queryRows ∧ queryRows ≠ 0) :
    ∃ result, s.bestPrefill eligible entries best = .ok result ∧
      (best.isSome = true ∨ entries ≠ [] → result.isSome = true) := by
  induction entries generalizing best with
  | nil => exact ⟨best, rfl, fun some => some.resolve_right fun h => h rfl⟩
  | cons entry rest ih =>
    obtain ⟨queryRows, summed, positive⟩ := each entry (List.mem_cons_self ..)
    obtain ⟨result, ok, found⟩ := ih
      (if queryRows ≠ 0 ∧ improves queryRows (s.prefillRows eligible entry) best then
        some (queryRows, s.prefillRows eligible entry) else best)
      fun other member => each other (List.mem_cons_of_mem _ member)
    refine ⟨result, bind_eq_ok.mpr ⟨queryRows, summed, ok⟩, fun _ => found (.inl ?_)⟩
    split
    · rfl
    next worse =>
      cases best with
      | none => exact absurd ⟨positive, trivial⟩ worse
      | some best => rfl

theorem choosePrefillRows_cases (ok : s.choosePrefillRows = .ok rows) :
    ∃ entry ∈ s.profile.entries, entry.key.mode = .prefill ∧
      rows = s.prefillRows (s.orderedRequests .waitingPrefill none) entry := by
  obtain ⟨best, ok, found⟩ := bind_eq_ok.mp ok
  rcases bestPrefill_cases ok with none | ⟨entry, member, queryRows, _, _, isBest⟩
  · rw [none] at found
    cases found
  · rw [isBest] at found
    cases found
    obtain ⟨isEntry, mode⟩ := List.mem_filter.mp member
    exact ⟨entry, isEntry, of_decide_eq_true mode, rfl⟩

end Prefill

section Decode

/-- The batch is of the longest row that can be finalized. -/
theorem fitBatch_ends (size : Nat) : Action.Ends (fitBatch counter kind sampling eligible size) s
    (fun batch s' => ∃ n, 0 < n ∧ n ≤ size ∧
      Finalized counter kind sampling (decodeRows (eligible.take n)) s batch s' ∧
      ∀ m, n < m → m ≤ size → ∀ other,
        (finalizeBatch counter kind sampling (decodeRows (eligible.take m)) s).1 ≠ .ok other)
    (fun _ s' => s' = s) := by
  induction size with
  | zero => exact Action.Ends.fail rfl
  | succ size ih =>
    have finalized := finalizeBatch_ends counter kind sampling (decodeRows (eligible.take (size + 1))) s
    unfold Action.Ends at finalized
    split at finalized
    next batch s' ran =>
      refine Action.Ends.step (Action.attempt_ok ran) ?_
      exact Action.Ends.pure ⟨size + 1, Nat.succ_pos _, le_rfl, finalized, fun m more most => absurd more (by omega)⟩
    next e s' ran =>
      subst finalized
      refine Action.Ends.step (Action.attempt_error ran) (ih.mono ?_ fun _ _ same => same)
      rintro batch s' ⟨n, positive, small, finalized, longest⟩
      refine ⟨n, positive, by omega, finalized, fun m more most other => ?_⟩
      rcases Nat.lt_or_eq_of_le most with less | rfl
      · exact longest m more (by omega) other
      · rw [ran]
        nofun

theorem fitBatch_ok (single : ∃ batch s',
      finalizeBatch counter kind sampling (decodeRows (eligible.take 1)) s = (.ok batch, s')) (size : Nat) :
    ∃ batch s', fitBatch counter kind sampling eligible (size + 1) s = (.ok batch, s') := by
  induction size with
  | zero =>
    obtain ⟨batch, s', ran⟩ := single
    exact ⟨batch, s', Action.bind_ok (Action.attempt_ok ran)⟩
  | succ size ih =>
    have finalized := finalizeBatch_ends counter kind sampling (decodeRows (eligible.take (size + 1 + 1))) s
    unfold Action.Ends at finalized
    split at finalized
    next batch s' ran => exact ⟨batch, s', Action.bind_ok (Action.attempt_ok ran)⟩
    next e s' ran =>
      subst finalized
      obtain ⟨batch, s', rest⟩ := ih
      exact ⟨batch, s', (Action.bind_ok (Action.attempt_error ran)).trans rest⟩

theorem chooseDecodeClass_cases {depth : Nat} (ok : s.chooseDecodeClass = .ok (depth, sampling)) :
    ∃ first, (s.orderedRequests .decoding none).head? = some first ∧
      s.effectiveDecodeDepth first = .ok depth ∧ first.spec.sampling = sampling := by
  obtain ⟨first, head, ok⟩ := bind_eq_ok.mp ok
  obtain ⟨actual, isDepth, same⟩ := bind_eq_ok.mp ok
  cases same
  exact ⟨first, okOr_eq_ok.mp head, isDepth, rfl⟩

end Decode

section Chosen

def ChosenPrefill (t : Scheduler) (batch : ScheduledBatch) : Prop :=
  batch.kind = .prefill ∧ ∃ entry ∈ t.profile.entries, entry.key.mode = .prefill ∧
    batch.rows = t.prefillRows (t.orderedRequests .waitingPrefill none) entry

def ChosenDecode (t : Scheduler) (batch : ScheduledBatch) : Prop :=
  ∃ first depth, (t.orderedRequests .decoding none).head? = some first ∧
    t.effectiveDecodeDepth first = .ok depth ∧ batch.kind = decodeKind depth ∧
    batch.sampling = first.spec.sampling ∧ ∃ n, 0 < n ∧ n ≤ t.config.maximumBatchSequences.toNat ∧
      batch.rows = decodeRows ((t.orderedRequests .decoding (some (depth, first.spec.sampling))).take n)

structure Chosen (t : Scheduler) (batch : ScheduledBatch) : Prop where
  nonempty : batch.rows ≠ []
  stepId_eq : batch.stepId = t.nextStepId
  counted : batch.rows.length < 2 ^ 16
  shaped : queryRowsOf batch.kind batch.rows.length batch.rows = .ok batch.queryRows
  graph : ∃ entry, entry.graphId = batch.graphId ∧
    LeastGraph t.profile.entries batch.kind batch.rows.length batch.queryRows entry
  greedy : batch.kind = .prefill → batch.sampling = .greedy
  rows : if t.choosesPrefill then ChosenPrefill t batch else ChosenDecode t batch

def launched (t : Scheduler) (batch : ScheduledBatch) : Scheduler :=
  { t with nextStepId := t.nextStepId + 1, inflight := some batch }

theorem Finalized.chosen {t' : Scheduler} (finalized : Finalized counter kind sampling rows t batch t')
    (greedy : kind = .prefill → sampling = .greedy)
    (isRows : if t.choosesPrefill then ChosenPrefill t batch else ChosenDecode t batch) : Chosen t batch := by
  obtain ⟨nonempty, counted, shaped, graph, _, stepId_eq, rfl, rfl, rfl, _⟩ := finalized
  exact ⟨nonempty, stepId_eq, counted, shaped, graph, greedy, isRows⟩

theorem decodeKind_ne_prefill (depth : Nat) : decodeKind depth ≠ .prefill := by
  unfold decodeKind
  split <;> nofun

theorem buildBatch_ends (counter : Counter) (t : Scheduler) : Action.Ends (buildBatch counter) t
    (fun batch t' => Chosen t batch ∧ t' = { t with nextStepId := t.nextStepId + 1 }) (fun _ t' => t' = t) := by
  have dispatch (chosen : Bool) (is : t.choosesPrefill = chosen) :
      buildBatch counter t = (if chosen then buildPrefillBatch counter else buildDecodeBatch counter) t := by
    unfold buildBatch
    rw [is]
    cases chosen <;> rfl
  unfold Action.Ends
  cases chooses : t.choosesPrefill with
  | true =>
    rw [dispatch true chooses]
    refine Action.Ends.reads (fun rows chosen => ?_) fun _ _ => rfl
    refine (finalizeBatch_ends counter .prefill .greedy rows t).mono ?_ fun _ _ same => same
    rintro batch t' finalized
    refine ⟨finalized.chosen (fun _ => rfl) ?_, finalized.state_eq⟩
    rw [if_pos chooses]
    obtain ⟨entry, member, mode, isRows⟩ := choosePrefillRows_cases chosen
    exact ⟨finalized.kind_eq, entry, member, mode, finalized.rows_eq.trans isRows⟩
  | false =>
    rw [dispatch false chooses]
    refine Action.Ends.reads (fun decodeClass chosen => ?_) fun _ _ => rfl
    obtain ⟨depth, sampling⟩ := decodeClass
    obtain ⟨first, head, isDepth, rfl⟩ := chooseDecodeClass_cases chosen
    refine Action.Ends.step rfl ((fitBatch_ends _).mono ?_ fun _ _ same => same)
    rintro batch t' ⟨n, positive, small, finalized, _⟩
    refine ⟨finalized.chosen (fun is => absurd is (decodeKind_ne_prefill depth)) ?_, finalized.state_eq⟩
    rw [if_neg (by simp [chooses])]
    refine ⟨first, depth, head, isDepth, finalized.kind_eq, finalized.sampling_eq, n, positive, ?_, ?_⟩
    · rw [List.length_take] at small
      omega
    · rw [finalized.rows_eq, List.take_take, min_eq_left]
      rw [List.length_take] at small
      omega

def Runnable (t : Scheduler) : Prop := t.hasRequest .waitingPrefill = true ∨ t.hasRequest .decoding = true

theorem nextBatch_busy (busy : s.inflight = some batch) : nextBatch counter s = (.error .inflight, s) := by
  refine (Action.bind_ok rfl).trans (Action.bind_error ?_)
  exact if_pos (by rw [busy]; rfl)

theorem nextBatch_idle (counter : Counter) (idle : s.inflight = none) : nextBatch counter s =
      (if (applyCancellations s).hasRequest .waitingPrefill = false ∧
          (applyCancellations s).hasRequest .decoding = false then pure none else selectBatch counter)
        (applyCancellations s) := by
  refine (Action.bind_ok rfl).trans ((Action.bind_ok (Action.failIf_neg (by simp [idle]))).trans ?_)
  exact (Action.bind_ok rfl).trans (Action.bind_ok rfl)

theorem nextBatch_ends (counter : Counter) (idle : s.inflight = none) : Action.Ends (nextBatch counter) s
    (fun result s' => match result with
      | none => s' = applyCancellations s ∧ ¬Runnable s'
      | some batch => Chosen (applyCancellations s) batch ∧ s' = launched (applyCancellations s) batch)
    (fun _ s' => s' = applyCancellations s ∧ Runnable s') := by
  unfold Action.Ends
  rw [nextBatch_idle counter idle]
  by_cases none : (applyCancellations s).hasRequest .waitingPrefill = false ∧
      (applyCancellations s).hasRequest .decoding = false
  · rw [if_pos none]
    exact ⟨rfl, by simp [Runnable, none]⟩
  · rw [if_neg none]
    have runnable : Runnable (applyCancellations s) := by
      unfold Runnable
      simpa [or_iff_not_imp_left] using none
    have built := (buildBatch_ends counter (applyCancellations s)).mono (fun _ _ good => good)
      fun _ s' (same : s' = _) => (⟨same, same ▸ runnable⟩ : s' = applyCancellations s ∧ Runnable s')
    refine Action.Ends.bind built ?_
    rintro batch s' ⟨chosen, rfl⟩
    exact ⟨chosen, rfl⟩

end Chosen

end Glmaxx.Proof.Scheduling
