import Glmaxx.Proof.Scheduling.Runs

namespace Glmaxx.Proof.Scheduling
open Std Library Cache Engine Glmaxx.Scheduling Glmaxx.Scheduling.Scheduler

variable {spec : RequestSpec} {next : Nat}

variable {s t : Scheduler} {cached : Nat → Nat} {counter : Counter} {rows : List BatchRow}
  {request : Request} {entry : GraphEntry}

section Graphs

theorem hasGraphForRequest_prefill (graph : t.hasGraphForRequest spec = true) :
    ∃ entry ∈ t.profile.entries, entry.key.mode = .prefill := by
  unfold hasGraphForRequest at graph
  simp only [Bool.and_eq_true, List.any_eq_true, decide_eq_true_eq] at graph
  exact graph.1.1

theorem hasGraphForRequest_decode (graph : t.hasGraphForRequest spec = true) :
    ∃ entry ∈ t.profile.entries, entry.key.mode = .decode ∧ entry.key.mtpDepth = 0 := by
  unfold hasGraphForRequest at graph
  simp only [Bool.and_eq_true, List.any_eq_true, decide_eq_true_eq] at graph
  obtain ⟨entry, member, mode, depth, _⟩ := graph.1.2
  exact ⟨entry, member, mode, depth⟩

theorem valid_sequences_pos (valid : entry.Valid) : 1 ≤ entry.maximumActiveSequences.toNat :=
  Nat.pos_of_ne_zero fun zero => valid.sequences (UInt16.toNat_inj.mp zero)

theorem valid_rows_pos (valid : entry.Valid) : 1 ≤ entry.maximumQueryRows.toNat := toNat_pos_of_ne valid.rows

theorem narrow_rows {n : Nat} (small : n ≤ maximumBatchRows) : narrow 16 n = some n := by
  refine if_pos ?_
  rw [maximumBatchRows, maxActiveSequences] at small
  omega

end Graphs

section Prefill

section
variable (configured : Configured t) (valid : entry.Valid) (mode : entry.key.mode = .prefill)
  (left : request.promptDone < request.spec.promptTokens.toNat) (rest : List Request)
include configured valid mode left rest

theorem prefillRows_first :
    ∃ n tokens more, n + 1 = min t.config.maximumBatchSequences.toNat entry.maximumActiveSequences.toNat ∧
      t.prefillRows (request :: rest) entry = fillRows (min (min t.config.maximumPrefillTokens.toNat
        entry.maximumPromptTokens.toNat) entry.maximumQueryRows.toNat) (request :: rest.take n) ∧
      t.prefillRows (request :: rest) entry = ⟨request.spec.id, tokens⟩ :: more := by
  obtain ⟨promptTokens, _⟩ := valid.prefill mode
  have available : 0 < min (min t.config.maximumPrefillTokens.toNat entry.maximumPromptTokens.toNat)
      entry.maximumQueryRows.toNat := by
    have := valid_rows_pos valid
    have := toNat_pos_of_ne promptTokens
    have := configured.prefill_pos
    omega
  have size : 0 < min t.config.maximumBatchSequences.toNat entry.maximumActiveSequences.toNat := by
    have := valid_sequences_pos valid
    have := configured.batch_pos
    omega
  obtain ⟨n, isSize⟩ := Nat.exists_eq_succ_of_ne_zero size.ne'
  obtain ⟨tokens, more, filled⟩ := fillRows_cons available left (rest.take n)
  have rows_eq : t.prefillRows (request :: rest) entry = fillRows (min (min t.config.maximumPrefillTokens.toNat
      entry.maximumPromptTokens.toNat) entry.maximumQueryRows.toNat) (request :: rest.take n) := by
    unfold prefillRows
    rw [isSize, List.take_succ_cons]
  exact ⟨n, tokens, more, isSize.symm, rows_eq, rows_eq.trans filled⟩

theorem prefillRows_fit : (t.prefillRows (request :: rest) entry).length ≤ entry.maximumActiveSequences.toNat ∧
    (t.prefillRows (request :: rest) entry).length ≤ maximumBatchRows ∧
    t.prefillRows (request :: rest) entry ≠ [] ∧
    ∃ queryRows, sumPromptTokens (t.prefillRows (request :: rest) entry) = .ok queryRows ∧ queryRows ≠ 0 ∧
      queryRows ≤ entry.maximumQueryRows.toNat ∧ queryRows ≤ entry.maximumPromptTokens.toNat := by
  obtain ⟨n, tokens, more, isSize, filled, rows_eq⟩ := prefillRows_first configured valid mode left rest
  have short := (fillRows_sublist (min (min t.config.maximumPrefillTokens.toNat entry.maximumPromptTokens.toNat)
    entry.maximumQueryRows.toNat) (request :: rest.take n)).length_le
  have bound := fillRows_sum (min (min t.config.maximumPrefillTokens.toNat entry.maximumPromptTokens.toNat)
    entry.maximumQueryRows.toNat) (request :: rest.take n)
  have first := fillRows_each (min (min t.config.maximumPrefillTokens.toNat entry.maximumPromptTokens.toNat)
    entry.maximumQueryRows.toNat) (request :: rest.take n)
  rw [← filled, rows_eq] at short bound first
  obtain ⟨_, _, _, positive, _⟩ := first _ (List.mem_cons_self ..)
  have tokensFit := t.config.maximumPrefillTokens.toNat_lt
  have small := configured.batch_le
  rw [rows_eq]
  simp only [List.length_map, List.length_cons, List.length_take] at short ⊢
  refine ⟨by omega, by omega, List.cons_ne_nil _ _, _, sumPromptTokens_ok _ (by omega), ?_, by omega, by omega⟩
  rw [List.map_cons, List.sum_cons]
  omega

end

theorem buildPrefillBatch_ok (accounts : Accounts t cached) (waiting : t.hasRequest .waitingPrefill = true)
    (advanced : counter.add t.nextStepId 1 = some next) :
    ∃ batch t', buildPrefillBatch counter t = (.ok batch, t') := by
  have configured := accounts.configured
  obtain ⟨id, any, found, isWaiting⟩ := hasRequest_iff.mp waiting
  have listed : any ∈ t.orderedRequests .waitingPrefill none := mem_orderedRequests.mpr ⟨⟨id, found⟩, isWaiting, rfl⟩
  obtain ⟨first, rest, eligible⟩ := List.exists_cons_of_ne_nil (List.ne_nil_of_mem listed)
  have firstListed : first ∈ t.orderedRequests .waitingPrefill none := eligible ▸ List.mem_cons_self ..
  obtain ⟨firstFound, firstWaiting⟩ := mem_ordered_get accounts.keyed firstListed
  have left := ((accounts.sound _ first firstFound).1.waiting firstWaiting).1
  have fit := fun (entry : GraphEntry) (member : entry ∈ t.profile.entries) (mode : entry.key.mode = .prefill) =>
    prefillRows_fit configured (configured.entries entry member) mode left rest
  have each : ∀ entry ∈ t.profile.entries.filter fun entry => entry.key.mode = .prefill, ∃ queryRows,
      sumPromptTokens (t.prefillRows (t.orderedRequests .waitingPrefill none) entry) = .ok queryRows ∧
        queryRows ≠ 0 := by
    intro entry member
    obtain ⟨isEntry, mode⟩ := List.mem_filter.mp member
    obtain ⟨_, _, _, queryRows, summed, positive, _⟩ := fit entry isEntry (of_decide_eq_true mode)
    exact ⟨queryRows, eligible ▸ summed, positive⟩
  obtain ⟨result, best, some⟩ := bestPrefill_ok none each
  obtain ⟨graph, isGraph, graphMode⟩ := hasGraphForRequest_prefill (accounts.admitted id any found).graph
  have someResult := some (.inr (List.ne_nil_of_mem (List.mem_filter.mpr ⟨isGraph, decide_eq_true graphMode⟩)))
  obtain ⟨⟨total, rows⟩, rfl⟩ := Option.isSome_iff_exists.mp someResult
  have chosen : t.choosePrefillRows = .ok rows := bind_eq_ok.mpr ⟨_, best, rfl⟩
  obtain ⟨entry, member, mode, rfl⟩ := choosePrefillRows_cases chosen
  obtain ⟨sequences, small, nonempty, queryRows, summed, _, fitsRows, fitsTokens⟩ := fit entry member mode
  rw [← eligible] at sequences small nonempty summed
  have depth : entry.key.mtpDepth.toNat = 0 := congrArg UInt8.toNat ((configured.entries entry member).prefill mode).2
  have fits : TakesBatch entry .prefill _ queryRows := ⟨mode, depth, sequences, fitsRows, fun _ => fitsTokens⟩
  obtain ⟨best, captured⟩ := bestGraph_of_fits member fits
  obtain ⟨batch, t', built⟩ := finalizeBatch_ok .prefill .greedy nonempty (narrow_rows small) summed captured advanced
  exact ⟨batch, t', (Action.bind_ok (Action.reads_ok chosen)).trans built⟩

end Prefill

section Decode

theorem finalizeBatch_single {depth : Nat} {row : BatchRow} (configured : Configured t)
    (graph : t.hasGraphForRequest request.spec = true) (shallow : depth ≤ 6)
    (captured : depth ∈ depths t request)
    (sampling : SamplingCollective) (advanced : counter.add t.nextStepId 1 = some next) :
    ∃ batch t', finalizeBatch counter (decodeKind depth) sampling [row] t = (.ok batch, t') := by
  unfold decodeKind
  split
  next =>
    obtain ⟨entry, member, mode, isDepth⟩ := hasGraphForRequest_decode graph
    have valid := configured.entries entry member
    have fits : TakesBatch entry .decode 1 1 :=
      ⟨mode, congrArg UInt8.toNat isDepth, valid_sequences_pos valid, valid_rows_pos valid, nofun⟩
    obtain ⟨best, found⟩ := bestGraph_of_fits member fits
    exact finalizeBatch_ok .decode sampling (List.cons_ne_nil _ _) rfl rfl found advanced
  next positive =>
    obtain ⟨entry, member, mode, isDepth, _, _, rows⟩ := captured.resolve_left positive
    have valid := configured.entries entry member
    have fits : TakesBatch entry (.verify depth) 1 (1 * (depth + 1)) :=
      ⟨mode, isDepth, valid_sequences_pos valid, by omega, nofun⟩
    obtain ⟨best, found⟩ := bestGraph_of_fits member fits
    have shaped : queryRowsOf (.verify depth) 1 [row] = .ok (1 * (depth + 1)) := by
      have fits : checkedMul 32 1 (depth + 1) = some (1 * (depth + 1)) := if_pos (by omega)
      rw [queryRowsOf, fits]
      rfl
    exact finalizeBatch_ok (.verify depth) sampling (List.cons_ne_nil _ _) rfl shaped found advanced

theorem buildDecodeBatch_ok (accounts : Accounts t cached) (decoding : t.hasRequest .decoding = true)
    (advanced : counter.add t.nextStepId 1 = some next) :
    ∃ batch t', buildDecodeBatch counter t = (.ok batch, t') := by
  have configured := accounts.configured
  obtain ⟨id, any, found, isDecoding⟩ := hasRequest_iff.mp decoding
  have listed : any ∈ t.orderedRequests .decoding none := mem_orderedRequests.mpr ⟨⟨id, found⟩, isDecoding, rfl⟩
  obtain ⟨first, rest, ordered⟩ := List.exists_cons_of_ne_nil (List.ne_nil_of_mem listed)
  have firstListed : first ∈ t.orderedRequests .decoding none := ordered ▸ List.mem_cons_self ..
  obtain ⟨firstFound, firstDecoding⟩ := mem_ordered_get accounts.keyed firstListed
  have left := ((accounts.sound _ first firstFound).1.decoding firstDecoding).2
  have admitted := accounts.admitted _ first firstFound
  obtain ⟨depth, isDepth, greatest⟩ := effectiveDecodeDepth_ok t left
  have shallow := depths_le greatest.1
  have chosen : t.chooseDecodeClass = .ok (depth, first.spec.sampling) := by
    refine bind_eq_ok.mpr ⟨first, okOr_eq_ok.mpr (by rw [ordered]; rfl), ?_⟩
    exact bind_eq_ok.mpr ⟨depth, isDepth, rfl⟩
  have eligible : first ∈ t.orderedRequests .decoding (some (depth, first.spec.sampling)) :=
    mem_orderedRequests.mpr ⟨⟨_, firstFound⟩, firstDecoding, inClass_some.mpr ⟨isDepth, rfl⟩⟩
  obtain ⟨n, isSize⟩ := Nat.exists_eq_succ_of_ne_zero configured.batch_pos.ne'
  obtain ⟨head, more, isEligible⟩ := List.exists_cons_of_ne_nil (List.ne_nil_of_mem eligible)
  have single : ∃ batch t', finalizeBatch counter (decodeKind depth) first.spec.sampling
      (decodeRows ((head :: more.take n).take 1)) t = (.ok batch, t') :=
    finalizeBatch_single configured admitted.graph (shallow.trans admitted.depth) greatest.1 _ advanced
  obtain ⟨batch, t', built⟩ := fitBatch_ok single (more.take n).length
  refine ⟨batch, t', (Action.bind_ok (Action.reads_ok chosen)).trans ((Action.bind_ok rfl).trans ?_)⟩
  rw [isSize, isEligible, List.take_succ_cons]
  exact built

end Decode

section Next

theorem choosesPrefill_cases (runnable : Runnable t) :
    (t.choosesPrefill = true ∧ t.hasRequest .waitingPrefill = true) ∨
      t.choosesPrefill = false ∧ t.hasRequest .decoding = true := by
  unfold choosesPrefill
  rcases runnable with waiting | decoding
  · cases decoding : t.hasRequest .decoding <;> simp [waiting]
    exact Nat.lt_or_ge .. |>.symm
  · cases waiting : t.hasRequest .waitingPrefill <;> simp [decoding]
    exact Nat.lt_or_ge .. |>.symm

theorem buildBatch_ok (accounts : Accounts t cached) (runnable : Runnable t)
    (advanced : counter.add t.nextStepId 1 = some next) : ∃ batch t', buildBatch counter t = (.ok batch, t') := by
  unfold buildBatch
  rcases choosesPrefill_cases runnable with ⟨chooses, waiting⟩ | ⟨chooses, decoding⟩
  · rw [if_pos chooses]
    exact buildPrefillBatch_ok accounts waiting advanced
  · rw [if_neg (by simp [chooses])]
    exact buildDecodeBatch_ok accounts decoding advanced

theorem nextBatch_ok (accounts : Accounts s cached) (idle : s.inflight = none)
    (advanced : counter.add s.nextStepId 1 = some next) (runnable : Runnable (applyCancellations s)) :
    ∃ batch, nextBatch counter s = (.ok (some batch), launched (applyCancellations s) batch) := by
  obtain ⟨batch, t, built⟩ := buildBatch_ok accounts.cancelled runnable advanced
  have busy : ¬((applyCancellations s).hasRequest .waitingPrefill = false ∧
      (applyCancellations s).hasRequest .decoding = false) := by
    rintro ⟨waiting, decoding⟩
    simp [Runnable, waiting, decoding] at runnable
  have ran : nextBatch counter s = (.ok (some batch), { t with inflight := some batch }) := by
    rw [nextBatch_idle counter idle, if_neg busy]
    exact (Action.bind_ok built).trans (Action.bind_ok rfl)
  obtain ⟨_, isLaunched⟩ := (nextBatch_ends counter idle).value ran
  exact ⟨batch, ran.trans (by rw [isLaunched])⟩

theorem nextBatch_none (idle : s.inflight = none) (stuck : ¬Runnable (applyCancellations s)) :
    nextBatch counter s = (.ok none, applyCancellations s) := by
  rw [nextBatch_idle counter idle, if_pos]
  · rfl
  · unfold Runnable at stuck
    simpa using stuck

end Next

end Glmaxx.Proof.Scheduling
