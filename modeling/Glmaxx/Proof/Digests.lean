import Glmaxx.Engine.Input
import Glmaxx.Engine.Output

namespace Glmaxx.Engine
open Library Cache

@[simp] theorem CollectiveKind.code_inj {a b : CollectiveKind} : a.code = b.code ↔ a = b := by
  cases a <;> cases b <;> decide

@[simp] theorem StepMode.code_inj {a b : StepMode} : a.code = b.code ↔ a = b := by
  cases a <;> cases b <;> decide

@[simp] theorem AttentionTransport.code_inj {a b : AttentionTransport} : a.code = b.code ↔ a = b := by
  cases a <;> cases b <;> decide

@[simp] theorem StepSamplingKind.code_inj {a b : StepSamplingKind} : a.code = b.code ↔ a = b := by
  cases a <;> cases b <;> decide

def CollectiveOp.InRange (operation : CollectiveOp) : Prop := operation.payloadBytes < 2 ^ 32

/-- The fields that the model keeps as numbers are values of their types in the source. -/
structure StepPlan.InRange (plan : StepPlan) : Prop where
  stepId : plan.stepId < 2 ^ 64
  activeSequences : plan.activeSequences < 2 ^ 16
  scheduledPromptTokens : plan.scheduledPromptTokens < 2 ^ 32
  queryRows : plan.queryRows < 2 ^ 32
  mtpDepth : plan.mtpDepth < 2 ^ 8

def CommittedTokens.Built (tokens : CommittedTokens) : Prop :=
  (∃ tokenId, CommittedTokens.target tokenId = .ok tokens)
    ∨ ∃ accepted target, CommittedTokens.verify accepted target = .ok tokens

end Glmaxx.Engine

namespace Glmaxx.Proof.Digests
open Library Cache Engine

variable {operations : List CollectiveOp} {sha256 : List UInt8 → Bytes32} {schedule : CollectiveSchedule}
  {plan : StepPlan} {entries : List GraphEntry} {input : StepInput} {delta : PageTableDelta}
  {tokens : CommittedTokens}

section Schedules

theorem operation_unambiguous :
    Unambiguous (fun operation => operation.ordinal < 2 ^ 16 ∧ operation.InRange) CollectiveOp.hashBytes := by
  rintro ⟨ordinal, kind, routeId, payload, mask⟩ ⟨ordinal', kind', routeId', payload', mask'⟩
    ⟨small, inRange⟩ ⟨small', inRange'⟩ rest rest' same
  simp only [CollectiveOp.hashBytes, List.append_assoc, leBytes_append_inj 2 small small',
    leBytes_append_inj 4 inRange inRange', u16_append_inj, List.cons_append, List.nil_append,
    List.cons.injEq, CollectiveKind.code_inj] at same
  obtain ⟨rfl, rfl, rfl, rfl, rfl, rfl⟩ := same
  exact ⟨rfl, rfl⟩

theorem validateOperations_ordinal {expected : Nat} (ok : validateOperations expected operations = .ok ()) :
    ∀ operation ∈ operations, operation.ordinal < expected + operations.length := by
  induction operations generalizing expected with
  | nil => nofun
  | cons operation rest ih =>
    unfold validateOperations at ok
    split at ok
    · cases ok
    next ordinal =>
      split at ok
      · cases ok
      intro other isIn
      rw [List.length_cons]
      rcases List.mem_cons.mp isIn with rfl | later
      · omega
      · have bound := ih ok other later
        omega

theorem schedule_ok (ok : CollectiveSchedule.new sha256 operations = .ok schedule) :
    operations.length ≤ 2 ^ 16 - 1 ∧ ∀ operation ∈ operations, operation.ordinal < 2 ^ 16 := by
  unfold CollectiveSchedule.new at ok
  split at ok
  · cases ok
  next short =>
    obtain ⟨_, valid, _⟩ := bind_eq_ok.mp ok
    have bound := validateOperations_ordinal valid
    exact ⟨by omega, fun operation isIn => by have := bound operation isIn; omega⟩

theorem collectiveHashInput_injective {operations' : List CollectiveOp}
    {schedule' : CollectiveSchedule} (ok : CollectiveSchedule.new sha256 operations = .ok schedule)
    (ok' : CollectiveSchedule.new sha256 operations' = .ok schedule')
    (inRange : ∀ operation ∈ operations, operation.InRange)
    (inRange' : ∀ operation ∈ operations', operation.InRange)
    (same : collectiveHashInput operations = collectiveHashInput operations') : operations = operations' := by
  obtain ⟨short, ordinals⟩ := schedule_ok ok
  obtain ⟨short', ordinals'⟩ := schedule_ok ok'
  simp only [collectiveHashInput, List.append_assoc, List.append_cancel_left_eq] at same
  exact (operation_unambiguous.counted 2 (by norm_num)).injective
    ⟨short, fun operation isIn => ⟨ordinals operation isIn, inRange operation isIn⟩⟩
    ⟨short', fun operation isIn => ⟨ordinals' operation isIn, inRange' operation isIn⟩⟩ same

end Schedules

theorem canonicalHashInput_injective {plan' : StepPlan} (inRange : plan.InRange) (inRange' : plan'.InRange)
    (same : plan.canonicalHashInput = plan'.canonicalHashInput) :
    { plan with planHash := plan'.planHash } = plan' := by
  obtain ⟨stepId, active, prompt, rows, depth⟩ := inRange
  obtain ⟨stepId', active', prompt', rows', depth'⟩ := inRange'
  obtain ⟨⟨_, _, _, _, _, _, _, _, _, _, _, _, _, _, _⟩, _, _⟩ := plan
  obtain ⟨⟨_, _, _, _, _, _, _, _, _, _, _, _, _, _, _⟩, _, _⟩ := plan'
  simp only [StepPlan.canonicalHashInput, List.append_assoc, u16_append_inj, u32_append_inj, u64_append_inj,
    leBytes_append_inj 8 stepId stepId', leBytes_append_inj 2 active active',
    leBytes_append_inj 4 prompt prompt', leBytes_append_inj 4 rows rows',
    leBytes_append_inj 1 depth depth', List.cons_append, List.nil_append, List.cons.injEq,
    StepMode.code_inj, AttentionTransport.code_inj, List.Vector.toList_injective.eq_iff] at same
  obtain ⟨rfl, rfl, rfl, rfl, rfl, rfl, rfl, rfl, rfl, rfl, rfl, rfl, rfl, rfl, rfl, rfl⟩ := same
  rfl

section Profiles

theorem length_lt_of_nodup {values : List Nat} (bound : Nat) (distinct : values.Nodup) (positive : 0 < bound)
    (inRange : ∀ value ∈ values, 0 < value ∧ value < bound) : values.length < bound := by
  have contained : values.toFinset ⊆ Finset.Ioo 0 bound := by
    intro value isIn
    exact Finset.mem_Ioo.mpr (inRange value (List.mem_toFinset.mp isIn))
  have count := Finset.card_le_card contained
  rw [List.toFinset_card_of_nodup distinct, Nat.card_Ioo] at count
  omega

theorem strictlySortedNonzero_short {values : List UInt16} (sorted : strictlySortedNonzero values = true) :
    values.length ≤ 2 ^ 16 - 1 := by
  simp only [strictlySortedNonzero, Bool.and_eq_true, List.all_eq_true, decide_eq_true_eq] at sorted
  obtain ⟨nonzero, ascending⟩ := sorted
  have chain : values.IsChain (· < ·) := by
    rw [List.isChain_iff_getElem]
    intro i inside
    apply ascending (values[i], values[i + 1])
    rw [List.mem_iff_getElem]
    exact ⟨i, by simp; omega, by simp⟩
  have unequal : values.Nodup := chain.pairwise.imp fun less => UInt16.ne_of_lt less
  have distinct : (values.map (·.toNat)).Nodup := unequal.map fun _ _ => UInt16.toNat_inj.mp
  have bound := length_lt_of_nodup (2 ^ 16) distinct (by norm_num) (by
    intro value isIn
    obtain ⟨word, inValues, rfl⟩ := List.mem_map.mp isIn
    have := nonzero word inValues
    exact ⟨by rw [Nat.pos_iff_ne_zero]; exact fun zero => this (UInt16.toNat_inj.mp zero), word.toNat_lt⟩)
  rw [List.length_map] at bound
  omega

theorem u16List_unambiguous : Unambiguous (fun values => values.length ≤ 2 ^ 16 - 1) u16ListBytes := by
  have word : Unambiguous (fun _ => True) (fun value : UInt16 => leBytes 2 value.toNat) :=
    fun _ _ _ _ _ _ same => u16_append_inj.mp same
  intro values values' short short' rest rest' same
  exact word.counted 2 (by norm_num) ⟨short, by simp⟩ ⟨short', by simp⟩ same

def ShortRoutes (entry : GraphEntry) : Prop :=
  entry.compatibleTpRoutes.length ≤ 2 ^ 16 - 1 ∧ entry.compatibleDcpRoutes.length ≤ 2 ^ 16 - 1
    ∧ entry.compatibleSamplingRoutes.length ≤ 2 ^ 16 - 1

theorem entry_unambiguous : Unambiguous ShortRoutes GraphEntry.hashBytes := by
  rintro ⟨_, ⟨_, _, _, _, _⟩, _, _, _, tp, dcp, sampling, _, _, _, _, _⟩
    ⟨_, ⟨_, _, _, _, _⟩, _, _, _, tp', dcp', sampling', _, _, _, _, _⟩
    ⟨shortTp, shortDcp, shortSampling⟩ ⟨shortTp', shortDcp', shortSampling'⟩ rest rest' same
  simp only [GraphEntry.hashBytes, List.append_assoc, u16_append_inj, u32_append_inj, List.cons_append,
    List.nil_append, List.cons.injEq, StepMode.code_inj, AttentionTransport.code_inj] at same
  obtain ⟨rfl, rfl, rfl, rfl, rfl, rfl, rfl, rfl, rfl, lists⟩ := same
  obtain ⟨rfl, afterTp⟩ := u16List_unambiguous (x := tp) (y := tp') shortTp shortTp' lists
  obtain ⟨rfl, afterDcp⟩ := u16List_unambiguous (x := dcp) (y := dcp') shortDcp shortDcp' afterTp
  obtain ⟨rfl, last⟩ := u16List_unambiguous (x := sampling) (y := sampling') shortSampling shortSampling' afterDcp
  simp only [u16_append_inj, u64_append_inj] at last
  obtain ⟨rfl, rfl, rfl, rfl, rfl, rfl⟩ := last
  exact ⟨rfl, rfl⟩

theorem shortRoutes_of_accepted {seen : List GraphEntry} {entry : GraphEntry} (accepted : ¬entryRefused seen entry) :
    ShortRoutes entry := by
  simp only [entryRefused, not_or, Bool.not_eq_false] at accepted
  obtain ⟨_, _, _, _, _, _, _, _, _, tp, dcp, sampling, _⟩ := accepted
  exact ⟨strictlySortedNonzero_short tp, strictlySortedNonzero_short dcp, strictlySortedNonzero_short sampling⟩

theorem entries_short (ok : validateEntries entries = .ok ()) :
    entries.length ≤ 2 ^ 32 - 1 ∧ ∀ entry ∈ entries, ShortRoutes entry := by
  obtain ⟨distinct, each⟩ := validateEntries_accepted ok
  have ids : ((entries.map (·.graphId)).map (·.toNat)).Nodup := distinct.map fun _ _ => UInt32.toNat_inj.mp
  have bound := length_lt_of_nodup (2 ^ 32) ids (by norm_num) (by
    intro value isIn
    simp only [List.map_map, List.mem_map, Function.comp_apply] at isIn
    obtain ⟨entry, inEntries, rfl⟩ := isIn
    have nonzero := (validateEntries_ok ok entry inEntries).graphId
    exact ⟨by rw [Nat.pos_iff_ne_zero]; exact fun zero => nonzero (UInt32.toNat_inj.mp zero), entry.graphId.toNat_lt⟩)
  rw [List.length_map, List.length_map] at bound
  refine ⟨by omega, fun entry isIn => ?_⟩
  obtain ⟨before, accepted⟩ := each entry isIn
  exact shortRoutes_of_accepted accepted

theorem entriesHashInput_injective {entries' : List GraphEntry}
    (ok : validateEntries entries = .ok ()) (ok' : validateEntries entries' = .ok ())
    (same : entriesHashInput sha256 entries = entriesHashInput sha256 entries') : entries = entries' := by
  simp only [entriesHashInput, List.append_assoc, List.append_cancel_left_eq] at same
  exact (entry_unambiguous.counted 4 (by norm_num)).injective (entries_short ok) (entries_short ok') same

end Profiles

section Inputs

theorem row_unambiguous : Unambiguous (fun _ => True) SequenceStepInput.hashBytes := by
  rintro ⟨_, _, _, _, _, _, _, _, ⟨_, _, _, _, _, _⟩⟩ ⟨_, _, _, _, _, _, _, _, ⟨_, _, _, _, _, _⟩⟩ _ _ rest rest' same
  simp only [SequenceStepInput.hashBytes, List.append_assoc, u16_append_inj, u32_append_inj, u64_append_inj,
    List.cons_append, List.nil_append, List.cons.injEq, StepSamplingKind.code_inj] at same
  obtain ⟨rfl, rfl, rfl, rfl, rfl, rfl, rfl, rfl, rfl, rfl, rfl, rfl, rfl, rfl, rfl⟩ := same
  exact ⟨rfl, rfl⟩

theorem token_unambiguous : Unambiguous (fun _ => True) (fun tokenId : UInt32 => leBytes 4 tokenId.toNat) :=
  fun _ _ _ _ _ _ same => u32_append_inj.mp same

structure Fitting (input : StepInput) : Prop where
  generation : input.sequenceTableGeneration < 2 ^ 64
  rows : input.rows.length < 2 ^ 16
  prompt : input.promptTokenIds.length < 2 ^ 32

theorem validateShape_fitting (ok : input.validateShape plan schedule delta = .ok ()) : Fitting input := by
  unfold StepInput.validateShape at ok
  split at ok
  · cases ok
  next bound =>
    simp only [not_or, not_not] at bound
    obtain ⟨_, generation, _, _, _, short, _⟩ := bound
    split at ok
    · cases ok
    obtain ⟨_, _, ok⟩ := bind_eq_ok.mp ok
    obtain ⟨count, counted, _⟩ := bind_eq_ok.mp ok
    have prompt := okOr_eq_ok.mp counted
    simp only [narrow, Option.ite_none_right_eq_some] at prompt
    refine ⟨?_, ?_, prompt.1⟩
    · rw [generation]
      exact plan.sequenceTableGeneration.toNat_lt
    · simp only [maxActiveSequences] at short
      omega

theorem new_fitting {rows : List SequenceStepInput} {promptTokenIds : List UInt32}
    (ok : StepInput.new sha256 plan schedule delta rows promptTokenIds = .ok input) : Fitting input := by
  unfold StepInput.new at ok
  obtain ⟨_, _, ok⟩ := bind_eq_ok.mp ok
  obtain ⟨_, _, ok⟩ := bind_eq_ok.mp ok
  obtain ⟨_, shape, ok⟩ := bind_eq_ok.mp ok
  cases ok
  obtain ⟨generation, fewRows, prompt⟩ := validateShape_fitting shape
  exact ⟨generation, fewRows, prompt⟩

theorem hashInput_injective {input' : StepInput} (fitting : Fitting input)
    (fitting' : Fitting input') (same : input.hashInput sha256 = input'.hashInput sha256) :
    input.rows = input'.rows ∧ input.promptTokenIds = input'.promptTokenIds
      ∧ input.sequenceTableGeneration = input'.sequenceTableGeneration
      ∧ input.pageTableDeltaDigest = input'.pageTableDeltaDigest := by
  simp only [StepInput.hashInput, List.append_assoc, List.append_cancel_left_eq, vector_append_inj,
    leBytes_append_inj 8 fitting.generation fitting'.generation, leBytes_append_inj 2 fitting.rows fitting'.rows,
    leBytes_append_inj 4 fitting.prompt fitting'.prompt] at same
  -- Both counts stand before both lists.
  obtain ⟨generation, digest, rowCount, promptCount, same⟩ := same
  obtain ⟨rows, same⟩ := row_unambiguous.flatMap rowCount (by simp) (by simp) same
  obtain ⟨tokens, -⟩ := token_unambiguous.flatMap promptCount (by simp) (by simp) (congrArg (· ++ []) same)
  exact ⟨rows, tokens, generation, digest⟩

end Inputs

section Outputs

structure Padded (tokens : CommittedTokens) : Prop where
  count : tokens.count < 2 ^ 8
  accepted : tokens.acceptedDraftCount < 2 ^ 8
  length : (tokens.tokenIds.take tokens.count).length = tokens.count
  tokenIds : tokens.tokenIds = tokens.tokenIds.take tokens.count
    ++ List.replicate (maxCommittedTokensPerSequence - tokens.count) 0

theorem fromParts_padded {accepted : List UInt32} {target : Option UInt32}
    (ok : CommittedTokens.fromParts accepted target = .ok tokens) : Padded tokens := by
  unfold CommittedTokens.fromParts at ok
  simp only at ok
  split at ok
  · cases ok
  next few =>
    split at ok
    · cases ok
    cases ok
    simp only [List.length_append, maxCommittedTokensPerSequence, maxMtpDepth] at few
    refine ⟨?_, ?_, ?_, ?_⟩
    · simp only [List.length_append]
      omega
    · simp only
      omega
    · simp
    · rw [List.take_left]

theorem built_padded (built : tokens.Built) : Padded tokens := by
  rcases built with ⟨tokenId, ok⟩ | ⟨accepted, target, ok⟩
  · exact fromParts_padded ok
  · exact fromParts_padded ok

theorem tokens_unambiguous : Unambiguous Padded CommittedTokens.hashBytes := by
  intro tokens tokens' padded padded' rest rest' same
  simp only [CommittedTokens.hashBytes, List.append_assoc, leBytes_append_inj 1 padded.count padded'.count,
    leBytes_append_inj 1 padded.accepted padded'.accepted, List.cons_append, List.nil_append, List.cons.injEq] at same
  obtain ⟨count, accepted, present, same⟩ := same
  obtain ⟨ids, tails⟩ := token_unambiguous.flatMap (by rw [padded.length, padded'.length, count]) (by simp) (by simp) same
  have tokenIds : tokens.tokenIds = tokens'.tokenIds := by
    rw [padded.tokenIds, padded'.tokenIds, ids, count]
  have flags : tokens.targetTokenPresent = tokens'.targetTokenPresent := by
    cases first : tokens.targetTokenPresent <;> cases second : tokens'.targetTokenPresent <;> simp_all
  cases tokens
  cases tokens'
  simp only at count accepted flags tokenIds
  exact ⟨by simp only [count, accepted, flags, tokenIds], tails⟩

theorem digestInput_injective {sequences sequences' : List CommittedTokens} {output output' : StepOutput}
    (ok : StepOutput.new sequences = .ok output) (ok' : StepOutput.new sequences' = .ok output')
    (built : ∀ tokens ∈ sequences, tokens.Built) (built' : ∀ tokens ∈ sequences', tokens.Built)
    (same : output.digestInput = output'.digestInput) : output = output' := by
  unfold StepOutput.new at ok ok'
  split at ok
  · cases ok
  next few =>
    split at ok'
    · cases ok'
    next few' =>
      cases ok
      cases ok'
      simp only [not_or, maxActiveSequences, Nat.not_lt] at few few'
      simp only [StepOutput.digestInput, List.append_assoc, List.append_cancel_left_eq, List.take_left',
        leBytes_append_inj 2 (a := sequences.length) (b := sequences'.length) (by omega) (by omega)] at same
      obtain ⟨count, same⟩ := same
      obtain ⟨rfl, -⟩ := tokens_unambiguous.flatMap count (fun tokens isIn => built_padded (built tokens isIn))
        (fun tokens isIn => built_padded (built' tokens isIn)) (congrArg (· ++ []) same)
      rfl

end Outputs

section Samples

def sampleDigest : List UInt8 → Bytes32 := fun _ => Bytes32.zero

def sampleOperations : List CollectiveOp :=
  [⟨0, .tpReduce, 1, 32, 0x0f⟩, ⟨1, .logitsArgmax, 2, 32, 0x0f⟩]

def sampleSchedule : CollectiveSchedule := ⟨sampleOperations, Bytes32.zero⟩

def samplePlan (stepId : Nat) (planHash : Bytes32) : StepPlan :=
  ⟨⟨1, stepId, .decode, 1, 1, 0, 1, 1, 0, 1, 1, 1, .decodeQueryLse, 2, 5⟩, Bytes32.zero, planHash⟩

def sampleEntries : List GraphEntry :=
  [⟨1, ⟨.decode, 1, 1, 0, .decodeQueryLse⟩, 1, 0, 1, [1, 3], [1], [2], 0, 0, 0, 0, 1⟩]

def sampleDelta : PageTableDelta :=
  ⟨4, 5, [⟨3, false, 8, 1, 1, 0, [⟨0, ownerRank 0, 0, none, .hbmTentative, 9⟩]⟩], [], Bytes32.zero⟩

def sampleRows : List SequenceStepInput := [⟨3, 8, 0, 4, 0, 0, 0, 0, ⟨.greedy, 0, oneF32Bits, 0, 7, 0⟩⟩]

def sampleInput : StepInput := ⟨5, Bytes32.zero, sampleRows, [], Bytes32.zero⟩

def sampleTokens (tokenId : UInt32) : CommittedTokens := ⟨1, 0, true, [tokenId, 0, 0, 0, 0, 0, 0]⟩

def sampleOutput (tokenId : UInt32) : StepOutput :=
  ⟨1, sampleTokens tokenId :: List.replicate 63 CommittedTokens.empty⟩

theorem samplePlan_inRange (planHash : Bytes32) : (samplePlan 9 planHash).InRange := by
  constructor <;> norm_num [samplePlan]

end Samples

/-- The bytes that are hashed determine what they are the bytes of, for everything the constructors accept;
a graph profile, built or verified, has passed `validateEntries`. -/
theorem digest_inputs_injective (sha256 : List UInt8 → Bytes32) :
    (∀ {operations operations' : List CollectiveOp} {schedule schedule' : CollectiveSchedule},
      CollectiveSchedule.new sha256 operations = .ok schedule →
      CollectiveSchedule.new sha256 operations' = .ok schedule' →
      (∀ operation ∈ operations, operation.InRange) → (∀ operation ∈ operations', operation.InRange) →
      collectiveHashInput operations = collectiveHashInput operations' → operations = operations')
    ∧ (∀ {plan plan' : StepPlan}, plan.InRange → plan'.InRange →
      plan.canonicalHashInput = plan'.canonicalHashInput → { plan with planHash := plan'.planHash } = plan')
    ∧ (∀ {entries entries' : List GraphEntry}, validateEntries entries = .ok () → validateEntries entries' = .ok () →
      entriesHashInput sha256 entries = entriesHashInput sha256 entries' → entries = entries')
    ∧ (∀ {plan plan' : StepPlan} {schedule schedule' : CollectiveSchedule} {delta delta' : PageTableDelta}
        {rows rows' : List SequenceStepInput} {promptTokenIds promptTokenIds' : List UInt32}
        {input input' : StepInput},
      StepInput.new sha256 plan schedule delta rows promptTokenIds = .ok input →
      StepInput.new sha256 plan' schedule' delta' rows' promptTokenIds' = .ok input' →
      input.hashInput sha256 = input'.hashInput sha256 →
      input.rows = input'.rows ∧ input.promptTokenIds = input'.promptTokenIds
        ∧ input.sequenceTableGeneration = input'.sequenceTableGeneration
        ∧ input.pageTableDeltaDigest = input'.pageTableDeltaDigest)
    ∧ (∀ {sequences sequences' : List CommittedTokens} {output output' : StepOutput},
      StepOutput.new sequences = .ok output → StepOutput.new sequences' = .ok output' →
      (∀ tokens ∈ sequences, tokens.Built) → (∀ tokens ∈ sequences', tokens.Built) →
      output.digestInput = output'.digestInput → output = output') :=
  ⟨collectiveHashInput_injective, canonicalHashInput_injective, entriesHashInput_injective,
    fun ok ok' => hashInput_injective (new_fitting ok) (new_fitting ok'), digestInput_injective⟩

theorem digest_inputs_injective_samples : sampleOperations = sampleOperations
    ∧ { samplePlan 9 Bytes32.zero with planHash := List.Vector.replicate 32 1 }
      = samplePlan 9 (List.Vector.replicate 32 1)
    ∧ sampleEntries = sampleEntries
    ∧ (sampleInput.rows = sampleInput.rows ∧ sampleInput.promptTokenIds = sampleInput.promptTokenIds
      ∧ sampleInput.sequenceTableGeneration = sampleInput.sequenceTableGeneration
      ∧ sampleInput.pageTableDeltaDigest = sampleInput.pageTableDeltaDigest)
    ∧ sampleOutput 7 = sampleOutput 7 := by
  obtain ⟨operations, plans, entries, inputs, outputs⟩ := digest_inputs_injective sampleDigest
  have inRange : ∀ operation ∈ sampleOperations, operation.InRange := by
    simp [sampleOperations, CollectiveOp.InRange]
  have schedule : CollectiveSchedule.new sampleDigest sampleOperations = .ok sampleSchedule := by rfl
  have first : StepInput.new sampleDigest (samplePlan 9 Bytes32.zero) sampleSchedule sampleDelta sampleRows []
      = .ok sampleInput := by rfl
  have second : StepInput.new sampleDigest (samplePlan 10 Bytes32.zero) sampleSchedule sampleDelta sampleRows []
      = .ok sampleInput := by rfl
  have output : StepOutput.new [sampleTokens 7] = .ok (sampleOutput 7) := by rfl
  -- The same record once from `target` and once from `verify`.
  have target : ∀ tokens ∈ [sampleTokens 7], tokens.Built := by
    intro tokens isIn
    cases List.mem_singleton.mp isIn
    exact .inl ⟨7, by rfl⟩
  have verified : ∀ tokens ∈ [sampleTokens 7], tokens.Built := by
    intro tokens isIn
    cases List.mem_singleton.mp isIn
    exact .inr ⟨[], some 7, by rfl⟩
  exact ⟨operations schedule schedule inRange inRange rfl, plans (samplePlan_inRange _) (samplePlan_inRange _) rfl,
    entries (by rfl) (by rfl) rfl, inputs first second rfl,
    outputs output output target verified rfl⟩

end Glmaxx.Proof.Digests
