import Glmaxx.Proof.DirectSchedule.Runs

namespace Glmaxx.Proof.DirectSchedule
open Library Cache Cache.DirectIoScheduler

variable {s s' : DirectIoScheduler} {command : DirectIoCommand} {ioClass : DirectIoClass} {queued : QueuedCommand}
  {heap : Heap QueuedCommand} {resources : DirectIoResources} {candidate : Bool} {decision : Option DirectIoDecision}
  {entry : DirectIoCall} {h h' : DirectIoHistory} {waited bytes limit : Nat}

section Counters

theorem addWaited_le : addWaited waited bytes limit ≤ limit := min_le_right _ _

theorem fits_of_wouldExceed (fine : wouldExceed waited bytes limit = false) : waited + bytes ≤ limit := by
  unfold wouldExceed checkedAdd at fine
  split at fine
  · cases fine
  next value sum =>
    split at sum
    · cases sum
      simpa using fine
    · cases sum

theorem fits_of_waitedOut (fine : waitedOut waited (some bytes) limit = false) : waited + bytes ≤ limit := by
  unfold waitedOut at fine
  exact fits_of_wouldExceed (Bool.or_eq_false_iff.mp fine).2

theorem addWaited_eq (fits : waited + bytes ≤ limit) (small : limit < 2 ^ 64) :
    addWaited waited bytes limit = waited + bytes := by
  unfold addWaited
  omega

/-- The waiting counters stay within their limits, and none runs right after an admission. -/
structure Waits (s : DirectIoScheduler) : Prop where
  resume : s.resumeReadBytesSinceAdmissionReadWaited ≤ s.config.maximumResumeReadBytesBeforeAdmissionRead.toNat
  admission : s.readBytesSincePublicationCandidateWaited ≤ s.config.maximumReadBytesBeforePublicationAdmission.toNat
  service : s.readBytesSinceAdmittedPublicationAdvanced ≤ s.config.maximumReadBytesBeforePublicationService.toNat
  fresh : s.publicationAdmittedSinceService = true → s.readBytesSincePublicationCandidateWaited = 0

theorem new_waits {config : DirectIoSchedulerConfig} (created : DirectIoScheduler.new config = .ok s) : Waits s := by
  obtain ⟨_, _, built⟩ := bind_eq_ok.mp created
  cases built
  exact ⟨Nat.zero_le _, Nat.zero_le _, Nat.zero_le _, nofun⟩

theorem Inserts.waits (inserts : Inserts s command candidate s') (waits : Waits s) : Waits s' := by
  obtain ⟨-, -, -, -, t, pushed, rfl⟩ := inserts
  obtain ⟨commandId, ioClass, order, bytes⟩ := command
  cases ioClass with
  | resumeRead | cleanerWrite =>
    cases pushed
    exact { waits with }
  | admissionRead =>
    cases pushed
    refine { waits with resume := ?_ }
    show (if s.admissionReads.isEmpty = true then 0 else _) ≤ _
    split
    · exact Nat.zero_le _
    · exact waits.resume
  | publicationWrite =>
    cases candidate with
    | false => cases pushed
    | true =>
      cases pushed
      refine { waits with admission := ?_, fresh := fun just => ?_ }
      · show (if s.publicationCandidates.isEmpty = true then 0 else _) ≤ _
        split
        · exact Nat.zero_le _
        · exact waits.admission
      · show (if s.publicationCandidates.isEmpty = true then 0 else _) = _
        split
        · rfl
        · exact waits.fresh just

theorem Advance.waits (advance : Advance resources s decision s') (waits : Waits s) : Waits s' := by
  cases advance with
  | @read ioClass queued heap takes popped service admission =>
    refine ⟨?_, ?_, ?_, nofun⟩
    · show resumeWaitedAfter _ _ _ ≤ _
      unfold resumeWaitedAfter
      split
      · exact addWaited_le
      · split
        · exact Nat.zero_le _
        · split
          · exact Nat.zero_le _
          · rcases takes with ⟨rfl, _⟩ | ⟨rfl, _⟩ <;> exact waits.resume
    · show (if _ then addWaited _ _ _ else 0) ≤ _
      split
      · exact addWaited_le
      · exact Nat.zero_le _
    · show (if _ then addWaited _ _ _ else 0) ≤ _
      split
      · exact addWaited_le
      · exact Nat.zero_le _
  | publication popped => exact ⟨waits.resume, waits.admission, Nat.zero_le _, nofun⟩
  | candidate popped =>
    refine ⟨waits.resume, Nat.zero_le _, ?_, fun _ => rfl⟩
    show (if _ then 0 else _) ≤ _
    split
    · exact Nat.zero_le _
    · exact waits.service
  | cleaner popped => exact { waits with fresh := nofun }
  | idle => exact waits

end Counters

section Served

def servedBytes (counted : DirectIoClass → Bool) : Option DirectIoDecision → Nat
  | some (.service command) => if counted command.ioClass then command.bytes.toNat else 0
  | _ => 0

def servesClass (ioClass : DirectIoClass) : Option DirectIoDecision → Bool
  | some (.service command) => command.ioClass = ioClass
  | _ => false

def admitsPublication : Option DirectIoDecision → Bool
  | some (.publicationAdmitted _) => true
  | _ => false

def isResume (ioClass : DirectIoClass) : Bool := ioClass = .resumeRead

def Ample (config : DirectIoSchedulerConfig) (resources : DirectIoResources) : Prop :=
  config.readReservedBuffers.toNat < resources.freeBuffers ∧
  config.readReservedDescriptors.toNat < resources.freeDescriptors ∧
  config.readReservedCqEntries.toNat + directPublicationCqReservation ≤ resources.freeCqEntries

theorem Ample.reserves (ample : Ample s.config resources) : s.reservePublicationResources resources ≠ none := by
  obtain ⟨buffers, descriptors, entries⟩ := ample
  unfold reservePublicationResources
  rw [if_neg (by omega)]
  nofun

theorem resume_fits (takes : TakesRead s .resumeRead) (popped : s.resumeReads.pop = some (queued, heap))
    (waiting : s.admissionReads.isEmpty = false) :
    s.resumeReadBytesSinceAdmissionReadWaited + queued.bytes.toNat ≤
      s.config.maximumResumeReadBytesBeforeAdmissionRead.toNat := by
  obtain ⟨other, _⟩ | ⟨_, notDue⟩ := takes
  · cases other
  · unfold admissionReadDue at notDue
    rw [waiting, (Heap.pop_eq_some popped).2.1] at notDue
    exact fits_of_wouldExceed (Bool.or_eq_false_iff.mp notDue).2

theorem service_fits (waiting : s.admittedPublications.isEmpty = false)
    (service : s.publicationServiceDue (some bytes) = false) :
    s.readBytesSinceAdmittedPublicationAdvanced + bytes ≤
      s.config.maximumReadBytesBeforePublicationService.toNat := by
  unfold publicationServiceDue at service
  rw [waiting] at service
  exact fits_of_waitedOut service

theorem admission_fits (sound : Sound s) (waits : Waits s) (waiting : s.publicationCandidates.isEmpty = false)
    (small : bytes ≤ s.config.maximumReadCommandBytes.toNat)
    (admission : s.publicationAdmissionDue (some bytes) = false) :
    s.readBytesSincePublicationCandidateWaited + bytes ≤
      s.config.maximumReadBytesBeforePublicationAdmission.toNat := by
  unfold publicationAdmissionDue at admission
  rw [waiting] at admission
  cases just : s.publicationAdmittedSinceService with
  | true =>
    have most := UInt64.le_iff_toNat_le.mp (config_bounds sound.config).2.2.1
    rw [waits.fresh just]
    omega
  | false =>
    rw [just] at admission
    exact fits_of_waitedOut (Bool.or_eq_false_iff.mp admission).2

theorem read_small (sound : Sound s) (takes : TakesRead s ioClass)
    (popped : (s.serviceQueue ioClass).pop = some (queued, heap)) :
    queued.bytes.toNat ≤ s.config.maximumReadCommandBytes.toNat := by
  have member : queued.intoCommand ioClass ∈ commands s := commands_served popped ▸ Multiset.mem_cons_self _ _
  have small := sound.sizes _ member
  rcases takes with ⟨rfl, _⟩ | ⟨rfl, _⟩ <;> exact small

section
variable (advance : Advance resources s decision s')
include advance

theorem Advance.resume_waited (before : s.admissionReads.isEmpty = false)
    (quiet : servesClass .admissionRead decision = false) :
    s'.resumeReadBytesSinceAdmissionReadWaited =
      s.resumeReadBytesSinceAdmissionReadWaited + servedBytes isResume decision := by
  cases advance with
  | @read ioClass queued heap takes popped service admission =>
    have resume : ioClass = .resumeRead := by
      rcases takes with ⟨rfl, _⟩ | ⟨rfl, _⟩
      · cases quiet
      · rfl
    subst resume
    have fits := resume_fits takes popped before
    show resumeWaitedAfter _ _ _ = _
    unfold resumeWaitedAfter
    rw [if_pos ⟨rfl, before⟩]
    exact addWaited_eq fits (UInt64.toNat_lt _)
  | publication popped => rfl
  | candidate popped => rfl
  | cleaner popped => rfl
  | idle => rfl

theorem Advance.service_waited
    (before : s.admittedPublications.isEmpty = false) (quiet : servesClass .publicationWrite decision = false) :
    s'.readBytesSinceAdmittedPublicationAdvanced =
      s.readBytesSinceAdmittedPublicationAdvanced + servedBytes DirectIoClass.isRead decision := by
  cases advance with
  | @read ioClass queued heap takes popped service admission =>
    have fits := addWaited_eq (service_fits before service) (UInt64.toNat_lt _)
    rcases takes with ⟨rfl, _⟩ | ⟨rfl, _⟩ <;> exact (if_pos before).trans fits
  | publication popped => cases quiet
  | @candidate queued heap popped =>
    have more := @Heap.two_le_length_push _ _ s.admittedPublications queued before
    exact if_neg (Nat.ne_of_gt more)
  | cleaner popped => rfl
  | idle => rfl

theorem Advance.admission_waited (sound : Sound s) (waits : Waits s)
    (before : s.publicationCandidates.isEmpty = false) (ample : Ample s.config resources)
    (quiet : admitsPublication decision = false) :
    s'.readBytesSincePublicationCandidateWaited =
      s.readBytesSincePublicationCandidateWaited + servedBytes DirectIoClass.isRead decision := by
  cases advance with
  | @read ioClass queued heap takes popped service admission =>
    have notDue : s.publicationAdmissionDue (some queued.bytes.toNat) = false := by
      rw [← Bool.not_eq_true]
      exact fun due => ample.reserves (admission due)
    have fits := addWaited_eq (admission_fits sound waits before (read_small sound takes popped) notDue)
      (UInt64.toNat_lt _)
    rcases takes with ⟨rfl, _⟩ | ⟨rfl, _⟩ <;> exact (if_pos before).trans fits
  | publication popped => rfl
  | candidate popped => cases quiet
  | cleaner popped => rfl
  | idle => rfl

end

theorem Inserts.keeps_waiting (inserts : Inserts s command candidate s') :
    (s.admissionReads.isEmpty = false → s'.resumeReadBytesSinceAdmissionReadWaited =
      s.resumeReadBytesSinceAdmissionReadWaited) ∧
    (s.publicationCandidates.isEmpty = false → s'.readBytesSincePublicationCandidateWaited =
      s.readBytesSincePublicationCandidateWaited) ∧
    s'.readBytesSinceAdmittedPublicationAdvanced = s.readBytesSinceAdmittedPublicationAdvanced := by
  obtain ⟨-, -, -, -, t, pushed, rfl⟩ := inserts
  obtain ⟨commandId, ioClass, order, bytes⟩ := command
  cases ioClass with
  | admissionRead =>
    cases pushed
    refine ⟨fun waiting => ?_, fun _ => rfl, rfl⟩
    exact if_neg (by rw [waiting]; nofun)
  | publicationWrite =>
    cases candidate with
    | false => cases pushed
    | true =>
      cases pushed
      refine ⟨fun _ => rfl, fun waiting => ?_, rfl⟩
      exact if_neg (by rw [waiting]; nofun)
  | _ =>
    cases pushed
    exact ⟨fun _ => rfl, fun _ => rfl, rfl⟩

end Served

section Runs
variable {start : DirectIoScheduler} {config : DirectIoSchedulerConfig} {calls : List DirectIoCall} {k : Nat}

def historyAt (start : DirectIoScheduler) (calls : List DirectIoCall) (k : Nat) : DirectIoHistory :=
  DirectIoHistory.run ⟨start, [], [], []⟩ (calls.take k)

def decisionAt (start : DirectIoScheduler) (calls : List DirectIoCall) (k : Nat) : Option DirectIoDecision :=
  calls[k]?.bind fun entry => (DirectIoHistory.call entry (historyAt start calls k)).1.toOption.join

inductive Moves (entry : Option DirectIoCall) (s : DirectIoScheduler) :
    Option DirectIoDecision → DirectIoScheduler → Prop where
  | stay : Moves entry s none s
  | insert {command : DirectIoCommand} {candidate : Bool} {s' : DirectIoScheduler}
      (inserts : Inserts s command candidate s') : Moves entry s none s'
  | advance {resources : DirectIoResources} {decision : Option DirectIoDecision} {s' : DirectIoScheduler}
      (isNext : entry = some (.next resources)) (advance : Advance resources s decision s') : Moves entry s decision s'

theorem historyAt_sound (created : DirectIoScheduler.new config = .ok start) : Sound (historyAt start calls k).scheduler :=
  (run_conserves created _).sound

theorem moves_at (created : DirectIoScheduler.new config = .ok start) (calls : List DirectIoCall) (k : Nat) :
    Moves calls[k]? (historyAt start calls k).scheduler (decisionAt start calls k)
      (historyAt start calls (k + 1)).scheduler := by
  cases get : calls[k]? with
  | none =>
    have same : historyAt start calls (k + 1) = historyAt start calls k := foldl_take_of_none _ get
    rw [same, decisionAt, get]
    exact .stay
  | some entry =>
    have next : historyAt start calls (k + 1) = (DirectIoHistory.call entry (historyAt start calls k)).2 :=
      foldl_take_succ _ get
    have steps := call_steps (@historyAt_sound start config calls k created) entry
    rw [next, decisionAt, get]
    show Moves _ _ (DirectIoHistory.call entry (historyAt start calls k)).1.toOption.join _
    generalize DirectIoHistory.call entry (historyAt start calls k) = outcome at steps ⊢
    obtain ⟨result, h'⟩ := outcome
    cases steps with
    | insert inserts => exact .insert inserts
    | refuse calm => exact .stay
    | @advance resources decision s' isNext advance =>
      rcases decision with _ | ⟨command⟩ | ⟨command⟩ <;> exact .advance (congrArg some isNext) advance

theorem Moves.resume_waited {entry : Option DirectIoCall} (moves : Moves entry s decision s')
    (before : s.admissionReads.isEmpty = false) (quiet : servesClass .admissionRead decision = false) :
    s'.resumeReadBytesSinceAdmissionReadWaited =
      s.resumeReadBytesSinceAdmissionReadWaited + servedBytes isResume decision := by
  cases moves with
  | stay => rfl
  | insert inserts => exact inserts.keeps_waiting.1 before
  | advance isNext advance => exact advance.resume_waited before quiet

theorem Moves.service_waited {entry : Option DirectIoCall} (moves : Moves entry s decision s')
    (before : s.admittedPublications.isEmpty = false) (quiet : servesClass .publicationWrite decision = false) :
    s'.readBytesSinceAdmittedPublicationAdvanced =
      s.readBytesSinceAdmittedPublicationAdvanced + servedBytes DirectIoClass.isRead decision := by
  cases moves with
  | stay => rfl
  | insert inserts => exact inserts.keeps_waiting.2.2
  | advance isNext advance => exact advance.service_waited before quiet

theorem Moves.admission_waited {entry : Option DirectIoCall} (moves : Moves entry s decision s') (sound : Sound s)
    (waits : Waits s) (before : s.publicationCandidates.isEmpty = false)
    (ample : ∀ resources, entry = some (.next resources) → Ample s.config resources)
    (quiet : admitsPublication decision = false) :
    s'.readBytesSincePublicationCandidateWaited =
      s.readBytesSincePublicationCandidateWaited + servedBytes DirectIoClass.isRead decision := by
  cases moves with
  | stay => rfl
  | insert inserts => exact inserts.keeps_waiting.2.1 before
  | advance isNext advance => exact advance.admission_waited sound waits before (ample _ isNext) quiet

theorem Moves.waits {entry : Option DirectIoCall} (moves : Moves entry s decision s') (waits : Waits s) : Waits s' := by
  cases moves with
  | stay => exact waits
  | insert inserts => exact inserts.waits waits
  | advance isNext advance => exact advance.waits waits

theorem Moves.config_eq {entry : Option DirectIoCall} (moves : Moves entry s decision s') : s'.config = s.config := by
  cases moves with
  | stay => rfl
  | insert inserts =>
    obtain ⟨-, -, -, -, t, pushed, rfl⟩ := inserts
    exact (pushQueue_kept pushed).1
  | advance isNext advance =>
    cases advance with
    | read takes popped service admission => rcases takes with ⟨rfl, _⟩ | ⟨rfl, _⟩ <;> rfl
    | publication popped => rfl
    | candidate popped => rfl
    | cleaner popped => rfl
    | idle => rfl

theorem historyAt_waits (created : DirectIoScheduler.new config = .ok start) (calls : List DirectIoCall) (k : Nat) :
    Waits (historyAt start calls k).scheduler := by
  induction k with
  | zero => exact new_waits created
  | succ k ih => exact (moves_at created calls k).waits ih

theorem historyAt_config (created : DirectIoScheduler.new config = .ok start) (calls : List DirectIoCall) (k : Nat) :
    (historyAt start calls k).scheduler.config = config := by
  induction k with
  | zero =>
    obtain ⟨_, _, built⟩ := bind_eq_ok.mp created
    cases built
    rfl
  | succ k ih => exact (moves_at created calls k).config_eq.trans ih

theorem run_bounds_waiting (created : DirectIoScheduler.new config = .ok start) (calls : List DirectIoCall)
    (i j : Nat) :
    let stateAt := fun k => (historyAt start calls k).scheduler
    let decision := decisionAt start calls
    ((∀ k ∈ Finset.Icc i j, (stateAt k).admissionReads.isEmpty = false) →
      (∀ k ∈ Finset.Ico i j, servesClass .admissionRead (decision k) = false) →
      ∑ k ∈ Finset.Ico i j, servedBytes isResume (decision k) ≤
        config.maximumResumeReadBytesBeforeAdmissionRead.toNat) ∧
    ((∀ k ∈ Finset.Icc i j, (stateAt k).admittedPublications.isEmpty = false) →
      (∀ k ∈ Finset.Ico i j, servesClass .publicationWrite (decision k) = false) →
      ∑ k ∈ Finset.Ico i j, servedBytes DirectIoClass.isRead (decision k) ≤
        config.maximumReadBytesBeforePublicationService.toNat) ∧
    ((∀ k ∈ Finset.Icc i j, (stateAt k).publicationCandidates.isEmpty = false) →
      (∀ k ∈ Finset.Ico i j, ∀ resources, calls[k]? = some (.next resources) → Ample config resources) →
      (∀ k ∈ Finset.Ico i j, admitsPublication (decision k) = false) →
      ∑ k ∈ Finset.Ico i j, servedBytes DirectIoClass.isRead (decision k) ≤
        config.maximumReadBytesBeforePublicationAdmission.toNat) := by
  intro stateAt decision
  have waits := historyAt_waits created calls j
  rw [← historyAt_config created calls j]
  refine ⟨fun queued quiet => ?_, fun queued quiet => ?_, fun queued ample quiet => ?_⟩
  · refine sum_Ico_le_of_counter (fun k => (stateAt k).resumeReadBytesSinceAdmissionReadWaited) waits.resume
      fun k inside => ?_
    exact (moves_at created calls k).resume_waited (queued k (Finset.Ico_subset_Icc_self inside)) (quiet k inside)
  · refine sum_Ico_le_of_counter (fun k => (stateAt k).readBytesSinceAdmittedPublicationAdvanced) waits.service
      fun k inside => ?_
    exact (moves_at created calls k).service_waited (queued k (Finset.Ico_subset_Icc_self inside)) (quiet k inside)
  · refine sum_Ico_le_of_counter (fun k => (stateAt k).readBytesSincePublicationCandidateWaited) waits.admission
      fun k inside => ?_
    have before := queued k (Finset.Ico_subset_Icc_self inside)
    refine (moves_at created calls k).admission_waited (historyAt_sound created) (historyAt_waits created calls k)
      before (fun resources isNext => ?_) (quiet k inside)
    rw [historyAt_config created calls k, ← historyAt_config created calls j]
    exact ample k inside resources isNext

theorem sampleReads_bounded :
    ∑ k ∈ Finset.Ico 5 6, servedBytes isResume (decisionAt sampleScheduler sampleReads k) = 80 ∧
    ∑ k ∈ Finset.Ico 5 6, servedBytes isResume (decisionAt sampleScheduler sampleReads k) ≤ 200 ∧
    ∑ k ∈ Finset.Ico 5 6, servedBytes DirectIoClass.isRead (decisionAt sampleScheduler sampleReads k) ≤ 200 ∧
    ∑ k ∈ Finset.Ico 5 6, servedBytes DirectIoClass.isRead (decisionAt sampleScheduler sampleReads k) ≤ 300 := by
  obtain ⟨resume, service, admission⟩ := @run_bounds_waiting sampleScheduler sampleConfig rfl sampleReads 5 6
  refine ⟨by rfl, resume (by decide) (by decide),
    service (by decide) (by decide), admission (by decide) ?_ (by decide)⟩
  intro k inside resources isNext
  obtain rfl : k = 5 := by
    have := Finset.mem_Ico.mp inside
    omega
  cases isNext
  exact ⟨by decide, by decide, by decide⟩

end Runs

end Glmaxx.Proof.DirectSchedule
