import Glmaxx.Proof.DirectSchedule.Waiting

namespace Glmaxx.Proof.DirectSchedule
open Library Cache Cache.DirectIoScheduler

variable {s s' : DirectIoScheduler} {command : DirectIoCommand} {resources left : DirectIoResources} {candidate : Bool}
  {decision : Option DirectIoDecision} {h h' : DirectIoHistory} {entry : DirectIoCall}

section Flag

/-- While the flag of an admission is up, the admitted publication waits to be served. -/
def Flagged (s : DirectIoScheduler) : Prop :=
  s.publicationAdmittedSinceService = true → s.admittedPublications.isEmpty = false

theorem Inserts.flagged (inserts : Inserts s command candidate s') (flagged : Flagged s) : Flagged s' := by
  obtain ⟨-, -, -, -, t, pushed, rfl⟩ := inserts
  have flag : t.publicationAdmittedSinceService = s.publicationAdmittedSinceService := by
    unfold pushQueue at pushed
    grind
  intro raised
  show t.admittedPublications.isEmpty = false
  rw [pushQueue_admitted pushed]
  exact flagged (flag ▸ raised)

theorem Advance.flagged (advance : Advance resources s decision s') (flagged : Flagged s) : Flagged s' := by
  cases advance with
  | candidate popped reserved => exact fun _ => Heap.isEmpty_push
  | idle => exact flagged
  | _ => nofun

theorem Steps.flagged {result : Except DirectIoScheduleError (Option DirectIoDecision)}
    (steps : Steps entry h result h') (flagged : Flagged h.scheduler) : Flagged h'.scheduler := by
  cases steps with
  | insert inserts => exact inserts.flagged flagged
  | refuse calm => exact flagged
  | advance isNext advance =>
    rw [note_scheduler]
    exact advance.flagged flagged

theorem run_flagged {config : DirectIoSchedulerConfig} (created : DirectIoScheduler.new config = .ok s)
    (calls : List DirectIoCall) : Flagged (DirectIoHistory.run ⟨s, [], [], []⟩ calls).scheduler := by
  have fresh : Flagged s := by
    obtain ⟨_, _, built⟩ := bind_eq_ok.mp created
    cases built
    nofun
  have kept := foldl_invariant (fun h => Conserves h ∧ Flagged h.scheduler)
    (fun h entry kept => ⟨(call_steps kept.1.sound entry).conserves kept.1, (call_steps kept.1.sound entry).flagged kept.2⟩)
    calls _ ⟨run_conserves created [], fresh⟩
  exact kept.2

end Flag

section Idle

/-- Nothing is queued that the snapshot and the watermarks leave to the scheduler. -/
structure Exhausted (resources : DirectIoResources) (s : DirectIoScheduler) : Prop where
  resumeReads : s.resumeReads.isEmpty = true
  admissionReads : s.admissionReads.isEmpty = true
  publications : s.admittedPublications.isEmpty = true
  candidates : s.publicationCandidates.isEmpty = true ∨ ¬Ample s.config resources
  cleaner : s.cleanerWrites.isEmpty = true ∨
    s.config.publicationLowWatermarkCommands.toNat < s.publicationCandidates.items.length

/-- The reservation saturates nowhere: the entries reserved for reads are fewer than all, and both are even. -/
theorem reserve_some (sound : Sound s) (reserved : s.reservePublicationResources resources = some left) :
    Ample s.config resources ∧ left = ⟨resources.freeBuffers - 1, resources.freeDescriptors - 1,
      resources.freeCqEntries - directPublicationCqReservation⟩ := by
  have small : s.config.readReservedCqEntries.toNat + directPublicationCqReservation ≤ 2 ^ 32 - 1 := by
    have valid := sound.config
    unfold validateDirectIoConfig at valid
    obtain ⟨total, doubled, valid⟩ := bind_eq_ok.mp valid
    obtain ⟨reserve, doubled', valid⟩ := bind_eq_ok.mp valid
    split at valid
    · cases valid
    next sane =>
      simp only [not_or, UInt32.not_le, UInt32.lt_iff_toNat_lt, ne_eq, not_not] at sane
      have double := (checkedMul_eq_some.mp (okOr_eq_ok.mp doubled)).2
      have double' := (checkedMul_eq_some.mp (okOr_eq_ok.mp doubled')).2
      have bound := s.config.totalCqEntries.toNat_lt
      unfold directPublicationCqReservation
      omega
  unfold reservePublicationResources at reserved
  rw [Nat.min_eq_left small] at reserved
  dsimp only at reserved
  split at reserved
  · cases reserved
  next enough =>
    cases reserved
    exact ⟨⟨by omega, by omega, by omega⟩, rfl⟩

section
variable (sound : Sound s) (resume : s.resumeReads.isEmpty = true) (reads : s.admissionReads.isEmpty = true)
include sound resume reads

theorem queuedReadBytes_zero : s.queuedReadBytes = 0 := by
  rw [sound.bytes]
  apply Multiset.sum_eq_zero
  intro bytes isIn
  obtain ⟨command, queued, rfl⟩ := Multiset.mem_map.mp isIn
  rw [commands, Heap.isEmpty_iff.mp resume, Heap.isEmpty_iff.mp reads] at queued
  simp only [commandsOf, Multiset.mem_add, Multiset.mem_map] at queued
  rcases queued with (((⟨_, none, -⟩ | ⟨_, none, -⟩) | ⟨_, _, rfl⟩) | ⟨_, _, rfl⟩) | ⟨_, _, rfl⟩
  · cases none
  · cases none
  all_goals rfl

theorem cleanerDue_iff
    (publications : s.admittedPublications.isEmpty = true) : ¬CleanerDue s ↔ s.cleanerWrites.isEmpty = true ∨
      s.config.publicationLowWatermarkCommands.toNat < s.publicationCandidates.items.length := by
  unfold CleanerDue
  rw [queuedReadBytes_zero sound resume reads, Heap.isEmpty_iff.mp publications]
  show ¬(_ ∧ _ ∧ s.publicationCandidates.items.length + 0 ≤ _) ↔ _
  cases s.cleanerWrites.isEmpty <;> simp

end

theorem Advance.exhausted_iff (advance : Advance resources s decision s') (sound : Sound s) (flagged : Flagged s) :
    decision = none ↔ Exhausted resources s := by
  have some {ioClass : DirectIoClass} {queued : QueuedCommand} {heap : Heap QueuedCommand}
      (popped : (s.serviceQueue ioClass).pop = some (queued, heap)) : (s.serviceQueue ioClass).isEmpty ≠ true := by
    intro empty
    rw [Heap.isEmpty_iff.mp empty] at popped
    cases popped
  cases advance with
  | @read ioClass queued heap takes popped service admission =>
    refine ⟨nofun, fun exhausted => ?_⟩
    rcases takes with ⟨rfl, _⟩ | ⟨rfl, _⟩
    · exact absurd exhausted.admissionReads (some popped)
    · exact absurd exhausted.resumeReads (some popped)
  | publication popped =>
    exact ⟨nofun, fun exhausted => absurd exhausted.publications (@some .publicationWrite _ _ popped)⟩
  | @candidate queued heap popped left reserved =>
    refine ⟨nofun, fun exhausted => ?_⟩
    rcases exhausted.candidates with empty | scarce
    · rw [Heap.isEmpty_iff.mp empty] at popped
      cases popped
    · exact absurd (reserve_some sound reserved).1 scarce
  | cleaner popped clean =>
    refine ⟨nofun, fun exhausted => ?_⟩
    exact absurd clean ((cleanerDue_iff sound exhausted.resumeReads exhausted.admissionReads exhausted.publications).mpr
      exhausted.cleaner)
  | idle resume reads publications admission notClean =>
    refine ⟨fun _ => ⟨resume, reads, publications, ?_, (cleanerDue_iff sound resume reads publications).mp notClean⟩,
      fun _ => rfl⟩
    by_cases empty : s.publicationCandidates.isEmpty = true
    · exact .inl empty
    -- nothing admitted waits, so the flag is down and nothing but the snapshot held the candidate back
    have down : s.publicationAdmittedSinceService = false := by
      by_contra raised
      have waits := flagged (Bool.not_eq_false _ ▸ raised)
      rw [publications] at waits
      cases waits
    have due : s.publicationAdmissionDue (s.nextReadBytes s.admissionReadDue) = true := by
      simp [publicationAdmissionDue, down, empty, queuedReadBytes_zero sound resume reads]
    exact .inr fun ample => ample.reserves (admission due)

/-- What an outcome takes of the snapshot: a publication one buffer, one descriptor and two completion entries beyond
those reserved for reads, any other outcome nothing. -/
def Takings (config : DirectIoSchedulerConfig) (resources : DirectIoResources) :
    Option DirectIoDecision × DirectIoResources → Prop
  | (some (.publicationAdmitted _), left) =>
    (resources.freeBuffers = left.freeBuffers + 1 ∧ resources.freeDescriptors = left.freeDescriptors + 1 ∧
      resources.freeCqEntries = left.freeCqEntries + 2) ∧
    config.readReservedBuffers.toNat ≤ left.freeBuffers ∧ config.readReservedDescriptors.toNat ≤ left.freeDescriptors ∧
      config.readReservedCqEntries.toNat ≤ left.freeCqEntries
  | (_, left) => left = resources

theorem Leaves.takings (sound : Sound s) (leaves : Leaves resources s (decision, left)) :
    Takings s.config resources (decision, left) := by
  rcases decision with _ | ⟨command⟩ | ⟨command⟩
  · exact leaves
  · obtain ⟨⟨buffers, descriptors, entries⟩, rfl⟩ := reserve_some sound leaves
    unfold directPublicationCqReservation at entries
    simp only [Takings, directPublicationCqReservation]
    omega
  · exact leaves

/-- The call always ends in an outcome, and in none exactly where there is nothing to hand out. -/
theorem next_work_conserving {config : DirectIoSchedulerConfig} {start : DirectIoScheduler}
    (created : DirectIoScheduler.new config = .ok start) (calls : List DirectIoCall) (resources : DirectIoResources)
    (valid : (DirectIoHistory.run ⟨start, [], [], []⟩ calls).scheduler.validateResources resources = .ok ()) :
    let s := (DirectIoHistory.run ⟨start, [], [], []⟩ calls).scheduler
    ∃ decision left s', DirectIoScheduler.next resources s = (.ok (decision, left), s') ∧
      (decision = none ↔ Exhausted resources s) ∧ Takings s.config resources (decision, left) := by
  intro s
  have sound : Sound s := (run_conserves created calls).sound
  have ends := next_ends sound resources
  cases ran : DirectIoScheduler.next resources s with
  | mk reply s' =>
    cases reply with
    | error failure =>
      have refused := (ends.failure ran).2.1
      rw [valid] at refused
      cases refused
    | ok outcome =>
      obtain ⟨advance, leaves⟩ := ends.value ran
      exact ⟨_, _, s', rfl, advance.exhausted_iff sound (run_flagged created calls), leaves.takings sound⟩

/-- A publication candidate under a snapshot that has just what the reads keep is left waiting. -/
theorem sampleCandidate_waits : let s := (DirectIoHistory.run ⟨sampleScheduler, [], [], []⟩
      [.offerPublication (sampleCommand 1 .publicationWrite 50)]).scheduler
    s.publicationCandidates.isEmpty = false ∧ ∃ left s', DirectIoScheduler.next ⟨2, 2, 4⟩ s = (.ok (none, left), s') := by
  intro s
  obtain ⟨decision, left, s', ran, idle, -⟩ := @next_work_conserving sampleConfig _ rfl
    [.offerPublication (sampleCommand 1 .publicationWrite 50)] ⟨2, 2, 4⟩ rfl
  have exhausted : Exhausted ⟨2, 2, 4⟩ s := ⟨rfl, rfl, rfl, .inr (by unfold Ample; decide), .inl rfl⟩
  cases idle.mpr exhausted
  exact ⟨rfl, left, s', ran⟩

end Idle

end Glmaxx.Proof.DirectSchedule
