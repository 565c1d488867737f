import Glmaxx.Library.Run
import Glmaxx.Proof.DirectSchedule.Steps

namespace Glmaxx.Proof.DirectSchedule
open Library Cache Cache.DirectIoScheduler

variable {s s' : DirectIoScheduler} {command : DirectIoCommand} {ioClass : DirectIoClass} {queued : QueuedCommand}
  {heap heap' : Heap QueuedCommand} {resources : DirectIoResources} {candidate : Bool} {decision : Option DirectIoDecision}
  {entry : DirectIoCall} {h h' : DirectIoHistory}

section Conservation

theorem commands_admitted (popped : s.publicationCandidates.pop = some (queued, heap)) :
    commands (s.admitted queued heap) = commands s := by
  have moved := @commandsOf_pop .publicationWrite _ _ _ popped
  simp only [commands, admitted, moved, commandsOf_push, Multiset.cons_add, Multiset.add_cons]

section
variable (advance : Advance resources s decision s')
include advance

theorem Advance.sound (sound : Sound s) : Sound s' := by
  cases advance with
  | read takes popped service admission =>
    exact { sound.served popped with }
  | publication popped =>
    exact { @Sound.served s .publicationWrite _ _ sound popped with }
  | candidate popped =>
    have stock := commands_admitted popped
    exact { sound with
      ids := stock ▸ sound.ids
      keys := stock ▸ sound.keys
      count := stock ▸ sound.count
      bytes := stock ▸ sound.bytes
      sizes := stock ▸ sound.sizes }
  | cleaner popped =>
    exact { @Sound.served s .cleanerWrite _ _ sound popped with }
  | idle => exact sound

def servedBy : Option DirectIoDecision → Multiset DirectIoCommand
  | some (.service command) => {command}
  | _ => 0

def admittedBy : Option DirectIoDecision → Multiset DirectIoCommand
  | some (.publicationAdmitted command) => {command}
  | _ => 0

def isPublication (command : DirectIoCommand) : Prop := command.ioClass = .publicationWrite

instance : DecidablePred isPublication := fun command => decEq command.ioClass .publicationWrite

theorem Advance.commands : commands s = servedBy decision + commands s' := by
  cases advance with
  | read takes popped service admission => exact commands_served popped
  | publication popped => exact @commands_served s .publicationWrite _ _ popped
  | candidate popped => exact ((commands_admitted popped).symm.trans (zero_add _).symm)
  | cleaner popped => exact @commands_served s .cleanerWrite _ _ popped
  | idle => exact (zero_add _).symm

theorem Advance.publications : admittedBy decision + commandsOf .publicationWrite s.admittedPublications =
      (servedBy decision).filter isPublication + commandsOf .publicationWrite s'.admittedPublications := by
  cases advance with
  | @read ioClass queued heap takes popped service admission =>
    have kept : (served s ioClass queued heap).admittedPublications = s.admittedPublications ∧
        ¬isPublication (queued.intoCommand ioClass) := by
      rcases takes with ⟨rfl, _⟩ | ⟨rfl, _⟩ <;> exact ⟨rfl, nofun⟩
    show 0 + _ = Multiset.filter isPublication {_} + commandsOf _ (served s ioClass queued heap).admittedPublications
    rw [kept.1, Multiset.filter_singleton, if_neg kept.2]
    rfl
  | @publication queued heap popped =>
    have own : isPublication (queued.intoCommand .publicationWrite) := rfl
    show 0 + _ = Multiset.filter isPublication {_} + _
    rw [Multiset.filter_singleton, if_pos own, zero_add]
    exact commandsOf_pop popped
  | candidate popped =>
    show {_} + _ = 0 + _
    rw [zero_add]
    exact commandsOf_push.symm
  | cleaner popped =>
    show 0 + _ = Multiset.filter isPublication {_} + _
    rw [Multiset.filter_singleton, if_neg nofun]
    rfl
  | idle => rfl

end

def Least (command : DirectIoCommand) (queue : Multiset DirectIoCommand) : Prop :=
  command ∈ queue ∧ ∀ other ∈ queue, command.order ≤ other.order

theorem least_of_pop (popped : heap.pop = some (queued, heap')) :
    Least (queued.intoCommand ioClass) (commandsOf ioClass heap) := by
  refine ⟨?_, fun other member => ?_⟩
  · rw [commandsOf_pop popped]
    exact Multiset.mem_cons_self _ _
  · obtain ⟨its, held, rfl⟩ := Multiset.mem_map.mp member
    exact QueuedCommand.order_le ((Heap.pop_eq_some popped).2.2 its held)

def Takes (s : DirectIoScheduler) : Option DirectIoDecision → Prop
  | none => True
  | some (.service command) => Least command (commandsOf command.ioClass (s.serviceQueue command.ioClass))
  | some (.publicationAdmitted command) =>
    isPublication command ∧ Least command (commandsOf .publicationWrite s.publicationCandidates)

theorem Advance.takes (advance : Advance resources s decision s') : Takes s decision := by
  cases advance with
  | read takes popped service admission | publication popped => exact least_of_pop popped
  | candidate popped => exact ⟨rfl, least_of_pop popped⟩
  | cleaner popped => exact least_of_pop popped
  | idle => trivial

end Conservation

section Calls

inductive Steps (entry : DirectIoCall) (h : DirectIoHistory) :
    Except DirectIoScheduleError (Option DirectIoDecision) → DirectIoHistory → Prop where
  | insert {command : DirectIoCommand} {candidate : Bool} {s' : DirectIoScheduler}
      (inserts : Inserts h.scheduler command candidate s') :
      Steps entry h (.ok none) { h with scheduler := s', accepted := h.accepted ++ [command] }
  | refuse {failure : DirectIoScheduleError}
      (calm : ∀ resources, entry = .next resources → failure = .resourceState) : Steps entry h (.error failure) h
  | advance {resources : DirectIoResources} {decision : Option DirectIoDecision} {s' : DirectIoScheduler}
      (isNext : entry = .next resources) (advance : Advance resources h.scheduler decision s') :
      Steps entry h (.ok decision) (DirectIoHistory.note { h with scheduler := s' } decision)

theorem enqueueReady_ends (s : DirectIoScheduler) (command : DirectIoCommand) :
    (enqueueReady command).Ends s (fun _ s' => Inserts s command false s') fun _ s' => s' = s := by
  unfold enqueueReady
  split
  · exact Action.Ends.fail rfl
  · exact insert_ends s command false

theorem offerPublication_ends (s : DirectIoScheduler) (command : DirectIoCommand) :
    (offerPublication command).Ends s (fun _ s' => Inserts s command true s') fun _ s' => s' = s := by
  unfold offerPublication
  split
  · exact Action.Ends.fail rfl
  · exact insert_ends s command true

theorem takeIn_steps {action : Schedules Unit} (other : ∀ resources, entry ≠ .next resources)
    (ends : action.Ends h.scheduler (fun _ s' => Inserts h.scheduler command candidate s') fun _ s' => s' = h.scheduler) :
    (do DirectIoHistory.onScheduler action
        .modify fun h => { h with accepted := h.accepted ++ [command] }
        pure none : Action DirectIoHistory DirectIoScheduleError (Option DirectIoDecision)).Ends h
      (fun decision h' => Steps entry h (.ok decision) h') fun failure h' => Steps entry h (.error failure) h' := by
  have first : (DirectIoHistory.onScheduler action).Ends h
      (fun _ h' => ∃ s', Inserts h.scheduler command candidate s' ∧ h' = { h with scheduler := s' })
      fun failure h' => Steps entry h (.error failure) h' := by
    refine Action.Ends.within ends (fun _ s' inserts => ⟨s', inserts, rfl⟩) fun failure s' same => ?_
    rw [same]
    exact .refuse fun resources isNext => absurd isNext (other resources)
  refine first.bind fun _ h' came => ?_
  obtain ⟨s', inserts, rfl⟩ := came
  exact Steps.insert inserts

theorem call_steps (sound : Sound h.scheduler) (entry : DirectIoCall) :
    Steps entry h (DirectIoHistory.call entry h).1 (DirectIoHistory.call entry h).2 := by
  refine Action.Ends.relates ?_
  cases entry with
  | enqueueReady command => exact takeIn_steps nofun (enqueueReady_ends _ command)
  | offerPublication command => exact takeIn_steps nofun (offerPublication_ends _ command)
  | next resources =>
    have first : (DirectIoHistory.onScheduler (DirectIoScheduler.next resources)).Ends h
        (fun outcome h' => ∃ s', Advance resources h.scheduler outcome.1 s' ∧ h' = { h with scheduler := s' })
        fun failure h' => Steps (.next resources) h (.error failure) h' := by
      refine Action.Ends.within (next_ends sound resources) (fun outcome s' came => ⟨s', came.1, rfl⟩) ?_
      rintro failure s' ⟨rfl, -, rfl⟩
      exact .refuse fun _ _ => rfl
    refine first.bind fun outcome h' came => ?_
    obtain ⟨s', advance, rfl⟩ := came
    exact Steps.advance rfl advance

end Calls

section Conserved

/-- Every command taken in is served or still queued, every publication admitted is served or still waits to be,
and the sets and counters of the scheduler are those of its queues. -/
structure Conserves (h : DirectIoHistory) : Prop where
  sound : Sound h.scheduler
  commands : (h.accepted : Multiset DirectIoCommand) = h.served + commands h.scheduler
  publications : (h.admitted : Multiset DirectIoCommand) =
    (h.served : Multiset DirectIoCommand).filter isPublication +
      commandsOf .publicationWrite h.scheduler.admittedPublications

theorem note_scheduler : (h.note decision).scheduler = h.scheduler := by
  rcases decision with _ | ⟨command⟩ | ⟨command⟩ <;> rfl

theorem note_accepted : (h.note decision).accepted = h.accepted := by
  rcases decision with _ | ⟨command⟩ | ⟨command⟩ <;> rfl

theorem note_served : ((h.note decision).served : Multiset DirectIoCommand) = h.served + servedBy decision := by
  rcases decision with _ | ⟨command⟩ | ⟨command⟩
  · exact (add_zero _).symm
  · exact (add_zero _).symm
  · exact (Multiset.coe_add h.served [command]).symm

theorem note_admitted : ((h.note decision).admitted : Multiset DirectIoCommand) = h.admitted + admittedBy decision := by
  rcases decision with _ | ⟨command⟩ | ⟨command⟩
  · exact (add_zero _).symm
  · exact (Multiset.coe_add h.admitted [command]).symm
  · exact (add_zero _).symm

theorem pushQueue_admitted {t : DirectIoScheduler} (pushed : s.pushQueue queued candidate ioClass = .ok t) :
    t.admittedPublications = s.admittedPublications := by
  cases ioClass with
  | publicationWrite =>
    cases candidate with
    | true => cases pushed; rfl
    | false => cases pushed
  | _ => cases pushed; rfl

theorem Steps.conserves {result : Except DirectIoScheduleError (Option DirectIoDecision)} (kept : Conserves h)
    (steps : Steps entry h result h') : Conserves h' := by
  cases steps with
  | @insert command candidate s' inserts =>
    refine ⟨inserts.sound kept.sound, ?_, ?_⟩
    · show ((h.accepted ++ [command] : List DirectIoCommand) : Multiset DirectIoCommand) =
        h.served + DirectSchedule.commands s'
      rw [inserts.commands, Multiset.add_cons, ← kept.commands, ← Multiset.coe_add, add_comm]
      rfl
    · obtain ⟨-, -, -, -, t, pushed, rfl⟩ := inserts
      show _ = _ + commandsOf _ t.admittedPublications
      rw [pushQueue_admitted pushed]
      exact kept.publications
  | refuse calm => exact kept
  | @advance resources decision s' isNext advance =>
    refine ⟨?_, ?_, ?_⟩
    · rw [note_scheduler]
      exact advance.sound kept.sound
    · rw [note_accepted, note_served, note_scheduler]
      show (h.accepted : Multiset DirectIoCommand) = h.served + servedBy decision + DirectSchedule.commands s'
      rw [kept.commands, advance.commands, add_assoc]
    · rw [note_admitted, note_served, note_scheduler, Multiset.filter_add]
      show (h.admitted : Multiset DirectIoCommand) + admittedBy decision = _ + _ + commandsOf _ s'.admittedPublications
      rw [kept.publications, add_assoc, add_comm _ (admittedBy decision), advance.publications, add_assoc]

theorem run_conserves {config : DirectIoSchedulerConfig} (created : DirectIoScheduler.new config = .ok s)
    (calls : List DirectIoCall) : Conserves (DirectIoHistory.run ⟨s, [], [], []⟩ calls) := by
  refine foldl_invariant Conserves (fun h entry kept => (call_steps kept.sound entry).conserves kept) calls _ ?_
  have empty : commands s = 0 ∧ s.admittedPublications = .empty := by
    obtain ⟨_, _, built⟩ := bind_eq_ok.mp created
    cases built
    exact ⟨rfl, rfl⟩
  refine ⟨new_sound created, ?_, ?_⟩
  · rw [empty.1]
    rfl
  · show _ = _ + commandsOf _ s.admittedPublications
    rw [empty.2]
    rfl

theorem run_conserves_commands {config : DirectIoSchedulerConfig} {start : DirectIoScheduler}
    (created : DirectIoScheduler.new config = .ok start) (calls : List DirectIoCall) (entry : DirectIoCall) :
    let h := DirectIoHistory.run ⟨start, [], [], []⟩ calls
    Conserves h ∧
    (∀ failure, (DirectIoHistory.call entry h).1 = .error failure → (DirectIoHistory.call entry h).2 = h ∧
      ∀ resources, entry = .next resources → failure ≠ .invariant ∧ failure ≠ .overflow) ∧
    ∀ decision, (DirectIoHistory.call entry h).1 = .ok decision → Takes h.scheduler decision := by
  intro h
  have kept : Conserves h := run_conserves created calls
  have steps := call_steps kept.sound entry
  refine ⟨kept, fun failure failed => ?_, fun decision done => ?_⟩
  · rw [failed] at steps
    generalize (DirectIoHistory.call entry h).2 = h' at steps ⊢
    cases steps with
    | refuse calm =>
      refine ⟨rfl, fun resources isNext => ?_⟩
      rw [calm resources isNext]
      exact ⟨nofun, nofun⟩
  · rw [done] at steps
    generalize (DirectIoHistory.call entry h).2 = h' at steps
    cases steps with
    | insert inserts => trivial
    | advance isNext advance => exact advance.takes

def sampleConfig : DirectIoSchedulerConfig where
  maximumQueuedCommands := 32
  totalBuffers := 8
  readReservedBuffers := 2
  totalDescriptors := 8
  readReservedDescriptors := 2
  totalCqEntries := 16
  readReservedCqEntries := 4
  readLowWatermarkBytes := 100
  readHighWatermarkBytes := 200
  publicationLowWatermarkCommands := 0
  maximumReadCommandBytes := 200
  maximumResumeReadBytesBeforeAdmissionRead := 200
  maximumReadBytesBeforePublicationAdmission := 300
  maximumReadBytesBeforePublicationService := 200

def sampleScheduler : DirectIoScheduler :=
  ⟨sampleConfig, .empty, .empty, .empty, .empty, .empty, ∅, ∅, 0, 0, 0, 0, 0, false⟩

def sampleCommand (id : Nat) (ioClass : DirectIoClass) (bytes : UInt64) : DirectIoCommand :=
  ⟨id, ioClass, ⟨1, id, 0, 0⟩, bytes⟩

def sampleReads : List DirectIoCall :=
  [.offerPublication (sampleCommand 1 .publicationWrite 50), .offerPublication (sampleCommand 2 .publicationWrite 50),
    .enqueueReady (sampleCommand 3 .admissionRead 60), .enqueueReady (sampleCommand 4 .resumeRead 80),
    .next ⟨8, 8, 16⟩, .next ⟨7, 7, 14⟩]

theorem sampleReads_conserved : let h := DirectIoHistory.run ⟨sampleScheduler, [], [], []⟩ sampleReads
    (h.admitted = [sampleCommand 1 .publicationWrite 50] ∧ h.served = [sampleCommand 4 .resumeRead 80]) ∧
      Conserves h := by
  intro h
  have ran : h.admitted = [sampleCommand 1 .publicationWrite 50] ∧ h.served = [sampleCommand 4 .resumeRead 80] := by
    decide
  exact ⟨ran, (@run_conserves_commands sampleConfig _ rfl sampleReads (.next ⟨7, 7, 14⟩)).1⟩

end Conserved

end Glmaxx.Proof.DirectSchedule
