import Glmaxx.Cache.DirectSchedule

namespace Glmaxx.Proof.DirectSchedule
open Library Cache Cache.DirectIoScheduler

variable {s s' : DirectIoScheduler} {command : DirectIoCommand} {ioClass : DirectIoClass} {queued : QueuedCommand}
  {heap : Heap QueuedCommand} {resources : DirectIoResources} {candidate : Bool}

section Queues

def commandsOf (ioClass : DirectIoClass) (heap : Heap QueuedCommand) : Multiset DirectIoCommand :=
  heap.toMultiset.map (QueuedCommand.intoCommand ioClass)

def commands (s : DirectIoScheduler) : Multiset DirectIoCommand :=
  commandsOf .resumeRead s.resumeReads + commandsOf .admissionRead s.admissionReads +
    commandsOf .publicationWrite s.publicationCandidates + commandsOf .publicationWrite s.admittedPublications +
    commandsOf .cleanerWrite s.cleanerWrites

def orderKey (command : DirectIoCommand) : DirectIoClass × DirectIoOrderKey := (command.ioClass, command.order)

def readBytes (command : DirectIoCommand) : Nat := if command.ioClass.isRead then command.bytes.toNat else 0

structure Sound (s : DirectIoScheduler) : Prop where
  config : validateDirectIoConfig s.config = .ok ()
  ids : s.commandIds.val = (commands s).map (·.commandId)
  keys : s.orderKeys.val = (commands s).map orderKey
  count : s.queuedCommands = (commands s).card
  room : s.queuedCommands ≤ s.config.maximumQueuedCommands.toNat
  bytes : s.queuedReadBytes = ((commands s).map readBytes).sum
  sizes : ∀ command ∈ commands s, readBytes command ≤ s.config.maximumReadCommandBytes.toNat

theorem commandsOf_push : commandsOf ioClass (heap.push queued) = queued.intoCommand ioClass ::ₘ commandsOf ioClass heap := by
  unfold commandsOf
  rw [Heap.toMultiset_push, Multiset.map_cons]

theorem commandsOf_pop {rest : Heap QueuedCommand} (popped : heap.pop = some (queued, rest)) :
    commandsOf ioClass heap = queued.intoCommand ioClass ::ₘ commandsOf ioClass rest := by
  unfold commandsOf
  rw [(Heap.pop_eq_some popped).1, Multiset.map_cons]

theorem commands_setServiceQueue (popped : (s.serviceQueue ioClass).pop = some (queued, heap)) :
    commands s = queued.intoCommand ioClass ::ₘ commands (s.setServiceQueue heap ioClass) := by
  have moved := @commandsOf_pop ioClass _ _ _ popped
  unfold commands
  cases ioClass <;>
    simp only [serviceQueue] at moved <;>
    simp only [setServiceQueue, moved, Multiset.cons_add, Multiset.add_cons]

theorem new_sound {config : DirectIoSchedulerConfig} (created : DirectIoScheduler.new config = .ok s) : Sound s := by
  unfold DirectIoScheduler.new at created
  obtain ⟨_, valid, built⟩ := bind_eq_ok.mp created
  cases built
  exact ⟨valid, rfl, rfl, rfl, Nat.zero_le _, rfl, fun command member => (Multiset.notMem_zero _ member).elim⟩

end Queues

section Service

def served (s : DirectIoScheduler) (ioClass : DirectIoClass) (queued : QueuedCommand) (heap : Heap QueuedCommand) :
    DirectIoScheduler :=
  { s.setServiceQueue heap ioClass with
    commandIds := s.commandIds.erase queued.commandId
    orderKeys := s.orderKeys.erase (ioClass, queued.order)
    queuedCommands := s.queuedCommands - 1
    queuedReadBytes := s.queuedReadBytes - readBytes (queued.intoCommand ioClass) }

theorem commands_served (popped : (s.serviceQueue ioClass).pop = some (queued, heap)) :
    commands s = queued.intoCommand ioClass ::ₘ commands (served s ioClass queued heap) := by
  have moved := commands_setServiceQueue popped
  cases ioClass <;> exact moved

theorem Sound.served (sound : Sound s) (popped : (s.serviceQueue ioClass).pop = some (queued, heap)) :
    Sound (served s ioClass queued heap) := by
  have stock := commands_served popped
  have config : (DirectSchedule.served s ioClass queued heap).config = s.config := by cases ioClass <;> rfl
  refine ⟨?_, ?_, ?_, ?_, ?_, ?_, fun command member => ?_⟩
  · rw [config]
    exact sound.config
  · show (s.commandIds.erase queued.commandId).val = _
    rw [Finset.erase_val, sound.ids, stock, Multiset.map_cons]
    exact Multiset.erase_cons_head _ _
  · show (s.orderKeys.erase (ioClass, queued.order)).val = _
    rw [Finset.erase_val, sound.keys, stock, Multiset.map_cons]
    exact Multiset.erase_cons_head _ _
  · show s.queuedCommands - 1 = _
    rw [sound.count, stock, Multiset.card_cons, Nat.add_sub_cancel]
  · rw [config]
    exact le_trans (Nat.sub_le _ _) sound.room
  · show s.queuedReadBytes - readBytes (queued.intoCommand ioClass) = _
    rw [sound.bytes, stock, Multiset.map_cons, Multiset.sum_cons, Nat.add_sub_cancel_left]
  · rw [config]
    exact sound.sizes command (stock ▸ Multiset.mem_cons_of_mem member)

theorem removeCommandId_ok {id : Nat} (has : id ∈ s.commandIds) :
    removeCommandId id s = (.ok (), { s with commandIds := s.commandIds.erase id }) :=
  Action.updates_ok (if_pos has)

theorem removeOrderKey_ok {key : DirectIoClass × DirectIoOrderKey} (has : key ∈ s.orderKeys) :
    removeOrderKey key s = (.ok (), { s with orderKeys := s.orderKeys.erase key }) :=
  Action.updates_ok (if_pos has)

theorem countDown_ok (some : 1 ≤ s.queuedCommands) :
    countDown s = (.ok (), { s with queuedCommands := s.queuedCommands - 1 }) := by
  refine Action.updates_ok ?_
  rw [checkedSub_of_le some]
  rfl

theorem takeReadBytes_ok (enough : readBytes command ≤ s.queuedReadBytes) :
    takeReadBytes command s = (.ok (), { s with queuedReadBytes := s.queuedReadBytes - readBytes command }) := by
  unfold takeReadBytes
  unfold readBytes at enough ⊢
  cases read : command.ioClass.isRead with
  | true =>
    rw [read, if_pos rfl] at enough
    rw [if_pos rfl, if_pos rfl]
    refine Action.updates_ok ?_
    rw [checkedSub_of_le enough]
    rfl
  | false => rfl

theorem popService_ok (sound : Sound s) (popped : (s.serviceQueue ioClass).pop = some (queued, heap)) :
    popService ioClass s = (.ok (queued.intoCommand ioClass), served s ioClass queued heap) := by
  have stock := commands_served popped
  have member : queued.intoCommand ioClass ∈ commands s := stock ▸ Multiset.mem_cons_self _ _
  have hasId : queued.commandId ∈ s.commandIds := by
    rw [← Finset.mem_val, sound.ids]
    exact Multiset.mem_map_of_mem _ member
  have hasKey : (ioClass, queued.order) ∈ s.orderKeys := by
    rw [← Finset.mem_val, sound.keys]
    exact Multiset.mem_map_of_mem orderKey member
  have counted : 1 ≤ s.queuedCommands := by
    rw [sound.count]
    exact Multiset.card_pos_iff_exists_mem.mpr ⟨_, member⟩
  have weighed : readBytes (queued.intoCommand ioClass) ≤ s.queuedReadBytes := by
    rw [sound.bytes, stock, Multiset.map_cons, Multiset.sum_cons]
    exact Nat.le_add_right _ _
  have taken : popQueue ioClass s = (.ok queued, s.setServiceQueue heap ioClass) := by
    refine Action.updates_ok ?_
    rw [popped]
  refine (Action.bind_ok taken).trans ?_
  cases ioClass <;>
    (refine (Action.bind_ok (removeCommandId_ok (by exact hasId))).trans ?_
     refine (Action.bind_ok (removeOrderKey_ok (by exact hasKey))).trans ?_
     refine (Action.bind_ok (countDown_ok (by exact counted))).trans ?_
     exact Action.bind_ok (takeReadBytes_ok (by exact weighed)))

end Service

section Insert

structure Inserts (s : DirectIoScheduler) (command : DirectIoCommand) (candidate : Bool) (s' : DirectIoScheduler) :
    Prop where
  room : s.queuedCommands < s.config.maximumQueuedCommands.toNat
  newId : command.commandId ∉ s.commandIds
  newKey : orderKey command ∉ s.orderKeys
  size : readBytes command ≤ s.config.maximumReadCommandBytes.toNat
  pushed : ∃ t, s.pushQueue (.ofCommand command) candidate command.ioClass = .ok t ∧ s' = { t with
    commandIds := Insert.insert command.commandId s.commandIds
    orderKeys := Insert.insert (orderKey command) s.orderKeys
    queuedCommands := s.queuedCommands + 1
    queuedReadBytes := s.queuedReadBytes + readBytes command }

theorem pushQueue_kept {t : DirectIoScheduler} (pushed : s.pushQueue queued candidate ioClass = .ok t) :
    t.config = s.config ∧ t.commandIds = s.commandIds ∧ t.orderKeys = s.orderKeys ∧
      t.queuedCommands = s.queuedCommands := by
  cases ioClass with
  | publicationWrite =>
    cases candidate with
    | true => cases pushed; exact ⟨rfl, rfl, rfl, rfl⟩
    | false => cases pushed
  | _ => cases pushed; exact ⟨rfl, rfl, rfl, rfl⟩

theorem readBytesAfter_ok {bytes : Nat} (summed : s.readBytesAfter command = .ok bytes) :
    bytes = s.queuedReadBytes + readBytes command := by
  unfold readBytesAfter at summed
  unfold readBytes
  split at summed
  next read =>
    rw [if_pos read]
    exact checkedAdd_some (okOr_eq_ok.mp summed)
  next other =>
    rw [if_neg other]
    exact (Except.ok.inj summed).symm

theorem insert_ends (s : DirectIoScheduler) (command : DirectIoCommand) (candidate : Bool) :
    (DirectIoScheduler.insert command candidate).Ends s (fun _ s' => Inserts s command candidate s')
      fun _ s' => s' = s := by
  refine Action.Ends.updates (fun a s' changed => ?_) fun _ _ => rfl
  obtain ⟨_, valid, changed⟩ := bind_eq_ok.mp changed
  split at changed
  · cases changed
  next room =>
    split at changed
    · cases changed
    next newId =>
      split at changed
      · cases changed
      next newKey =>
        split at changed
        · cases changed
        next size =>
          obtain ⟨bytes, summed, changed⟩ := bind_eq_ok.mp changed
          obtain ⟨t, pushed, changed⟩ := bind_eq_ok.mp changed
          cases changed
          obtain ⟨-, ids, keys, count⟩ := pushQueue_kept pushed
          refine ⟨Nat.not_le.mp room, newId, newKey, ?_, t, pushed, ?_⟩
          · unfold readBytes
            split
            next read => exact Nat.le_of_not_lt fun large => size ⟨read, UInt64.lt_iff_toNat_lt.mpr large⟩
            next => exact Nat.zero_le _
          · rw [ids, keys, count, readBytesAfter_ok summed]
            rfl

theorem Inserts.commands (inserts : Inserts s command candidate s') : commands s' = command ::ₘ commands s := by
  obtain ⟨-, -, -, -, t, pushed, rfl⟩ := inserts
  obtain ⟨commandId, ioClass, order, bytes⟩ := command
  cases ioClass with
  | publicationWrite =>
    cases candidate with
    | true =>
      cases pushed
      simp only [DirectSchedule.commands, commandsOf_push, Multiset.cons_add, Multiset.add_cons]
      rfl
    | false => cases pushed
  | _ =>
    cases pushed
    simp only [DirectSchedule.commands, commandsOf_push, Multiset.cons_add, Multiset.add_cons]
    rfl

theorem Inserts.sound (inserts : Inserts s command candidate s') (sound : Sound s) : Sound s' := by
  have stock := inserts.commands
  obtain ⟨room, newId, newKey, size, t, pushed, same⟩ := inserts
  have config : s'.config = s.config := by rw [same]; exact (pushQueue_kept pushed).1
  refine ⟨?_, ?_, ?_, ?_, ?_, ?_, fun other member => ?_⟩
  · rw [config]
    exact sound.config
  · rw [stock, same, Multiset.map_cons, ← sound.ids]
    exact Finset.insert_val_of_notMem newId
  · rw [stock, same, Multiset.map_cons, ← sound.keys]
    exact Finset.insert_val_of_notMem newKey
  · rw [stock, same, Multiset.card_cons, ← sound.count]
  · rw [config, same]
    exact room
  · rw [stock, same, Multiset.map_cons, Multiset.sum_cons, ← sound.bytes]
    exact Nat.add_comm _ _
  · rw [config]
    rcases Multiset.mem_cons.mp (stock ▸ member) with rfl | earlier
    · exact size
    · exact sound.sizes other earlier

end Insert

section Next

def TakesRead (s : DirectIoScheduler) (ioClass : DirectIoClass) : Prop :=
  ioClass = .admissionRead ∧ (s.admissionReadDue = true ∨ s.resumeReads.isEmpty = true) ∨
    ioClass = .resumeRead ∧ s.admissionReadDue = false

def CleanerDue (s : DirectIoScheduler) : Prop :=
  s.cleanerWrites.isEmpty = false ∧ s.queuedReadBytes ≤ s.config.readLowWatermarkBytes.toNat ∧
    s.publicationCandidates.items.length + s.admittedPublications.items.length ≤
      s.config.publicationLowWatermarkCommands.toNat

inductive Advance (resources : DirectIoResources) (s : DirectIoScheduler) :
    Option DirectIoDecision → DirectIoScheduler → Prop where
  | read {ioClass : DirectIoClass} {queued : QueuedCommand} {heap : Heap QueuedCommand}
      (takes : TakesRead s ioClass) (popped : (s.serviceQueue ioClass).pop = some (queued, heap))
      (service : s.publicationServiceDue (some queued.bytes.toNat) = false)
      (admission : s.publicationAdmissionDue (some queued.bytes.toNat) = true →
        s.reservePublicationResources resources = none) :
      Advance resources s (some (.service (queued.intoCommand ioClass)))
        (recordReadService ioClass queued.bytes.toNat
          { served s ioClass queued heap with publicationAdmittedSinceService := false })
  | publication {queued : QueuedCommand} {heap : Heap QueuedCommand}
      (popped : s.admittedPublications.pop = some (queued, heap)) :
      Advance resources s (some (.service (queued.intoCommand .publicationWrite)))
        { served s .publicationWrite queued heap with
          readBytesSinceAdmittedPublicationAdvanced := 0, publicationAdmittedSinceService := false }
  | candidate {queued : QueuedCommand} {heap : Heap QueuedCommand}
      (popped : s.publicationCandidates.pop = some (queued, heap)) {left : DirectIoResources}
      (reserved : s.reservePublicationResources resources = some left) :
      Advance resources s (some (.publicationAdmitted (queued.intoCommand .publicationWrite)))
        (s.admitted queued heap)
  | cleaner {queued : QueuedCommand} {heap : Heap QueuedCommand}
      (popped : s.cleanerWrites.pop = some (queued, heap)) (clean : CleanerDue s) :
      Advance resources s (some (.service (queued.intoCommand .cleanerWrite)))
        { served s .cleanerWrite queued heap with publicationAdmittedSinceService := false }
  | idle (resume : s.resumeReads.isEmpty = true) (reads : s.admissionReads.isEmpty = true)
      (publications : s.admittedPublications.isEmpty = true)
      (admission : s.publicationAdmissionDue (s.nextReadBytes s.admissionReadDue) = true →
        s.reservePublicationResources resources = none)
      (notClean : ¬CleanerDue s) : Advance resources s none s

/-- A publication leaves what the reservation left of the snapshot, any other outcome all of it. -/
def Leaves (resources : DirectIoResources) (s : DirectIoScheduler) : Option DirectIoDecision × DirectIoResources → Prop
  | (some (.publicationAdmitted _), left) => s.reservePublicationResources resources = some left
  | (_, left) => left = resources

theorem serveRead_ok (sound : Sound s) (popped : (s.serviceQueue ioClass).pop = some (queued, heap)) :
    serveRead ioClass s = (.ok (.service (queued.intoCommand ioClass)),
      recordReadService ioClass queued.bytes.toNat
        { served s ioClass queued heap with publicationAdmittedSinceService := false }) :=
  (Action.bind_ok (popService_ok sound popped)).trans rfl

theorem servePublication_ok (sound : Sound s) (popped : s.admittedPublications.pop = some (queued, heap)) :
    servePublication s = (.ok (.service (queued.intoCommand .publicationWrite)),
      { served s .publicationWrite queued heap with
        readBytesSinceAdmittedPublicationAdvanced := 0, publicationAdmittedSinceService := false }) :=
  (Action.bind_ok (@popService_ok s .publicationWrite _ _ sound popped)).trans rfl

theorem serveCleaner_ok (sound : Sound s) (popped : s.cleanerWrites.pop = some (queued, heap)) :
    serveCleaner s = (.ok (.service (queued.intoCommand .cleanerWrite)),
      { served s .cleanerWrite queued heap with publicationAdmittedSinceService := false }) :=
  (Action.bind_ok (@popService_ok s .cleanerWrite _ _ sound popped)).trans rfl

theorem nextReadBytes_eq (takes : TakesRead s ioClass) (popped : (s.serviceQueue ioClass).pop = some (queued, heap)) :
    s.nextReadBytes s.admissionReadDue = some queued.bytes.toNat := by
  have front := (Heap.pop_eq_some popped).2.1
  unfold nextReadBytes
  rcases takes with ⟨rfl, due | none⟩ | ⟨rfl, notDue⟩
  · have front : s.admissionReads.peek = some queued := front
    rw [due, if_pos rfl, front]
    rfl
  · have front : s.admissionReads.peek = some queued := front
    rw [Heap.isEmpty_iff.mp none, front]
    split <;> rfl
  · have front : s.resumeReads.peek = some queued := front
    rw [notDue, front]
    rfl

theorem card_commandsOf : (commandsOf ioClass heap).card = heap.items.length := by
  unfold commandsOf
  rw [Multiset.card_map]
  rfl

theorem config_bounds {config : DirectIoSchedulerConfig} (valid : validateDirectIoConfig config = .ok ()) :
    config.maximumQueuedCommands.toNat ≤ maxDirectIoQueuedCommands ∧
    config.maximumReadCommandBytes ≤ config.maximumResumeReadBytesBeforeAdmissionRead ∧
    config.maximumReadCommandBytes ≤ config.maximumReadBytesBeforePublicationAdmission ∧
    config.maximumReadCommandBytes ≤ config.maximumReadBytesBeforePublicationService := by
  unfold validateDirectIoConfig at valid
  obtain ⟨_, _, valid⟩ := bind_eq_ok.mp valid
  obtain ⟨_, _, valid⟩ := bind_eq_ok.mp valid
  split at valid
  · cases valid
  next sane =>
    simp only [not_or, Nat.not_lt, UInt64.not_lt] at sane
    obtain ⟨-, most, -, -, -, -, -, -, -, -, -, -, resume, admission, service⟩ := sane
    exact ⟨most, resume, admission, service⟩

theorem publicationPressure_ok (sound : Sound s) :
    s.publicationPressure = .ok (s.publicationCandidates.items.length + s.admittedPublications.items.length) := by
  have counted : s.publicationCandidates.items.length + s.admittedPublications.items.length ≤ s.queuedCommands := by
    rw [sound.count]
    simp only [commands, Multiset.card_add, card_commandsOf]
    omega
  have most : s.queuedCommands ≤ 65536 := le_trans sound.room (config_bounds sound.config).1
  unfold publicationPressure
  rw [checkedAdd, if_pos (by omega)]
  show okOr (narrow 32 _) _ = _
  rw [narrow, if_pos (by omega)]
  rfl

theorem serveOther_ends (sound : Sound s)
    (service : s.publicationServiceDue (s.nextReadBytes s.admissionReadDue) = false)
    (admission : s.publicationAdmissionDue (s.nextReadBytes s.admissionReadDue) = true →
      s.reservePublicationResources resources = none) :
    ∃ decision s', serveOther s = (.ok decision, s') ∧ Advance resources s decision s' ∧
      Leaves resources s (decision, resources) := by
  have reads {ioClass : DirectIoClass} (takes : TakesRead s ioClass)
      (waiting : (s.serviceQueue ioClass).isEmpty = false) :
      ∃ command s', serveRead ioClass s = (.ok (.service command), s') ∧
        Advance resources s (some (.service command)) s' := by
    obtain ⟨queued, heap, popped⟩ := Heap.pop_of_nonempty waiting
    have next := nextReadBytes_eq takes popped
    exact ⟨_, _, serveRead_ok sound popped,
      .read takes popped (by rw [← next]; exact service) (by rw [← next]; exact admission)⟩
  have wrap {x : Schedules DirectIoDecision} {decision : DirectIoDecision} {s' : DirectIoScheduler}
      (ran : x s = (.ok decision, s')) : (some <$> x) s = (.ok (some decision), s') :=
    (Action.bind_ok ran).trans rfl
  show ∃ decision s', (if s.admissionReadDue then some <$> serveRead .admissionRead
    else if s.resumeReads.isEmpty = false then some <$> serveRead .resumeRead
    else if s.admissionReads.isEmpty = false then some <$> serveRead .admissionRead
    else if s.admittedPublications.isEmpty = false then some <$> servePublication
    else _) s = (.ok decision, s') ∧ _
  cases due : s.admissionReadDue with
  | true =>
    have waiting : s.admissionReads.isEmpty = false := by
      unfold admissionReadDue at due
      split at due
      · cases due
      next some => exact Bool.not_eq_true _ ▸ some
    obtain ⟨command, s', ran, advance⟩ := reads (.inl ⟨rfl, .inl due⟩) waiting
    exact ⟨_, _, wrap ran, advance, rfl⟩
  | false =>
    cases resume : s.resumeReads.isEmpty with
    | false =>
      obtain ⟨command, s', ran, advance⟩ := reads (.inr ⟨rfl, due⟩) resume
      exact ⟨_, _, wrap ran, advance, rfl⟩
    | true =>
      cases waiting : s.admissionReads.isEmpty with
      | false =>
        obtain ⟨command, s', ran, advance⟩ := reads (.inl ⟨rfl, .inr resume⟩) waiting
        exact ⟨_, _, wrap ran, advance, rfl⟩
      | true =>
        cases publications : s.admittedPublications.isEmpty with
        | false =>
          obtain ⟨queued, heap, popped⟩ := Heap.pop_of_nonempty publications
          exact ⟨_, _, wrap (servePublication_ok sound popped), .publication popped, rfl⟩
        | true =>
          have pressure : (.reads publicationPressure : Schedules Nat) s = (.ok _, s) :=
            Action.reads_ok (publicationPressure_ok sound)
          by_cases clean : CleanerDue s
          · obtain ⟨queued, heap, popped⟩ := Heap.pop_of_nonempty clean.1
            exact ⟨_, _, (Action.bind_ok pressure).trans ((congrFun (if_pos clean) s).trans
              (wrap (serveCleaner_ok sound popped))), .cleaner popped clean, rfl⟩
          · exact ⟨_, _, (Action.bind_ok pressure).trans (congrFun (if_neg clean) s),
              .idle resume waiting publications admission clean, rfl⟩

theorem next_ends (sound : Sound s) (resources : DirectIoResources) : (DirectIoScheduler.next resources).Ends s
      (fun outcome s' => Advance resources s outcome.1 s' ∧ Leaves resources s outcome)
      fun failure s' => failure = .resourceState ∧ s.validateResources resources = .error failure ∧ s' = s := by
  cases valid : s.validateResources resources with
  | error failure =>
    have read : (.reads fun s => s.validateResources resources : Schedules Unit) s = (.error failure, s) := by
      show (s.validateResources resources, s) = _
      rw [valid]
    have refused : failure = .resourceState := by
      unfold validateResources at valid
      split at valid <;> cases valid
      rfl
    exact Action.Ends.of_error (Action.bind_error read) ⟨refused, rfl, rfl⟩
  | ok _ =>
    have read : (.reads fun s => s.validateResources resources : Schedules Unit) s = (.ok (), s) :=
      Action.reads_ok valid
    refine Action.Ends.step read (Action.Ends.step rfl ?_)
    dsimp only
    cases service : s.publicationServiceDue (s.nextReadBytes s.admissionReadDue) with
    | true =>
      have waiting : s.admittedPublications.isEmpty = false := by
        unfold publicationServiceDue at service
        simp only [Bool.and_eq_true, Bool.not_eq_true'] at service
        exact service.1
      obtain ⟨queued, heap, popped⟩ := Heap.pop_of_nonempty waiting
      exact Action.Ends.step (servePublication_ok sound popped) (Action.Ends.pure ⟨.publication popped, rfl⟩)
    | false =>
      cases reserved : (if s.publicationAdmissionDue (s.nextReadBytes s.admissionReadDue) then
          s.reservePublicationResources resources else none) with
      | some left =>
        have granted : s.publicationCandidates.isEmpty = false ∧
            s.reservePublicationResources resources = some left := by
          split at reserved
          next due =>
            unfold publicationAdmissionDue at due
            simp only [Bool.and_eq_true, Bool.not_eq_true'] at due
            exact ⟨due.1.2, reserved⟩
          next => cases reserved
        obtain ⟨queued, heap, popped⟩ := Heap.pop_of_nonempty granted.1
        have moved : admitCandidate s =
            (.ok (.publicationAdmitted (queued.intoCommand .publicationWrite)), s.admitted queued heap) := by
          refine Action.updates_ok ?_
          rw [popped]
        exact Action.Ends.step moved (Action.Ends.pure ⟨.candidate popped granted.2, granted.2⟩)
      | none =>
        have admission : s.publicationAdmissionDue (s.nextReadBytes s.admissionReadDue) = true →
            s.reservePublicationResources resources = none := by
          intro due
          rw [due] at reserved
          exact reserved
        obtain ⟨decision, s', ran, advance⟩ := serveOther_ends sound service admission
        exact Action.Ends.step ran (Action.Ends.pure advance)

end Next

end Glmaxx.Proof.DirectSchedule
