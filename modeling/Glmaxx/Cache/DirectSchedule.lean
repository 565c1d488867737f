import Mathlib.Data.Prod.Lex
import Mathlib.Data.Finset.Basic
import Glmaxx.Cache.Page
import Glmaxx.Library.Action
import Glmaxx.Library.Heap

namespace Glmaxx.Cache
open Library

def maxDirectIoQueuedCommands : Nat := 65536

/-- The completions a publication keeps room for: its own and that of a cancellation. -/
def directPublicationCqReservation : Nat := 2

inductive DirectIoClass where
  | resumeRead
  | admissionRead
  | publicationWrite
  | cleanerWrite
deriving DecidableEq, Repr

def DirectIoClass.isRead : DirectIoClass → Bool
  | .resumeRead | .admissionRead => true
  | .publicationWrite | .cleanerWrite => false

structure DirectIoOrderKey where
  serviceEpoch : Nat
  ownerId : Nat
  pageOrdinal : Nat
  operationOrdinal : Nat
deriving DecidableEq, Repr

structure DirectIoCommand where
  commandId : Nat
  ioClass : DirectIoClass
  order : DirectIoOrderKey
  bytes : UInt64
deriving DecidableEq

structure QueuedCommand where
  order : DirectIoOrderKey
  commandId : Nat
  bytes : UInt64
deriving DecidableEq

section Order

def DirectIoOrderKey.fields (key : DirectIoOrderKey) : Nat ×ₗ Nat ×ₗ Nat ×ₗ Nat :=
  toLex (key.serviceEpoch, toLex (key.ownerId, toLex (key.pageOrdinal, key.operationOrdinal)))

theorem DirectIoOrderKey.fields_injective : Function.Injective DirectIoOrderKey.fields := by
  rintro ⟨a, b, c, d⟩ ⟨a', b', c', d'⟩ same
  simp only [DirectIoOrderKey.fields, EmbeddingLike.apply_eq_iff_eq, Prod.mk.injEq] at same
  obtain ⟨rfl, rfl, rfl, rfl⟩ := same
  rfl

instance : LinearOrder DirectIoOrderKey := LinearOrder.lift' DirectIoOrderKey.fields DirectIoOrderKey.fields_injective

def QueuedCommand.fields (queued : QueuedCommand) : DirectIoOrderKey ×ₗ Nat ×ₗ Nat :=
  toLex (queued.order, toLex (queued.commandId, queued.bytes.toNat))

theorem QueuedCommand.fields_injective : Function.Injective QueuedCommand.fields := by
  rintro ⟨a, b, c⟩ ⟨a', b', c'⟩ same
  simp only [QueuedCommand.fields, EmbeddingLike.apply_eq_iff_eq, Prod.mk.injEq, UInt64.toNat_inj] at same
  obtain ⟨rfl, rfl, rfl⟩ := same
  rfl

instance : LinearOrder QueuedCommand := LinearOrder.lift' QueuedCommand.fields QueuedCommand.fields_injective

theorem QueuedCommand.order_le {first second : QueuedCommand} (le : first ≤ second) : first.order ≤ second.order := by
  have lex : first.fields ≤ second.fields := le
  rcases Prod.Lex.le_iff.mp lex with less | ⟨same, _⟩
  · exact le_of_lt less
  · exact le_of_eq same

end Order

def QueuedCommand.ofCommand (command : DirectIoCommand) : QueuedCommand :=
  ⟨command.order, command.commandId, command.bytes⟩

def QueuedCommand.intoCommand (ioClass : DirectIoClass) (queued : QueuedCommand) : DirectIoCommand :=
  ⟨queued.commandId, ioClass, queued.order, queued.bytes⟩

structure DirectIoSchedulerConfig where
  maximumQueuedCommands : UInt32
  totalBuffers : UInt32
  readReservedBuffers : UInt32
  totalDescriptors : UInt32
  readReservedDescriptors : UInt32
  totalCqEntries : UInt32
  readReservedCqEntries : UInt32
  readLowWatermarkBytes : UInt64
  readHighWatermarkBytes : UInt64
  publicationLowWatermarkCommands : UInt32
  maximumReadCommandBytes : UInt64
  maximumResumeReadBytesBeforeAdmissionRead : UInt64
  maximumReadBytesBeforePublicationAdmission : UInt64
  maximumReadBytesBeforePublicationService : UInt64
deriving DecidableEq

structure DirectIoResources where
  freeBuffers : Nat
  freeDescriptors : Nat
  freeCqEntries : Nat
deriving DecidableEq

inductive DirectIoDecision where
  | publicationAdmitted (command : DirectIoCommand)
  | service (command : DirectIoCommand)
deriving DecidableEq

inductive DirectIoScheduleError where
  | config
  | command
  | «class»
  | publicationRequiresAdmission
  | duplicateCommand
  | duplicateOrder
  | queueFull
  | readTooLarge
  | resourceState
  | allocation
  | overflow
  | invariant
deriving DecidableEq, Repr

structure DirectIoScheduler where
  config : DirectIoSchedulerConfig
  resumeReads : Heap QueuedCommand
  admissionReads : Heap QueuedCommand
  publicationCandidates : Heap QueuedCommand
  admittedPublications : Heap QueuedCommand
  cleanerWrites : Heap QueuedCommand
  commandIds : Finset Nat
  orderKeys : Finset (DirectIoClass × DirectIoOrderKey)
  queuedCommands : Nat
  queuedReadBytes : Nat
  resumeReadBytesSinceAdmissionReadWaited : Nat
  readBytesSincePublicationCandidateWaited : Nat
  readBytesSinceAdmittedPublicationAdvanced : Nat
  publicationAdmittedSinceService : Bool
deriving DecidableEq

abbrev Schedules := Action DirectIoScheduler DirectIoScheduleError

def validateDirectIoConfig (config : DirectIoSchedulerConfig) : Except DirectIoScheduleError Unit := do
  let requiredCqEntries ← okOr (checkedMul 32 config.totalDescriptors.toNat 2) .overflow
  let requiredReadCqEntries ← okOr (checkedMul 32 config.readReservedDescriptors.toNat 2) .overflow
  if config.maximumQueuedCommands = 0
      ∨ config.maximumQueuedCommands.toNat > maxDirectIoQueuedCommands
      ∨ config.totalBuffers = 0
      ∨ config.readReservedBuffers ≥ config.totalBuffers
      ∨ config.totalDescriptors = 0
      ∨ config.readReservedDescriptors ≥ config.totalDescriptors
      ∨ config.totalCqEntries.toNat ≠ requiredCqEntries
      ∨ config.readReservedCqEntries.toNat ≠ requiredReadCqEntries
      ∨ config.readReservedCqEntries ≥ config.totalCqEntries
      ∨ config.readLowWatermarkBytes > config.readHighWatermarkBytes
      ∨ config.publicationLowWatermarkCommands > config.maximumQueuedCommands
      ∨ config.maximumReadCommandBytes = 0
      ∨ config.maximumResumeReadBytesBeforeAdmissionRead < config.maximumReadCommandBytes
      ∨ config.maximumReadBytesBeforePublicationAdmission < config.maximumReadCommandBytes
      ∨ config.maximumReadBytesBeforePublicationService < config.maximumReadCommandBytes then
    .error .config
  else .ok ()

def validateDirectIoCommand (command : DirectIoCommand) : Except DirectIoScheduleError Unit :=
  if command.commandId = 0 ∨ command.order.serviceEpoch = 0 ∨ command.order.ownerId = 0 ∨ command.bytes = 0 then
    .error .command
  else .ok ()

def wouldExceed (current next limit : Nat) : Bool :=
  match checkedAdd 64 current next with
  | none => true
  | some value => value > limit

def addWaited (current bytes limit : Nat) : Nat := min (min (current + bytes) (2 ^ 64 - 1)) limit

namespace DirectIoScheduler

def new (config : DirectIoSchedulerConfig) : Except DirectIoScheduleError DirectIoScheduler := do
  validateDirectIoConfig config
  .ok ⟨config, .empty, .empty, .empty, .empty, .empty, ∅, ∅, 0, 0, 0, 0, 0, false⟩

section Insert

/-- The heap a new command goes to, and the counter that starts where it was empty. -/
def pushQueue (queued : QueuedCommand) (publicationCandidate : Bool) (s : DirectIoScheduler) :
    DirectIoClass → Except DirectIoScheduleError DirectIoScheduler
  | .resumeRead => .ok { s with resumeReads := s.resumeReads.push queued }
  | .admissionRead => .ok { s with
      resumeReadBytesSinceAdmissionReadWaited :=
        if s.admissionReads.isEmpty then 0 else s.resumeReadBytesSinceAdmissionReadWaited
      admissionReads := s.admissionReads.push queued }
  | .publicationWrite =>
    if publicationCandidate then .ok { s with
      readBytesSincePublicationCandidateWaited :=
        if s.publicationCandidates.isEmpty then 0 else s.readBytesSincePublicationCandidateWaited
      publicationCandidates := s.publicationCandidates.push queued }
    else .error .publicationRequiresAdmission
  | .cleanerWrite => .ok { s with cleanerWrites := s.cleanerWrites.push queued }

def readBytesAfter (command : DirectIoCommand) (s : DirectIoScheduler) : Except DirectIoScheduleError Nat :=
  if command.ioClass.isRead then okOr (checkedAdd 64 s.queuedReadBytes command.bytes.toNat) .overflow
  else .ok s.queuedReadBytes

def insert (command : DirectIoCommand) (publicationCandidate : Bool) : Schedules Unit :=
  .updates fun s => do
    validateDirectIoCommand command
    if s.queuedCommands ≥ s.config.maximumQueuedCommands.toNat then .error .queueFull
    else if command.commandId ∈ s.commandIds then .error .duplicateCommand
    else if (command.ioClass, command.order) ∈ s.orderKeys then .error .duplicateOrder
    else if command.ioClass.isRead ∧ command.bytes > s.config.maximumReadCommandBytes then .error .readTooLarge
    else do
      let nextReadBytes ← s.readBytesAfter command
      let pushed ← s.pushQueue (.ofCommand command) publicationCandidate command.ioClass
      .ok ((), { pushed with
        commandIds := Insert.insert command.commandId pushed.commandIds
        orderKeys := Insert.insert (command.ioClass, command.order) pushed.orderKeys
        queuedCommands := pushed.queuedCommands + 1
        queuedReadBytes := nextReadBytes })

def enqueueReady (command : DirectIoCommand) : Schedules Unit :=
  if command.ioClass = .publicationWrite then .fail .publicationRequiresAdmission
  else insert command false

def offerPublication (command : DirectIoCommand) : Schedules Unit :=
  if command.ioClass ≠ .publicationWrite then .fail .class
  else insert command true

end Insert

section Service

/-- The heap `pop_service` takes from. -/
def serviceQueue (s : DirectIoScheduler) : DirectIoClass → Heap QueuedCommand
  | .resumeRead => s.resumeReads
  | .admissionRead => s.admissionReads
  | .publicationWrite => s.admittedPublications
  | .cleanerWrite => s.cleanerWrites

def setServiceQueue (s : DirectIoScheduler) (heap : Heap QueuedCommand) : DirectIoClass → DirectIoScheduler
  | .resumeRead => { s with resumeReads := heap }
  | .admissionRead => { s with admissionReads := heap }
  | .publicationWrite => { s with admittedPublications := heap }
  | .cleanerWrite => { s with cleanerWrites := heap }

def popQueue (ioClass : DirectIoClass) : Schedules QueuedCommand :=
  .updates fun s => match (s.serviceQueue ioClass).pop with
    | none => .error .invariant
    | some (queued, heap) => .ok (queued, s.setServiceQueue heap ioClass)

def removeCommandId (commandId : Nat) : Schedules Unit :=
  .updates fun s =>
    if commandId ∈ s.commandIds then .ok ((), { s with commandIds := s.commandIds.erase commandId })
    else .error .invariant

def removeOrderKey (key : DirectIoClass × DirectIoOrderKey) : Schedules Unit :=
  .updates fun s =>
    if key ∈ s.orderKeys then .ok ((), { s with orderKeys := s.orderKeys.erase key }) else .error .invariant

def countDown : Schedules Unit :=
  .updates fun s => do
    let rest ← okOr (checkedSub s.queuedCommands 1) .invariant
    .ok ((), { s with queuedCommands := rest })

def takeReadBytes (command : DirectIoCommand) : Schedules Unit :=
  if command.ioClass.isRead then .updates fun s => do
    let rest ← okOr (checkedSub s.queuedReadBytes command.bytes.toNat) .invariant
    .ok ((), { s with queuedReadBytes := rest })
  else pure ()

def popService (ioClass : DirectIoClass) : Schedules DirectIoCommand := do
  let queued ← popQueue ioClass
  let command := queued.intoCommand ioClass
  removeCommandId command.commandId
  removeOrderKey (ioClass, command.order)
  countDown
  takeReadBytes command
  pure command

def resumeWaitedAfter (s : DirectIoScheduler) (ioClass : DirectIoClass) (bytes : Nat) : Nat :=
  if ioClass = .resumeRead ∧ s.admissionReads.isEmpty = false then
    addWaited s.resumeReadBytesSinceAdmissionReadWaited bytes
      s.config.maximumResumeReadBytesBeforeAdmissionRead.toNat
  else if ioClass = .admissionRead then 0
  else if s.admissionReads.isEmpty then 0
  else s.resumeReadBytesSinceAdmissionReadWaited

def recordReadService (ioClass : DirectIoClass) (bytes : Nat) (s : DirectIoScheduler) : DirectIoScheduler :=
  { s with
    resumeReadBytesSinceAdmissionReadWaited := s.resumeWaitedAfter ioClass bytes
    readBytesSincePublicationCandidateWaited :=
      if s.publicationCandidates.isEmpty = false then
        addWaited s.readBytesSincePublicationCandidateWaited bytes
          s.config.maximumReadBytesBeforePublicationAdmission.toNat
      else 0
    readBytesSinceAdmittedPublicationAdvanced :=
      if s.admittedPublications.isEmpty = false then
        addWaited s.readBytesSinceAdmittedPublicationAdvanced bytes
          s.config.maximumReadBytesBeforePublicationService.toNat
      else 0 }

end Service

section Next

def admissionReadDue (s : DirectIoScheduler) : Bool :=
  if s.admissionReads.isEmpty then false
  else match s.resumeReads.peek with
    | none => true
    | some nextResume =>
      s.resumeReadBytesSinceAdmissionReadWaited ≥ s.config.maximumResumeReadBytesBeforeAdmissionRead.toNat
        || wouldExceed s.resumeReadBytesSinceAdmissionReadWaited nextResume.bytes.toNat
          s.config.maximumResumeReadBytesBeforeAdmissionRead.toNat

def nextReadBytes (s : DirectIoScheduler) (admissionReadDue : Bool) : Option Nat :=
  if admissionReadDue then s.admissionReads.peek.map (·.bytes.toNat)
  else (s.resumeReads.peek.or s.admissionReads.peek).map (·.bytes.toNat)

/-- A waiting counter has reached its limit, or the next read would take it over. -/
def waitedOut (waited : Nat) (next : Option Nat) (limit : Nat) : Bool :=
  waited ≥ limit || next.any fun bytes => wouldExceed waited bytes limit

def publicationServiceDue (s : DirectIoScheduler) (next : Option Nat) : Bool :=
  !s.admittedPublications.isEmpty && (!next.isSome ||
    waitedOut s.readBytesSinceAdmittedPublicationAdvanced next s.config.maximumReadBytesBeforePublicationService.toNat)

def publicationAdmissionDue (s : DirectIoScheduler) (next : Option Nat) : Bool :=
  !s.publicationAdmittedSinceService && !s.publicationCandidates.isEmpty &&
    (s.queuedReadBytes ≤ s.config.readHighWatermarkBytes.toNat ||
      waitedOut s.readBytesSincePublicationCandidateWaited next
        s.config.maximumReadBytesBeforePublicationAdmission.toNat)

/-- The resources left by a publication, where those reserved for reads stay free. -/
def reservePublicationResources (s : DirectIoScheduler) (resources : DirectIoResources) : Option DirectIoResources :=
  let minimumCq := min (s.config.readReservedCqEntries.toNat + directPublicationCqReservation) (2 ^ 32 - 1)
  if resources.freeBuffers ≤ s.config.readReservedBuffers.toNat
      ∨ resources.freeDescriptors ≤ s.config.readReservedDescriptors.toNat
      ∨ resources.freeCqEntries < minimumCq then none
  else some ⟨resources.freeBuffers - 1, resources.freeDescriptors - 1,
    resources.freeCqEntries - directPublicationCqReservation⟩

def validateResources (s : DirectIoScheduler) (resources : DirectIoResources) : Except DirectIoScheduleError Unit :=
  if resources.freeBuffers > s.config.totalBuffers.toNat
      ∨ resources.freeDescriptors > s.config.totalDescriptors.toNat
      ∨ resources.freeCqEntries > s.config.totalCqEntries.toNat then .error .resourceState
  else .ok ()

def serveRead (ioClass : DirectIoClass) : Schedules DirectIoDecision := do
  let command ← popService ioClass
  .modify fun s => recordReadService ioClass command.bytes.toNat { s with publicationAdmittedSinceService := false }
  pure (.service command)

def servePublication : Schedules DirectIoDecision := do
  let command ← popService .publicationWrite
  .modify fun s => { s with
    readBytesSinceAdmittedPublicationAdvanced := 0, publicationAdmittedSinceService := false }
  pure (.service command)

def serveCleaner : Schedules DirectIoDecision := do
  let command ← popService .cleanerWrite
  .modify fun s => { s with publicationAdmittedSinceService := false }
  pure (.service command)

def admitted (queued : QueuedCommand) (rest : Heap QueuedCommand) (s : DirectIoScheduler) : DirectIoScheduler :=
  { s with
    publicationCandidates := rest
    admittedPublications := s.admittedPublications.push queued
    readBytesSincePublicationCandidateWaited := 0
    readBytesSinceAdmittedPublicationAdvanced :=
      if (s.admittedPublications.push queued).items.length = 1 then 0
      else s.readBytesSinceAdmittedPublicationAdvanced
    publicationAdmittedSinceService := true }

def admitCandidate : Schedules DirectIoDecision :=
  .updates fun s => match s.publicationCandidates.pop with
    | none => .error .invariant
    | some (queued, rest) =>
      .ok (.publicationAdmitted (queued.intoCommand .publicationWrite), s.admitted queued rest)

def publicationPressure (s : DirectIoScheduler) : Except DirectIoScheduleError Nat := do
  let sum ← okOr
    (checkedAdd 64 s.publicationCandidates.items.length s.admittedPublications.items.length) .overflow
  okOr (narrow 32 sum) .overflow

def serveOther : Schedules (Option DirectIoDecision) := do
  let s ← .get
  if s.admissionReadDue then some <$> serveRead .admissionRead
  else if s.resumeReads.isEmpty = false then some <$> serveRead .resumeRead
  else if s.admissionReads.isEmpty = false then some <$> serveRead .admissionRead
  else if s.admittedPublications.isEmpty = false then some <$> servePublication
  else do
    let pressure ← .reads publicationPressure
    if s.cleanerWrites.isEmpty = false ∧ s.queuedReadBytes ≤ s.config.readLowWatermarkBytes.toNat
        ∧ pressure ≤ s.config.publicationLowWatermarkCommands.toNat then some <$> serveCleaner
    else pure none

def next (resources : DirectIoResources) : Schedules (Option DirectIoDecision × DirectIoResources) := do
  .reads fun s => s.validateResources resources
  let s ← .get
  let nextRead := s.nextReadBytes s.admissionReadDue
  if s.publicationServiceDue nextRead then do
    let decision ← servePublication
    pure (some decision, resources)
  else match if s.publicationAdmissionDue nextRead then s.reservePublicationResources resources else none with
    | some left => do
      let decision ← admitCandidate
      pure (some decision, left)
    | none => do
      let decision ← serveOther
      pure (decision, resources)

end Next

end DirectIoScheduler

inductive DirectIoCall where
  | enqueueReady (command : DirectIoCommand)
  | offerPublication (command : DirectIoCommand)
  | next (resources : DirectIoResources)

/-- A scheduler with the commands it has taken in, admitted and served so far. -/
structure DirectIoHistory where
  scheduler : DirectIoScheduler
  accepted : List DirectIoCommand
  admitted : List DirectIoCommand
  served : List DirectIoCommand

namespace DirectIoHistory

def onScheduler {α : Type} (action : Schedules α) : Action DirectIoHistory DirectIoScheduleError α :=
  action.within DirectIoHistory.scheduler (fun scheduler h => { h with scheduler := scheduler }) id

def note (h : DirectIoHistory) : Option DirectIoDecision → DirectIoHistory
  | none => h
  | some (.publicationAdmitted command) => { h with admitted := h.admitted ++ [command] }
  | some (.service command) => { h with served := h.served ++ [command] }

def call : DirectIoCall → Action DirectIoHistory DirectIoScheduleError (Option DirectIoDecision)
  | .enqueueReady command => do
    onScheduler (DirectIoScheduler.enqueueReady command)
    .modify fun h => { h with accepted := h.accepted ++ [command] }
    pure none
  | .offerPublication command => do
    onScheduler (DirectIoScheduler.offerPublication command)
    .modify fun h => { h with accepted := h.accepted ++ [command] }
    pure none
  | .next resources => do
    let outcome ← onScheduler (DirectIoScheduler.next resources)
    .modify fun h => h.note outcome.1
    pure outcome.1

def run (h : DirectIoHistory) (calls : List DirectIoCall) : DirectIoHistory :=
  calls.foldl (fun h entry => (call entry h).2) h

end DirectIoHistory

end Glmaxx.Cache
