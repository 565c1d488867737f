import Glmaxx.Library.TreeMap
import Glmaxx.Cache.DirectState

namespace Glmaxx.Cache
open Std Library

abbrev DirectRestoreTicketId := Nat

structure DirectRestoreRequest where
  requestId : Nat
  tenantId : Nat
  requiredCapability : DirectTierCapability
deriving DecidableEq, Repr

structure DirectRestoreConfig where
  maximumTickets : UInt32
  maximumWaitersPerTicket : UInt32
  maximumHashJobs : UInt32
  maximumPhysicalBytes : UInt64
  maximumLogicalBytesPerTenant : UInt64
  bufferSlots : UInt32
  descriptorCapacity : UInt32
deriving DecidableEq, Repr

inductive DirectRestoreState where
  | planned
  | bufferReserved
  | readSubmitted
  | dataReady
  | hashVerified
  | abandoned
  | failed
deriving DecidableEq, Repr

inductive DirectRestoreAdmission where
  | created (ticket : DirectRestoreTicketId)
  | joined (ticket : DirectRestoreTicketId)
deriving DecidableEq, Repr

inductive DirectCancellation where
  | waiterRemoved
  | releasedBeforeSubmission
  | abandonedWithoutAsyncCancel
  | asyncCancelSubmitted
  | waitingForHashAcknowledgement
  | releasedAfterVerification
deriving DecidableEq, Repr

inductive DirectReadCompletion where
  | exact
  | cancelled
  | failed
deriving DecidableEq, Repr

inductive DirectHashState where
  | none
  | reserved
  | queued
  | running
deriving DecidableEq, Repr

structure DirectHashJob where
  ticket : DirectRestoreTicketId
  buffer : DirectBufferId
deriving DecidableEq, Repr

structure DirectHashResult where
  job : DirectHashJob
  verified : Bool
  workerSharedAllocation : Option Bool
deriving DecidableEq, Repr

inductive DirectChecksumOutcome where
  | verified (integrity sharedAllocation : Bool)
  | bufferFailure (failure : DirectBufferStateError)
  | workerPanic
deriving DecidableEq, Repr

structure DirectChecksumCompletion where
  job : DirectHashJob
  outcome : DirectChecksumOutcome
deriving DecidableEq, Repr

/-- What a worker is sent; `buffer` names the slot whose bytes it shares. -/
structure DirectChecksumTask where
  job : DirectHashJob
  record : DirectExtentRecord
  buffer : DirectBufferId
  expectedAddress : Nat
deriving DecidableEq

/-- The pool as the table sees it; its threads and channels answer through the calls below. -/
structure DirectChecksumWorkers where
  maximumJobs : Nat
  workerCount : Nat
  failed : Bool
deriving DecidableEq, Repr

/-- What `try_send` on the command channel answers. -/
inductive TrySend where
  | sent
  | full
  | disconnected
deriving DecidableEq, Repr

/-- What `try_recv` on the completion channel answers. -/
inductive TryReceive where
  | received (completion : DirectChecksumCompletion)
  | empty
  | disconnected
deriving DecidableEq, Repr

inductive DirectRestoreError where
  | config
  | request
  | record
  | catalog
  | capability
  | duplicateRequest
  | missingRequest
  | missingTicket
  | ticketCapacity
  | waiterCapacity
  | physicalCapacity
  | tenantCapacity
  | state
  | duplicateCompletion
  | completionOutstanding
  | integrity
  | cqConfig
  | cqWait
  | cqUnderflow
  | hashWait
  | hashBinding
  | hashExecutionMode
  | workerConfig
  | workerSpawn
  | workerWait
  | workerUnavailable
  | workerDisconnected
  | workerBinding
  | workerPanic
  | accounting
  | overflow
  | buffer (failure : DirectBufferStateError)
  | descriptor (failure : DirectDescriptorError)
  | descriptorBinding
deriving DecidableEq, Repr

inductive DirectCqKind where
  | original
  | asyncCancel
  | fsync
deriving DecidableEq, Repr

structure DirectCqTracker where
  descriptorCapacity : Nat
  cqEntries : Nat
  original : Nat
  cancel : Nat
  fsync : Nat
  nodropPresent : Bool
deriving DecidableEq, Repr

namespace DirectCqTracker

def new (descriptorCapacity cqEntries : Nat) (nodropPresent : Bool) :
    Except DirectRestoreError DirectCqTracker := do
  let requiredCq ← okOr (checkedMul 32 descriptorCapacity 2) .overflow
  if descriptorCapacity = 0 ∨ cqEntries ≠ requiredCq then
    throw .cqConfig
  pure { descriptorCapacity, cqEntries, original := 0, cancel := 0, fsync := 0, nodropPresent }

def bumped (cq : DirectCqTracker) : DirectCqKind → Except DirectRestoreError DirectCqTracker
  | .original => do
    let original ← okOr (checkedAdd 32 cq.original 1) .overflow
    pure { cq with original }
  | .asyncCancel => do
    let cancel ← okOr (checkedAdd 32 cq.cancel 1) .overflow
    pure { cq with cancel }
  | .fsync => do
    let fsync ← okOr (checkedAdd 32 cq.fsync 1) .overflow
    pure { cq with fsync }

def trySubmit (cq : DirectCqTracker) (kind : DirectCqKind) : Except DirectRestoreError DirectCqTracker := do
  let next ← cq.bumped kind
  let total ← okOr ((checkedAdd 32 next.original next.cancel).bind fun sum => checkedAdd 32 sum next.fsync)
    .overflow
  if next.original > cq.descriptorCapacity ∨ next.fsync > cq.descriptorCapacity ∨ total > cq.cqEntries then
    throw .cqWait
  pure next

def count (cq : DirectCqTracker) : DirectCqKind → Nat
  | .original => cq.original
  | .asyncCancel => cq.cancel
  | .fsync => cq.fsync

def validateCompletion (cq : DirectCqTracker) (kind : DirectCqKind) : Except DirectRestoreError Unit :=
  if cq.count kind = 0 then .error .cqUnderflow else .ok ()

def decremented (cq : DirectCqTracker) : DirectCqKind → DirectCqTracker
  | .original => { cq with original := cq.original - 1 }
  | .asyncCancel => { cq with cancel := cq.cancel - 1 }
  | .fsync => { cq with fsync := cq.fsync - 1 }

def complete (cq : DirectCqTracker) (kind : DirectCqKind) : Except DirectRestoreError DirectCqTracker := do
  cq.validateCompletion kind
  pure (cq.decremented kind)

def outstanding (cq : DirectCqTracker) : Nat := cq.original + cq.cancel + cq.fsync

end DirectCqTracker

structure DirectRestoreWaiter where
  tenantId : Nat
  requiredCapability : DirectTierCapability
deriving DecidableEq, Repr

structure DirectRestoreTicket where
  record : DirectExtentRecord
  catalogEpoch : Nat
  catalogRecordSha256 : Bytes32
  state : DirectRestoreState
  buffer : Option DirectBufferId
  waiters : ExtTreeMap Nat DirectRestoreWaiter
  originalPending : Bool
  cancelPending : Bool
  originalToken : Option DirectCompletionToken
  cancelToken : Option DirectCompletionToken
  hashState : DirectHashState

structure DirectRestoreTable where
  config : DirectRestoreConfig
  nextTicket : Nat
  tickets : ExtTreeMap DirectRestoreTicketId DirectRestoreTicket
  requestToTicket : ExtTreeMap Nat DirectRestoreTicketId
  logicalByTenant : ExtTreeMap Nat Nat
  physicalBytes : Nat
  activeHashJobs : Nat
  checksumWorkers : Option DirectChecksumWorkers
  checksumWorkersRetired : Bool
  buffers : DirectBufferPool
  descriptors : DirectDescriptorTable
  cq : DirectCqTracker

def capabilitySatisfies : DirectTierCapability → DirectTierCapability → Bool
  | .mtp, _ => true
  | .target, .target => true
  | .target, .mtp => false

def validateRestoreRequest (request : DirectRestoreRequest) : Except DirectRestoreError Unit :=
  if request.requestId = 0 ∨ request.tenantId = 0 then .error .request else .ok ()

def liftBuffer {α : Type} : Except DirectBufferStateError α → Except DirectRestoreError α
  | .ok a => .ok a
  | .error failure => .error (.buffer failure)

def liftDescriptor {α : Type} : Except DirectDescriptorError α → Except DirectRestoreError α
  | .ok a => .ok a
  | .error failure => .error (.descriptor failure)

/-- A method of the table on `&mut self`. -/
abbrev Restore (α : Type) := Action DirectRestoreTable DirectRestoreError α

namespace DirectRestoreTable

def new (allocation : Nat → Option Nat) (config : DirectRestoreConfig) (nodropPresent : Bool) :
    Except DirectRestoreError DirectRestoreTable := do
  if config.maximumTickets = 0 ∨ config.maximumWaitersPerTicket = 0 ∨ config.maximumHashJobs = 0
      ∨ config.maximumPhysicalBytes = 0 ∨ config.maximumLogicalBytesPerTenant = 0
      ∨ config.bufferSlots = 0 ∨ config.descriptorCapacity = 0
      ∨ config.maximumHashJobs > config.bufferSlots then
    throw .config
  let cqEntries ← okOr (checkedMul 32 config.descriptorCapacity.toNat 2) .overflow
  let buffers ← liftBuffer (DirectBufferPool.new allocation config.bufferSlots.toNat)
  let descriptors ← liftDescriptor (DirectDescriptorTable.new config.descriptorCapacity.toNat)
  let cq ← DirectCqTracker.new config.descriptorCapacity.toNat cqEntries nodropPresent
  pure { config, nextTicket := 1, tickets := ∅, requestToTicket := ∅, logicalByTenant := ∅,
         physicalBytes := 0, activeHashJobs := 0, checksumWorkers := none,
         checksumWorkersRetired := false, buffers, descriptors, cq }

def onBuffers {α : Type} (x : Action DirectBufferPool DirectBufferStateError α) : Restore α :=
  x.within (·.buffers) (fun buffers table => { table with buffers }) .buffer

def onDescriptors {α : Type} (x : Action DirectDescriptorTable DirectDescriptorError α) : Restore α :=
  x.within (·.descriptors) (fun descriptors table => { table with descriptors }) .descriptor

def onCq (f : DirectCqTracker → Except DirectRestoreError DirectCqTracker) : Restore Unit :=
  .updates fun table => do pure ((), { table with cq := ← f table.cq })

def ticket (id : DirectRestoreTicketId) : Restore DirectRestoreTicket :=
  .reads fun table => okOr table.tickets[id]? .missingTicket

/-- An assignment through `ticket_mut`. -/
def ticketMut (id : DirectRestoreTicketId) (f : DirectRestoreTicket → DirectRestoreTicket) : Restore Unit :=
  .updates fun table => do
    let ticket ← okOr table.tickets[id]? .missingTicket
    pure ((), { table with tickets := table.tickets.insert id (f ticket) })

def tenantLogicalBytes (table : DirectRestoreTable) (tenantId : Nat) : Nat :=
  table.logicalByTenant[tenantId]?.getD 0

def validateTenantCharge (tenantId bytes : Nat) : Restore Unit :=
  .reads fun table => do
    let next ← okOr (checkedAdd 64 (table.tenantLogicalBytes tenantId) bytes) .overflow
    if next > table.config.maximumLogicalBytesPerTenant.toNat then
      throw .tenantCapacity

/-- `entry(..).or_default()` leaves a zero behind when the addition fails. -/
def chargeTenant (tenantId bytes : Nat) : Restore Unit := do
  validateTenantCharge tenantId bytes
  .modify fun table =>
    { table with logicalByTenant := table.logicalByTenant.insert tenantId (table.tenantLogicalBytes tenantId) }
  .updates fun table => do
    let charge ← okOr (checkedAdd 64 (table.tenantLogicalBytes tenantId) bytes) .overflow
    pure ((), { table with logicalByTenant := table.logicalByTenant.insert tenantId charge })

def unchargeTenant (tenantId bytes : Nat) : Restore Unit :=
  .updates fun table => do
    let charge ← okOr table.logicalByTenant[tenantId]? .accounting
    let charge ← okOr (checkedSub charge bytes) .accounting
    let logicalByTenant :=
      if charge = 0 then table.logicalByTenant.erase tenantId
      else table.logicalByTenant.insert tenantId charge
    pure ((), { table with logicalByTenant })

/-- The first ticket, in the order of ids, that the predicate of `compatible_ticket` accepts. -/
def compatibleTicket (table : DirectRestoreTable) (record : DirectExtentRecord) (catalogEpoch : Nat)
    (catalogRecordSha256 : Bytes32) (requiredCapability : DirectTierCapability) :
    Option DirectRestoreTicketId :=
  (table.tickets.toList.find? fun (_, ticket) =>
    decide (ticket.record = record ∧ ticket.catalogEpoch = catalogEpoch
      ∧ ticket.catalogRecordSha256 = catalogRecordSha256
      ∧ capabilitySatisfies ticket.record.capability requiredCapability
      ∧ ¬(ticket.state = .abandoned ∨ ticket.state = .failed))).map (·.1)

/-- The branch of `plan` that adds a waiter to a ticket. -/
def joinTicket (request : DirectRestoreRequest) (ticketId : DirectRestoreTicketId) :
    Restore DirectRestoreAdmission := do
  let table ← .get
  let ticket ← ticket ticketId
  .failIf (ticket.waiters.size ≥ table.config.maximumWaitersPerTicket.toNat) .waiterCapacity
  chargeTenant request.tenantId request.requiredCapability.logicalBytes
  ticketMut ticketId fun ticket =>
    { ticket with waiters :=
        ticket.waiters.insert request.requestId ⟨request.tenantId, request.requiredCapability⟩ }
  .modify fun table =>
    { table with requestToTicket := table.requestToTicket.insert request.requestId ticketId }
  pure (.joined ticketId)

/-- The branch of `plan` that opens a ticket. -/
def createTicket (request : DirectRestoreRequest) (record : DirectExtentRecord) (catalogEpoch : Nat)
    (catalogRecordSha256 : Bytes32) : Restore DirectRestoreAdmission := do
  let table ← .get
  .failIf (table.tickets.size ≥ table.config.maximumTickets.toNat) .ticketCapacity
  let nextPhysical ← .reads fun table =>
    okOr (checkedAdd 64 table.physicalBytes record.physicalLength) .overflow
  .failIf (nextPhysical > table.config.maximumPhysicalBytes.toNat) .physicalCapacity
  let ticketId := table.nextTicket
  let nextTicket ← .reads fun table => okOr (checkedAdd 64 table.nextTicket 1) .overflow
  .modify fun table => { table with nextTicket }
  chargeTenant request.tenantId request.requiredCapability.logicalBytes
  let waiters : ExtTreeMap Nat DirectRestoreWaiter :=
    (∅ : ExtTreeMap Nat DirectRestoreWaiter).insert request.requestId
      ⟨request.tenantId, request.requiredCapability⟩
  let ticket : DirectRestoreTicket :=
    { record, catalogEpoch, catalogRecordSha256, state := .planned, buffer := none, waiters,
      originalPending := false, cancelPending := false, originalToken := none, cancelToken := none,
      hashState := .none }
  .modify fun table =>
    { table with
      tickets := table.tickets.insert ticketId ticket
      requestToTicket := table.requestToTicket.insert request.requestId ticketId
      physicalBytes := nextPhysical }
  pure (.created ticketId)

def validateRecord (record : DirectExtentRecord) : Except DirectRestoreError Unit :=
  match record.validate with
  | .ok () => .ok ()
  | .error _ => .error .record

def plan (request : DirectRestoreRequest) (record : DirectExtentRecord) (catalogEpoch : Nat)
    (catalogRecordSha256 : Bytes32) : Restore DirectRestoreAdmission := do
  .reads fun _ => validateRestoreRequest request
  .reads fun _ => validateRecord record
  .failIf (catalogEpoch = 0 ∨ catalogRecordSha256 = Bytes32.zero) .catalog
  .failIf (capabilitySatisfies record.capability request.requiredCapability = false) .capability
  let table ← .get
  .failIf (request.requestId ∈ table.requestToTicket) .duplicateRequest
  validateTenantCharge request.tenantId request.requiredCapability.logicalBytes
  match table.compatibleTicket record catalogEpoch catalogRecordSha256 request.requiredCapability with
  | some ticketId => joinTicket request ticketId
  | none => createTicket request record catalogEpoch catalogRecordSha256

def reserveBuffer (ticketId : DirectRestoreTicketId) : Restore DirectBufferId := do
  let current ← ticket ticketId
  .failIf (current.state ≠ .planned ∨ current.buffer.isSome) .state
  let buffer ← onBuffers (DirectBufferPool.reserve .cpuRead)
  ticketMut ticketId fun ticket => { ticket with buffer := some buffer, state := .bufferReserved }
  pure buffer

def readBinding (ticketId : DirectRestoreTicketId) (buffer : DirectBufferId) : DirectDescriptorBinding :=
  { buffer, operationGeneration := ticketId, operation := .read }

/-- `submit_read` from the allocated descriptor on: each refusal undoes what came before it. -/
def submitOriginal (ticketId : DirectRestoreTicketId) (buffer : DirectBufferId)
    (originalToken : DirectCompletionToken) (nextHashJobs : Nat) : Restore Unit := do
  match ← (onCq (·.trySubmit .original)).attempt with
  | .error failure => do
    let _ ← onDescriptors (DirectDescriptorTable.complete originalToken)
    .fail failure
  | .ok () =>
    match ← (onBuffers (DirectBufferPool.transition buffer .readInflight)).attempt with
    | .error failure => do
      onCq (·.complete .original)
      let _ ← onDescriptors (DirectDescriptorTable.complete originalToken)
      .fail failure
    | .ok () => do
      ticketMut ticketId fun ticket =>
        { ticket with originalPending := true, originalToken := some originalToken,
                      hashState := .reserved, state := .readSubmitted }
      .modify fun table => { table with activeHashJobs := nextHashJobs }

def poolFailed (table : DirectRestoreTable) : Bool := table.checksumWorkers.any (·.failed)

def submitRead (ticketId : DirectRestoreTicketId) : Restore Unit := do
  let table ← .get
  .failIf (table.checksumWorkersRetired = true) .workerUnavailable
  .failIf (table.poolFailed = true) .workerPanic
  let current ← ticket ticketId
  .failIf (current.state ≠ .bufferReserved ∨ current.originalPending ∨ current.cancelPending
    ∨ current.hashState ≠ .none) .state
  let nextHashJobs ← .reads fun table => okOr (checkedAdd 32 table.activeHashJobs 1) .overflow
  .failIf (nextHashJobs > table.config.maximumHashJobs.toNat) .hashWait
  let buffer ← .reads fun _ => okOr current.buffer .state
  let originalToken ← onDescriptors (DirectDescriptorTable.allocate (readBinding ticketId buffer))
  submitOriginal ticketId buffer originalToken nextHashJobs

/-- `bytes[offset..stop].copy_from_slice(source)`. -/
def overwrite (offset : Nat) (source bytes : List UInt8) : List UInt8 :=
  bytes.take offset ++ source ++ bytes.drop (offset + source.length)

def copyIntoReadDestination (ticketId : DirectRestoreTicketId) (offset : Nat) (source : List UInt8) :
    Restore Unit := do
  let current ← ticket ticketId
  .failIf (current.state ≠ .readSubmitted ∨ current.originalPending = false ∨ current.cancelPending
    ∨ current.hashState ≠ .reserved) .state
  let buffer ← .reads fun _ => okOr current.buffer .state
  let stop ← .reads fun _ => okOr (checkedAdd 64 offset source.length) .overflow
  .failIf (stop > current.record.physicalLength) .record
  onBuffers (DirectBufferPool.withBytesMut buffer (overwrite offset source))

/-- The body of the loop of `clear_waiters`. -/
def clearWaiter (waiter : Nat × DirectRestoreWaiter) : Restore Unit := do
  unchargeTenant waiter.2.tenantId waiter.2.requiredCapability.logicalBytes
  .modify fun table => { table with requestToTicket := table.requestToTicket.erase waiter.1 }

def clearWaiters (ticketId : DirectRestoreTicketId) : Restore Unit := do
  let current ← ticket ticketId
  current.waiters.toList.forM clearWaiter
  ticketMut ticketId fun ticket => { ticket with waiters := ∅ }

/-- The body of the loop of `remove_ticket`. -/
def dropWaiter (waiter : Nat × DirectRestoreWaiter) : Restore Unit := do
  .modify fun table => { table with requestToTicket := table.requestToTicket.erase waiter.1 }
  unchargeTenant waiter.2.tenantId waiter.2.requiredCapability.logicalBytes

/-- A ticket that still has something outstanding is put back and reported. -/
def removeTicket (ticketId : DirectRestoreTicketId) : Restore Unit := do
  let current ← ticket ticketId
  .failIf (current.originalPending ∨ current.cancelPending) .completionOutstanding
  .failIf (current.originalToken.isSome ∨ current.cancelToken.isSome) .descriptorBinding
  .failIf (current.hashState ≠ .none) .hashBinding
  .modify fun table => { table with tickets := table.tickets.erase ticketId }
  current.waiters.toList.forM dropWaiter
  .updates fun table => do
    let physicalBytes ← okOr (checkedSub table.physicalBytes current.record.physicalLength) .accounting
    pure ((), { table with physicalBytes })

def releaseHashJob (ticketId : DirectRestoreTicketId) : Restore Unit := do
  let current ← ticket ticketId
  if current.hashState = .none then
    pure ()
  else do
    .updates fun table => do
      let activeHashJobs ← okOr (checkedSub table.activeHashJobs 1) .accounting
      pure ((), { table with activeHashJobs })
    ticketMut ticketId fun ticket => { ticket with hashState := .none }

def quarantineBuffer (buffer : DirectBufferId) (current : DirectBufferState) : Restore Unit :=
  if current ≠ .quarantined then do
    onBuffers (DirectBufferPool.fail buffer)
    onBuffers (DirectBufferPool.quarantine buffer)
  else
    pure ()

def removeIfReaped (ticketId : DirectRestoreTicketId) : Restore Unit := do
  let current ← ticket ticketId
  if current.originalPending = false ∧ current.cancelPending = false then
    removeTicket ticketId
  else
    pure ()

def failTicket (ticketId : DirectRestoreTicketId) : Restore Unit := do
  let current ← ticket ticketId
  let buffer ← .reads fun _ => okOr current.buffer .state
  let state ← .reads fun table => liftBuffer (table.buffers.state buffer)
  quarantineBuffer buffer state
  releaseHashJob ticketId
  clearWaiters ticketId
  ticketMut ticketId fun ticket => { ticket with state := .failed }
  removeIfReaped ticketId

def failChecksumPool : Restore Unit := do
  .updates fun table => do
    let workers ← okOr table.checksumWorkers .workerUnavailable
    pure ((), { table with checksumWorkers := some { workers with failed := true } })
  let table ← .get
  ((table.tickets.toList.filter fun (_, ticket) => decide (ticket.hashState ≠ .none)).map (·.1)).forM
    failTicket

def finishAbandonedIfReaped (ticketId : DirectRestoreTicketId) : Restore Unit := do
  let current ← ticket ticketId
  .failIf (current.state ≠ .abandoned) .state
  if current.originalPending ∨ current.cancelPending then
    pure ()
  else do
    let buffer ← .reads fun _ => okOr current.buffer .state
    releaseHashJob ticketId
    onBuffers (DirectBufferPool.releaseAbandonedRead buffer)
    removeTicket ticketId

def releaseTicket (ticketId : DirectRestoreTicketId) (buffer : Option DirectBufferId) : Restore Unit := do
  let buffer ← .reads fun _ => okOr buffer .state
  onBuffers (DirectBufferPool.transition buffer .free)
  removeTicket ticketId

/-- The `Ok` arm of the asynchronous cancellation: the descriptor takes a second completion. -/
def bindCancel (ticketId : DirectRestoreTicketId) : Restore DirectCancellation := do
  let current ← ticket ticketId
  let originalToken ← .reads fun _ => okOr current.originalToken .state
  match ← (onDescriptors (DirectDescriptorTable.issueCancel originalToken)).attempt with
  | .ok cancelToken => do
    ticketMut ticketId fun ticket => { ticket with cancelPending := true, cancelToken := some cancelToken }
    pure .asyncCancelSubmitted
  | .error failure => do
    onCq (·.complete .asyncCancel)
    .fail failure

def submitAsyncCancel (ticketId : DirectRestoreTicketId) : Restore DirectCancellation := do
  match ← (onCq (·.trySubmit .asyncCancel)).attempt with
  | .ok () => bindCancel ticketId
  | .error .cqWait => pure .abandonedWithoutAsyncCancel
  | .error failure => .fail failure

/-- What `cancel_waiter` does once a ticket has no waiter left. -/
def cancelLast (ticketId : DirectRestoreTicketId) (buffer : Option DirectBufferId)
    (asyncCancelSupported : Bool) : DirectRestoreState → Restore DirectCancellation
  | .planned => do
    removeTicket ticketId
    pure .releasedBeforeSubmission
  | .bufferReserved => do
    releaseTicket ticketId buffer
    pure .releasedBeforeSubmission
  | .readSubmitted => do
    ticketMut ticketId fun ticket => { ticket with state := .abandoned }
    if asyncCancelSupported then
      submitAsyncCancel ticketId
    else
      pure .abandonedWithoutAsyncCancel
  | .dataReady => do
    ticketMut ticketId fun ticket => { ticket with state := .abandoned }
    pure .waitingForHashAcknowledgement
  | .hashVerified => do
    releaseTicket ticketId buffer
    pure .releasedAfterVerification
  | .abandoned | .failed => .fail .state

def cancelWaiter (requestId : Nat) (asyncCancelSupported : Bool) : Restore DirectCancellation := do
  let ticketId ← .reads fun table => okOr table.requestToTicket[requestId]? .missingRequest
  let current ← ticket ticketId
  let waiter ← .reads fun _ => okOr current.waiters[requestId]? .missingRequest
  unchargeTenant waiter.tenantId waiter.requiredCapability.logicalBytes
  .modify fun table => { table with requestToTicket := table.requestToTicket.erase requestId }
  ticketMut ticketId fun ticket => { ticket with waiters := ticket.waiters.erase requestId }
  let current ← ticket ticketId
  if current.waiters.isEmpty then
    cancelLast ticketId current.buffer asyncCancelSupported current.state
  else
    pure .waiterRemoved

/-- A descriptor whose completion arrives: it must still be bound to this ticket's read. -/
def reap (ticketId : DirectRestoreTicketId) (buffer : DirectBufferId) (token : DirectCompletionToken)
    (kind : DirectCqKind) : Restore Unit := do
  let binding ← .reads fun table => liftDescriptor (table.descriptors.resolve token)
  .failIf (binding ≠ readBinding ticketId buffer) .descriptorBinding
  .reads fun table => table.cq.validateCompletion kind
  let _ ← onDescriptors (DirectDescriptorTable.complete token)
  onCq (·.complete kind)

def queueHash (ticketId : DirectRestoreTicketId) (buffer : DirectBufferId) : Restore Unit := do
  onBuffers (DirectBufferPool.transition buffer .hashingForRead)
  let current ← ticket ticketId
  .failIf (current.hashState ≠ .reserved) .hashBinding
  ticketMut ticketId fun ticket => { ticket with hashState := .queued, state := .dataReady }

def finishOriginal (ticketId : DirectRestoreTicketId) (buffer : DirectBufferId) :
    DirectRestoreState → DirectReadCompletion → Restore Unit
  | .readSubmitted, .exact => queueHash ticketId buffer
  | .abandoned, .exact | .abandoned, .cancelled => finishAbandonedIfReaped ticketId
  | _, .failed | .readSubmitted, .cancelled => failTicket ticketId
  | _, _ => .fail .state

def completeOriginal (ticketId : DirectRestoreTicketId) (completion : DirectReadCompletion) :
    Restore Unit := do
  let current ← ticket ticketId
  .failIf (current.originalPending = false
    ∨ ¬(current.state = .readSubmitted ∨ current.state = .abandoned)) .duplicateCompletion
  let buffer ← .reads fun _ => okOr current.buffer .state
  let originalToken ← .reads fun _ => okOr current.originalToken .state
  reap ticketId buffer originalToken .original
  ticketMut ticketId fun ticket => { ticket with originalPending := false, originalToken := none }
  finishOriginal ticketId buffer current.state completion

/-- What `complete_cancel` does after the completion is accounted for. -/
def finishCancel (ticketId : DirectRestoreTicketId) : Restore Unit := do
  let current ← ticket ticketId
  if current.originalPending then
    pure ()
  else if current.state = .abandoned then
    finishAbandonedIfReaped ticketId
  else
    removeTicket ticketId

def completeCancel (ticketId : DirectRestoreTicketId) : Restore Unit := do
  let current ← ticket ticketId
  .failIf (current.cancelPending = false ∨ ¬(current.state = .abandoned ∨ current.state = .failed))
    .duplicateCompletion
  let cancelToken ← .reads fun _ => okOr current.cancelToken .state
  let buffer ← .reads fun _ => okOr current.buffer .state
  reap ticketId buffer cancelToken .asyncCancel
  ticketMut ticketId fun ticket => { ticket with cancelPending := false, cancelToken := none }
  finishCancel ticketId

/-- `DirectChecksumWorkers::new`; `spawned` tells whether every thread could be started. -/
def newWorkers (maximumJobs workerCount : Nat) (spawned : Bool) :
    Except DirectRestoreError DirectChecksumWorkers :=
  if maximumJobs = 0 ∨ workerCount = 0 ∨ workerCount > maximumJobs then .error .workerConfig
  else if spawned = false then .error .workerSpawn
  else .ok { maximumJobs, workerCount, failed := false }

def startChecksumWorkers (workerCount : Nat) (spawned : Bool) : Restore Unit := do
  let table ← .get
  .failIf (table.checksumWorkers.isSome ∨ table.checksumWorkersRetired ∨ table.activeHashJobs ≠ 0)
    .workerConfig
  let workers ← .reads fun table => newWorkers table.config.maximumHashJobs.toNat workerCount spawned
  .modify fun table => { table with checksumWorkers := some workers }

def firstQueued (table : DirectRestoreTable) : Option (DirectRestoreTicketId × DirectRestoreTicket) :=
  table.tickets.toList.find? fun (_, ticket) => decide (ticket.hashState = .queued)

/-- A ticket's bytes can be hashed: all of its completions arrived, and it is not delivered or failed. -/
def Hashable (ticket : DirectRestoreTicket) : Prop :=
  (ticket.state = .dataReady ∨ ticket.state = .abandoned) ∧ ticket.originalPending = false
    ∧ ticket.cancelPending = false

instance (ticket : DirectRestoreTicket) : Decidable (Hashable ticket) := by
  unfold Hashable
  infer_instance

def hashJob (ticketId : DirectRestoreTicketId) (ticket : DirectRestoreTicket) : Restore DirectHashJob := do
  .failIf (¬Hashable ticket) .hashBinding
  let buffer ← .reads fun _ => okOr ticket.buffer .hashBinding
  pure ⟨ticketId, buffer⟩

def setHashState (ticketId : DirectRestoreTicketId) (hashState : DirectHashState) : Restore Unit :=
  ticketMut ticketId fun ticket => { ticket with hashState }

/-- `try_send`, and what a refusal undoes. -/
def sendJob (job : DirectHashJob) : TrySend → Restore (Option DirectHashJob)
  | .sent => pure (some job)
  | .full => do
    setHashState job.ticket .queued
    .fail .workerWait
  | .disconnected => do
    setHashState job.ticket .queued
    failChecksumPool
    .fail .workerDisconnected

/-- `dispatch_next_checksum` for the ticket that was found. -/
def dispatchChecksum (ticketId : DirectRestoreTicketId) (ticket : DirectRestoreTicket) (answer : TrySend) :
    Restore (Option DirectHashJob) := do
  let job ← hashJob ticketId ticket
  let _ ← .reads fun table => liftBuffer (table.buffers.hashBuffer job.buffer)
  setHashState ticketId .running
  sendJob job answer

def dispatchNextChecksum (answer : TrySend) : Restore (Option DirectHashJob) := do
  let table ← .get
  let workers ← .reads fun table => okOr table.checksumWorkers .workerUnavailable
  .failIf (workers.failed = true) .workerPanic
  match table.firstQueued with
  | none => pure none
  | some (ticketId, ticket) => dispatchChecksum ticketId ticket answer

/-- What `poll_checksum_result` makes of the outcome of a running job. -/
def acceptOutcome (job : DirectHashJob) : DirectChecksumOutcome → Restore (Option DirectHashResult)
  | .verified integrity sharedAllocation =>
    if sharedAllocation then
      pure (some ⟨job, integrity, some true⟩)
    else do
      failChecksumPool
      .fail .workerBinding
  | .bufferFailure failure => do
    failTicket job.ticket
    .fail (.buffer failure)
  | .workerPanic => do
    failChecksumPool
    .fail .workerPanic

def acceptCompletion (completion : DirectChecksumCompletion) : Restore (Option DirectHashResult) := do
  let current ← ticket completion.job.ticket
  .failIf (¬Hashable current ∨ current.hashState ≠ .running ∨ current.buffer ≠ some completion.job.buffer)
    .hashBinding
  acceptOutcome completion.job completion.outcome

def pollChecksumResult (answer : TryReceive) : Restore (Option DirectHashResult) := do
  let workers ← .reads fun table => okOr table.checksumWorkers .workerUnavailable
  .failIf (workers.failed = true) .workerPanic
  match answer with
  | .received completion => acceptCompletion completion
  | .empty => pure none
  | .disconnected => do
    failChecksumPool
    .fail .workerDisconnected

/-- `panicked` tells whether a worker thread ended in a panic. -/
def shutdownChecksumWorkers (panicked : Bool) : Restore Unit := do
  let table ← .get
  .failIf (table.activeHashJobs ≠ 0) .completionOutstanding
  let _ ← .reads fun table => okOr table.checksumWorkers .workerUnavailable
  .modify fun table => { table with checksumWorkers := none, checksumWorkersRetired := true }
  .failIf (panicked = true) .workerPanic

def runningJob (ticketId : DirectRestoreTicketId) (ticket : DirectRestoreTicket) :
    Restore (Option DirectHashJob) := do
  let job ← hashJob ticketId ticket
  setHashState ticketId .running
  pure (some job)

def nextHashJob : Restore (Option DirectHashJob) := do
  let table ← .get
  .failIf (table.checksumWorkers.isSome ∨ table.checksumWorkersRetired) .hashExecutionMode
  match table.firstQueued with
  | none => pure none
  | some (ticketId, ticket) => runningJob ticketId ticket

/-- Whether the first `physical_length` bytes of the buffer decode under the record. -/
def verifyExtent (sha256 : List UInt8 → Bytes32) (record : DirectExtentRecord) (buffer : DirectExtentBuffer) :
    Except DirectRestoreError Bool := do
  let extent ← okOr (byteRange buffer.bytes 0 record.physicalLength) .record
  pure (decodeDirectExtent sha256 record buffer.address extent).isOk

/-- The task that `dispatch_next_checksum` sends for a job. -/
def checksumTask (table : DirectRestoreTable) (job : DirectHashJob) : Except DirectRestoreError DirectChecksumTask := do
  let ticket ← okOr table.tickets[job.ticket]? .missingTicket
  let buffer ← liftBuffer (table.buffers.hashBuffer job.buffer)
  pure { job, record := ticket.record, buffer := job.buffer, expectedAddress := buffer.address }

/-- The body of the loop of `direct_checksum_worker`, on the bytes that the shared buffer holds by then. -/
def directChecksumWorker (sha256 : List UInt8 → Bytes32) (task : DirectChecksumTask) (buffer : DirectExtentBuffer) :
    DirectChecksumOutcome :=
  let sharedAllocation := decide (task.buffer = task.job.buffer ∧ buffer.address = task.expectedAddress)
  let integrity := sharedAllocation && (byteRange buffer.bytes 0 task.record.physicalLength).any fun extent =>
    (decodeDirectExtent sha256 task.record buffer.address extent).isOk
  .verified integrity sharedAllocation

def runHashJob (sha256 : List UInt8 → Bytes32) (job : DirectHashJob) : Restore DirectHashResult := do
  let table ← .get
  .failIf (table.checksumWorkers.isSome ∨ table.checksumWorkersRetired) .hashExecutionMode
  let current ← ticket job.ticket
  .failIf (current.hashState ≠ .running ∨ current.buffer ≠ some job.buffer ∨ ¬Hashable current) .hashBinding
  let bytes ← .reads fun table => liftBuffer (table.buffers.withBytes job.buffer)
  let verified ← .reads fun _ => verifyExtent sha256 current.record bytes
  pure ⟨job, verified, none⟩

/-- `complete_hash` for bytes that verified. -/
def finishHash (ticketId : DirectRestoreTicketId) (state : DirectRestoreState) (buffer : DirectBufferId) :
    Restore Unit := do
  onBuffers (DirectBufferPool.transition buffer .hostReady)
  releaseHashJob ticketId
  if state = .abandoned then do
    onBuffers (DirectBufferPool.transition buffer .free)
    removeTicket ticketId
  else
    ticketMut ticketId fun ticket => { ticket with state := .hashVerified }

def completeHash (result : DirectHashResult) : Restore Unit := do
  let current ← ticket result.job.ticket
  .failIf (¬Hashable current ∨ current.hashState ≠ .running ∨ current.buffer ≠ some result.job.buffer)
    .hashBinding
  let buffer ← .reads fun _ => okOr current.buffer .state
  if result.verified then
    finishHash result.job.ticket current.state buffer
  else do
    failTicket result.job.ticket
    .fail .integrity

def finishCpuDelivery (ticketId : DirectRestoreTicketId) : Restore (List Nat) := do
  let current ← ticket ticketId
  .failIf (current.state ≠ .hashVerified ∨ current.originalPending ∨ current.cancelPending
    ∨ current.hashState ≠ .none) .state
  releaseTicket ticketId current.buffer
  pure current.waiters.keys

/-- What the loop of `validate_invariants` adds up over the tickets. -/
structure Expected where
  logical : ExtTreeMap Nat Nat
  descriptors : Nat
  cqes : Nat
  activeBuffers : Nat
  hashJobs : Nat

def validateWaiters (table : DirectRestoreTable) (ticketId : DirectRestoreTicketId)
    (capability : DirectTierCapability) :
    List (Nat × DirectRestoreWaiter) → ExtTreeMap Nat Nat → Except DirectRestoreError (ExtTreeMap Nat Nat)
  | [], logical => pure logical
  | (requestId, waiter) :: rest, logical => do
    if requestId = 0 ∨ waiter.tenantId = 0
        ∨ capabilitySatisfies capability waiter.requiredCapability = false
        ∨ table.requestToTicket[requestId]? ≠ some ticketId then
      throw .accounting
    let charge ← okOr (checkedAdd 64 (logical[waiter.tenantId]?.getD 0)
      waiter.requiredCapability.logicalBytes) .overflow
    validateWaiters table ticketId capability rest (logical.insert waiter.tenantId charge)

def validateTokens (table : DirectRestoreTable) (expectedBinding : Option DirectDescriptorBinding) :
    List DirectCompletionToken → Nat → Except DirectRestoreError Nat
  | [], cqes => pure cqes
  | token :: rest, cqes => do
    let binding ← liftDescriptor (table.descriptors.resolve token)
    let expected ← okOr expectedBinding .descriptorBinding
    if binding ≠ expected then
      throw .descriptorBinding
    let cqes ← okOr (checkedAdd 32 cqes 1) .overflow
    validateTokens table expectedBinding rest cqes

def stateMatches (ticket : DirectRestoreTicket) (bufferState : Option DirectBufferState) : Bool :=
  match ticket.state with
  | .planned => decide (bufferState = none ∧ ticket.originalPending = false ∧ ticket.cancelPending = false
      ∧ ticket.hashState = .none)
  | .bufferReserved => decide (bufferState = some .readQueued ∧ ticket.originalPending = false
      ∧ ticket.cancelPending = false ∧ ticket.hashState = .none)
  | .readSubmitted => decide (ticket.originalPending ∧ ticket.cancelPending = false
      ∧ ticket.hashState = .reserved ∧ bufferState = some .readInflight)
  | .dataReady => decide (ticket.originalPending = false ∧ ticket.cancelPending = false
      ∧ (ticket.hashState = .queued ∨ ticket.hashState = .running) ∧ bufferState = some .hashingForRead)
  | .hashVerified => decide (ticket.originalPending = false ∧ ticket.cancelPending = false
      ∧ ticket.hashState = .none ∧ bufferState = some .hostReady)
  | .abandoned => decide (ticket.waiters.isEmpty
      ∧ ((bufferState = some .readInflight ∧ ticket.hashState = .reserved)
        ∨ (bufferState = some .hashingForRead
          ∧ (ticket.hashState = .queued ∨ ticket.hashState = .running))))
  | .failed => decide (ticket.waiters.isEmpty ∧ ticket.originalPending = false
      ∧ ticket.hashState = .none ∧ bufferState = some .quarantined)

/-- `buffer.map(|buffer| buffers.state(buffer)).transpose()`. -/
def bufferStateOf (table : DirectRestoreTable) :
    Option DirectBufferId → Except DirectRestoreError (Option DirectBufferState)
  | none => pure none
  | some buffer => some <$> liftBuffer (table.buffers.state buffer)

def expectedHashJobs (hashState : DirectHashState) (hashJobs : Nat) : Except DirectRestoreError Nat :=
  if hashState ≠ .none then okOr (checkedAdd 32 hashJobs 1) .overflow else .ok hashJobs

/-- The body of the ticket loop of `validate_invariants`. -/
def validateTicket (table : DirectRestoreTable) (ticketId : DirectRestoreTicketId)
    (ticket : DirectRestoreTicket) (expected : Expected) : Except DirectRestoreError Expected := do
  validateRecord ticket.record
  if ticket.catalogEpoch = 0 ∨ ticket.catalogRecordSha256 = Bytes32.zero
      ∨ ticket.waiters.size > table.config.maximumWaitersPerTicket.toNat
      ∨ (ticket.waiters.isEmpty ∧ ¬(ticket.state = .abandoned ∨ ticket.state = .failed)) then
    throw .state
  let logical ← validateWaiters table ticketId ticket.record.capability ticket.waiters.toList expected.logical
  if ticket.originalPending ≠ ticket.originalToken.isSome
      ∨ ticket.cancelPending ≠ ticket.cancelToken.isSome then
    throw .descriptorBinding
  let cqes ← validateTokens table (ticket.buffer.map (readBinding ticketId))
    [ticket.originalToken, ticket.cancelToken].reduceOption expected.cqes
  let descriptors := expected.descriptors + if ticket.originalPending ∨ ticket.cancelPending then 1 else 0
  let hashJobs ← expectedHashJobs ticket.hashState expected.hashJobs
  let bufferState ← table.bufferStateOf ticket.buffer
  if stateMatches ticket bufferState = false then
    throw .state
  let activeBuffers := expected.activeBuffers + if bufferState.any (·.isActive) then 1 else 0
  pure { logical, descriptors, cqes, activeBuffers, hashJobs }

/-- `try_fold` of the physical lengths. -/
def sumPhysical : List (DirectRestoreTicketId × DirectRestoreTicket) → Nat → Except DirectRestoreError Nat
  | [], total => pure total
  | (_, ticket) :: rest, total => do
    let total ← okOr (checkedAdd 64 total ticket.record.physicalLength) .overflow
    sumPhysical rest total

def validateTickets (table : DirectRestoreTable) :
    List (DirectRestoreTicketId × DirectRestoreTicket) → Expected → Except DirectRestoreError Expected
  | [], expected => pure expected
  | (ticketId, ticket) :: rest, expected => do
    let expected ← table.validateTicket ticketId ticket expected
    validateTickets table rest expected

def validateInvariants (table : DirectRestoreTable) : Except DirectRestoreError Unit := do
  if table.checksumWorkersRetired ∧ (table.checksumWorkers.isSome ∨ table.activeHashJobs ≠ 0) then
    throw .state
  let maximumWaiters ← okOr (checkedMul 64 table.tickets.size
    table.config.maximumWaitersPerTicket.toNat) .overflow
  let expectedPhysical ← sumPhysical table.tickets.toList 0
  if expectedPhysical ≠ table.physicalBytes
      ∨ table.physicalBytes > table.config.maximumPhysicalBytes.toNat
      ∨ table.tickets.size > table.config.maximumTickets.toNat
      ∨ table.requestToTicket.size > maximumWaiters then
    throw .accounting
  let expected ← table.validateTickets table.tickets.toList ⟨∅, 0, 0, 0, 0⟩
  let waiterTotal := (table.tickets.toList.map fun (_, ticket) => ticket.waiters.size).sum
  if table.requestToTicket.size ≠ waiterTotal
      ∨ expected.logical ≠ table.logicalByTenant
      ∨ expected.logical.values.any (fun bytes =>
          decide (bytes > table.config.maximumLogicalBytesPerTenant.toNat))
      ∨ expected.descriptors ≠ table.descriptors.outstandingDescriptors
      ∨ expected.cqes ≠ table.cq.outstanding
      ∨ expected.activeBuffers ≠ table.buffers.activeSlots
      ∨ expected.hashJobs ≠ table.activeHashJobs
      ∨ table.activeHashJobs > table.config.maximumHashJobs.toNat then
    throw .accounting

end DirectRestoreTable

/-- A call on the table, with what the kernel, the allocator or the workers answer to it. -/
inductive RestoreCall where
  | plan (request : DirectRestoreRequest) (record : DirectExtentRecord) (catalogEpoch : Nat)
      (catalogRecordSha256 : Bytes32)
  | reserveBuffer (ticket : DirectRestoreTicketId)
  | submitRead (ticket : DirectRestoreTicketId)
  | copyIntoReadDestination (ticket : DirectRestoreTicketId) (offset : Nat) (source : List UInt8)
  | cancelWaiter (requestId : Nat) (asyncCancelSupported : Bool)
  | completeOriginal (ticket : DirectRestoreTicketId) (completion : DirectReadCompletion)
  | completeCancel (ticket : DirectRestoreTicketId)
  | startChecksumWorkers (workerCount : Nat) (spawned : Bool)
  | dispatchNextChecksum (answer : TrySend)
  | pollChecksumResult (answer : TryReceive)
  | nextHashJob
  | runHashJob (job : DirectHashJob)
  | completeHash (result : DirectHashResult)
  | finishCpuDelivery (ticket : DirectRestoreTicketId)
  | shutdownChecksumWorkers (panicked : Bool)
deriving DecidableEq

namespace DirectRestoreTable

def discard {α : Type} (x : Restore α) : Restore Unit := do
  let _ ← x
  pure ()

def call (sha256 : List UInt8 → Bytes32) : RestoreCall → Restore Unit
  | .plan request record catalogEpoch catalogRecordSha256 =>
    discard (plan request record catalogEpoch catalogRecordSha256)
  | .reserveBuffer ticket => discard (reserveBuffer ticket)
  | .submitRead ticket => submitRead ticket
  | .copyIntoReadDestination ticket offset source => copyIntoReadDestination ticket offset source
  | .cancelWaiter requestId asyncCancelSupported => discard (cancelWaiter requestId asyncCancelSupported)
  | .completeOriginal ticket completion => completeOriginal ticket completion
  | .completeCancel ticket => completeCancel ticket
  | .startChecksumWorkers workerCount spawned => startChecksumWorkers workerCount spawned
  | .dispatchNextChecksum answer => discard (dispatchNextChecksum answer)
  | .pollChecksumResult answer => discard (pollChecksumResult answer)
  | .nextHashJob => discard nextHashJob
  | .runHashJob job => discard (runHashJob sha256 job)
  | .completeHash result => completeHash result
  | .finishCpuDelivery ticket => discard (finishCpuDelivery ticket)
  | .shutdownChecksumWorkers panicked => shutdownChecksumWorkers panicked

def run (sha256 : List UInt8 → Bytes32) (table : DirectRestoreTable) (calls : List RestoreCall) :
    DirectRestoreTable :=
  calls.foldl (fun table request => (call sha256 request table).2) table

end DirectRestoreTable

end Glmaxx.Cache
