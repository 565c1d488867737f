import Glmaxx.Library.Action
import Glmaxx.Library.Ring
import Glmaxx.Cache.DirectExtent

namespace Glmaxx.Cache
open Library

structure DirectBufferId where
  slot : Nat
  generation : Nat
deriving DecidableEq, Repr

def DirectBufferId.invalidGeneration : Nat := 0

def DirectBufferId.isValid (id : DirectBufferId) : Bool :=
  decide (id.generation ≠ invalidGeneration)

inductive DirectBufferState where
  | free
  | fillingFromHbm
  | hashingForWrite
  | writeQueued
  | writeInflight
  | readQueued
  | readInflight
  | hashingForRead
  | hostReady
  | copyingToHbm
  | failed
  | quarantined
  | retired
deriving DecidableEq, Repr

def DirectBufferState.isActive : DirectBufferState → Bool
  | .free | .failed | .quarantined | .retired => false
  | _ => true

inductive DirectBufferUse where
  | cpuWrite
  | cpuRead
deriving DecidableEq, Repr

structure DirectBufferSlot where
  generation : Nat
  state : DirectBufferState
  bytes : DirectExtentBuffer
deriving DecidableEq

structure DirectBufferPool where
  slots : List DirectBufferSlot
  nextSearch : Nat
deriving DecidableEq

inductive DirectBufferStateError where
  | capacity
  | allocation
  | poisoned
  | invalidGeneration
  | unknownSlot
  | staleGeneration
  | state (current requested : DirectBufferState)
deriving DecidableEq, Repr

def validTransition (current next : DirectBufferState) : Bool :=
  if current.isActive ∧ next = .failed then true
  else
    match current, next with
    | .fillingFromHbm, .hashingForWrite
    | .hashingForWrite, .writeQueued
    | .writeQueued, .writeInflight
    | .writeQueued, .free
    | .writeInflight, .free
    | .readQueued, .readInflight
    | .readQueued, .free
    | .readInflight, .hashingForRead
    | .hashingForRead, .hostReady
    | .hostReady, .copyingToHbm
    | .hostReady, .free
    | .copyingToHbm, .free
    | .failed, .quarantined => true
    | _, _ => false

def DirectBufferUse.firstState : DirectBufferUse → DirectBufferState
  | .cpuWrite => .hashingForWrite
  | .cpuRead => .readQueued

namespace DirectBufferPool

/-- One free slot per buffer; `allocation` is what the allocator answers for each of them. -/
def new (allocation : Nat → Option Nat) (capacity : Nat) :
    Except DirectBufferStateError DirectBufferPool := do
  if capacity = 0 then
    throw .capacity
  let slots ← (List.range capacity).mapM fun index =>
    match DirectExtentBuffer.new (allocation index) .mtp with
    | .ok bytes => .ok { generation := DirectBufferId.invalidGeneration, state := .free, bytes }
    | .error _ => .error .allocation
  pure { slots, nextSearch := 0 }

/-- What the loop of `reserve` does with one slot. -/
def visit (usage : DirectBufferUse) (_ : Nat) (slot : DirectBufferSlot) : Visit DirectBufferSlot Nat :=
  if slot.state ≠ .free then .skip slot
  else
    match checkedAdd 64 slot.generation 1 with
    | none => .skip { slot with state := .retired }
    | some generation =>
      if generation = DirectBufferId.invalidGeneration then .skip { slot with state := .retired }
      else .take { generation, state := usage.firstState, bytes := slot.bytes.zeroed } generation

def reserve (usage : DirectBufferUse) : Action DirectBufferPool DirectBufferStateError DirectBufferId :=
  fun pool =>
    match scanRing (visit usage) pool.nextSearch pool.slots.length 0 pool.slots with
    | (none, slots) => (.error .capacity, { pool with slots })
    | (some (index, generation), slots) =>
      (okOr ((narrow 32 index).map fun slot => ⟨slot, generation⟩) .capacity,
        { slots, nextSearch := (index + 1) % slots.length })

def slot (pool : DirectBufferPool) (id : DirectBufferId) :
    Except DirectBufferStateError DirectBufferSlot := do
  if id.isValid = false then
    throw .invalidGeneration
  let slot ← okOr pool.slots[id.slot]? .unknownSlot
  if slot.generation ≠ id.generation then
    throw .staleGeneration
  pure slot

def state (pool : DirectBufferPool) (id : DirectBufferId) :
    Except DirectBufferStateError DirectBufferState := do
  pure (← pool.slot id).state

def setSlot (pool : DirectBufferPool) (id : DirectBufferId) (slot : DirectBufferSlot) : DirectBufferPool :=
  { pool with slots := pool.slots.set id.slot slot }

def withBytes (pool : DirectBufferPool) (id : DirectBufferId) :
    Except DirectBufferStateError DirectExtentBuffer := do
  let slot ← pool.slot id
  if slot.state.isActive = false then
    throw (.state slot.state slot.state)
  pure slot.bytes

def withBytesMut (id : DirectBufferId) (writer : List UInt8 → List UInt8) :
    Action DirectBufferPool DirectBufferStateError Unit :=
  .updates fun pool => do
    let slot ← pool.slot id
    if slot.state.isActive = false then
      throw (.state slot.state slot.state)
    pure ((), pool.setSlot id { slot with bytes := { slot.bytes with bytes := writer slot.bytes.bytes } })

def hashBuffer (pool : DirectBufferPool) (id : DirectBufferId) :
    Except DirectBufferStateError DirectExtentBuffer := do
  let slot ← pool.slot id
  if slot.state ≠ .hashingForRead then
    throw (.state slot.state .hashingForRead)
  pure slot.bytes

def transition (id : DirectBufferId) (next : DirectBufferState) :
    Action DirectBufferPool DirectBufferStateError Unit :=
  .updates fun pool => do
    let slot ← pool.slot id
    if validTransition slot.state next = false then
      throw (.state slot.state next)
    pure ((), pool.setSlot id
      { slot with state := next, bytes := if next = .free then slot.bytes.zeroed else slot.bytes })

def fail (id : DirectBufferId) : Action DirectBufferPool DirectBufferStateError Unit :=
  transition id .failed

def quarantine (id : DirectBufferId) : Action DirectBufferPool DirectBufferStateError Unit :=
  transition id .quarantined

def releaseAbandonedRead (id : DirectBufferId) : Action DirectBufferPool DirectBufferStateError Unit :=
  .updates fun pool => do
    let slot ← pool.slot id
    if slot.state ≠ .readInflight then
      throw (.state slot.state .free)
    pure ((), pool.setSlot id { slot with state := .free, bytes := slot.bytes.zeroed })

def activeSlots (pool : DirectBufferPool) : Nat :=
  pool.slots.countP fun slot => slot.state.isActive

end DirectBufferPool

inductive DirectOperationKind where
  | read
  | write
  | fsync
deriving DecidableEq, Repr

inductive DirectCompletionKind where
  | original
  | asyncCancel
deriving DecidableEq, Repr

structure DirectCompletionToken where
  userData : Nat
deriving DecidableEq, Repr

inductive DirectDescriptorError where
  | capacity
  | identity
  | unknownSlot
  | staleGeneration
  | role
  | missing
  | noPendingCompletion
deriving DecidableEq, Repr

namespace DirectCompletionToken

def cancelBit : Nat := 1
def slotMask : Nat := 0x7fffffff

def role : DirectCompletionKind → Nat
  | .original => 0
  | .asyncCancel => cancelBit

def new (slot generation : Nat) (kind : DirectCompletionKind) : DirectCompletionToken :=
  ⟨(generation <<< 32) ||| (slot <<< 1) ||| role kind⟩

def kind (token : DirectCompletionToken) : DirectCompletionKind :=
  if token.userData &&& cancelBit = 0 then .original else .asyncCancel

def slot (token : DirectCompletionToken) : Nat := (token.userData >>> 1) &&& slotMask

def generation (token : DirectCompletionToken) : Nat := (token.userData >>> 32) % 2 ^ 32

def ofWord (word : UInt64) : DirectCompletionToken := ⟨word.toNat⟩

def fromUserData (userData : UInt64) : Except DirectDescriptorError DirectCompletionToken :=
  let token := ofWord userData
  if token.generation = 0 then .error .identity else .ok token

end DirectCompletionToken

structure DirectDescriptorBinding where
  buffer : DirectBufferId
  operationGeneration : Nat
  operation : DirectOperationKind
deriving DecidableEq, Repr

structure DirectDescriptorEntry where
  binding : DirectDescriptorBinding
  originalPending : Bool
  cancelPending : Bool
deriving DecidableEq, Repr

def DirectDescriptorEntry.pending (entry : DirectDescriptorEntry) : DirectCompletionKind → Bool
  | .original => entry.originalPending
  | .asyncCancel => entry.cancelPending

def DirectDescriptorEntry.clear (entry : DirectDescriptorEntry) :
    DirectCompletionKind → DirectDescriptorEntry
  | .original => { entry with originalPending := false }
  | .asyncCancel => { entry with cancelPending := false }

structure DirectDescriptorSlot where
  generation : Nat
  retired : Bool
  entry : Option DirectDescriptorEntry
deriving DecidableEq, Repr

structure DirectDescriptorTable where
  slots : List DirectDescriptorSlot
  nextSearch : Nat
deriving DecidableEq, Repr

namespace DirectDescriptorTable

def new (capacity : Nat) : Except DirectDescriptorError DirectDescriptorTable := do
  if capacity = 0 ∨ capacity > 0x80000000 then
    throw .capacity
  pure { slots := List.replicate capacity ⟨0, false, none⟩, nextSearch := 0 }

/-- What the loop of `allocate` does with one slot. -/
def visit (binding : DirectDescriptorBinding) (_ : Nat) (slot : DirectDescriptorSlot) :
    Visit DirectDescriptorSlot Nat :=
  if slot.retired ∨ slot.entry.isSome then .skip slot
  else
    match checkedAdd 32 slot.generation 1 with
    | none => .skip { slot with retired := true }
    | some generation =>
      if generation = 0 then .skip { slot with retired := true }
      else .take { slot with generation, entry := some ⟨binding, true, false⟩ } generation

def allocate (binding : DirectDescriptorBinding) :
    Action DirectDescriptorTable DirectDescriptorError DirectCompletionToken := fun table =>
  if binding.buffer.isValid = false ∨ binding.operationGeneration = 0 then (.error .identity, table)
  else
    match scanRing (visit binding) table.nextSearch table.slots.length 0 table.slots with
    | (none, slots) => (.error .capacity, { table with slots })
    | (some (index, generation), slots) =>
      (okOr ((narrow 32 index).map fun slot => .new slot generation .original) .capacity,
        { slots, nextSearch := (index + 1) % slots.length })

def slot (table : DirectDescriptorTable) (token : DirectCompletionToken) :
    Except DirectDescriptorError DirectDescriptorSlot := do
  if token.generation = 0 then
    throw .identity
  let slot ← okOr table.slots[token.slot]? .unknownSlot
  if slot.generation ≠ token.generation then
    throw .staleGeneration
  pure slot

def setSlot (table : DirectDescriptorTable) (token : DirectCompletionToken) (slot : DirectDescriptorSlot) :
    DirectDescriptorTable :=
  { table with slots := table.slots.set token.slot slot }

def issueCancel (original : DirectCompletionToken) :
    Action DirectDescriptorTable DirectDescriptorError DirectCompletionToken :=
  .updates fun table => do
    if original.kind ≠ .original then
      throw .role
    let slot ← table.slot original
    let entry ← okOr slot.entry .missing
    if entry.originalPending = false ∨ entry.cancelPending then
      throw .noPendingCompletion
    pure (.new original.slot original.generation .asyncCancel,
      table.setSlot original { slot with entry := some { entry with cancelPending := true } })

def resolve (table : DirectDescriptorTable) (token : DirectCompletionToken) :
    Except DirectDescriptorError DirectDescriptorBinding := do
  let slot ← table.slot token
  let entry ← okOr slot.entry .missing
  if entry.pending token.kind = false then
    throw .noPendingCompletion
  pure entry.binding

def complete (token : DirectCompletionToken) :
    Action DirectDescriptorTable DirectDescriptorError DirectDescriptorBinding :=
  .updates fun table => do
    let slot ← table.slot token
    let entry ← okOr slot.entry .missing
    if entry.pending token.kind = false then
      throw .noPendingCompletion
    let cleared := entry.clear token.kind
    let kept := if cleared.originalPending = false ∧ cleared.cancelPending = false then none else some cleared
    pure (entry.binding, table.setSlot token { slot with entry := kept })

def outstandingDescriptors (table : DirectDescriptorTable) : Nat :=
  table.slots.countP fun slot => slot.entry.isSome

end DirectDescriptorTable

/-- A call on the table; tokens come back from the kernel as words. -/
inductive DescriptorCall where
  | allocate (binding : DirectDescriptorBinding)
  | issueCancel (original : UInt64)
  | resolve (token : UInt64)
  | complete (token : UInt64)
deriving DecidableEq

inductive DescriptorReply where
  | token (result : Except DirectDescriptorError DirectCompletionToken)
  | binding (result : Except DirectDescriptorError DirectDescriptorBinding)
deriving DecidableEq

def DirectDescriptorTable.call (table : DirectDescriptorTable) :
    DescriptorCall → DescriptorReply × DirectDescriptorTable
  | .allocate binding =>
    let (result, next) := allocate binding table
    (.token result, next)
  | .issueCancel original =>
    let (result, next) := issueCancel (.ofWord original) table
    (.token result, next)
  | .resolve token => (.binding (table.resolve (.ofWord token)), table)
  | .complete token =>
    let (result, next) := complete (.ofWord token) table
    (.binding result, next)

end Glmaxx.Cache
