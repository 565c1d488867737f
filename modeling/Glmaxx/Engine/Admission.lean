import Mathlib

namespace Glmaxx.Engine

def workerStatePoisoned : BitVec 64 := 1#64 <<< 63
def workerStateClosed : BitVec 64 := 1#64 <<< 62
def workerStateExclusive : BitVec 64 := 1#64 <<< 61
def workerStateCountMask : BitVec 64 := workerStateExclusive - 1

inductive AdmissionError where
  | poisoned
  | closed
  | saturated
deriving DecidableEq, Repr

def workerAdmissionError (state : BitVec 64) : AdmissionError :=
  if state &&& workerStatePoisoned ≠ 0 then .poisoned
  else if state &&& workerStateClosed ≠ 0 then .closed
  else .saturated

section Word

def reserveSlot (maximumOutstanding current : BitVec 64) : Except AdmissionError (BitVec 64) :=
  let count := current &&& workerStateCountMask
  if current &&& ~~~workerStateCountMask = 0 ∧ count < maximumOutstanding then .ok (current + 1)
  else .error (workerAdmissionError current)

def tryReserveExclusive (current : BitVec 64) : Except AdmissionError (BitVec 64) :=
  if current = 0 then .ok workerStateExclusive else .error (workerAdmissionError current)

def dropOutstandingPermit (current : BitVec 64) : BitVec 64 :=
  let count := current &&& workerStateCountMask
  if count = 0 then current ||| workerStatePoisoned
  else (current &&& ~~~workerStateCountMask) ||| (count - 1)

def dropExclusivePermit (current : BitVec 64) : BitVec 64 :=
  if current &&& workerStateExclusive ≠ 0 ∧ current &&& workerStateCountMask = 0
      ∧ current &&& workerStatePoisoned = 0 then current &&& ~~~workerStateExclusive
  else (current &&& ~~~workerStateExclusive) ||| workerStatePoisoned

def setClosed (current : BitVec 64) : BitVec 64 := current ||| workerStateClosed

end Word

inductive PoolCommandKind where
  | initializePageTable
  | applyDelta
  | checkpointDeviceIdentities
  | loadWeights
  | shutdownWeights
  | execute
deriving DecidableEq, Repr

def PoolCommandKind.isExclusive : PoolCommandKind → Bool
  | .execute => false
  | _ => true

/-- One call of a client, with the permit that goes with it. -/
structure Operation where
  id : Nat
  kind : PoolCommandKind
deriving DecidableEq, Repr

/-- Where the dispatcher thread is. After `leaving` it drops the closing guard, then the receiver. -/
inductive Dispatcher where
  | receiving
  | running (operation : Operation)
  | decided (operation : Operation) (success : Bool)
  | releasing (operation : Operation) (success : Bool)
  | replying (operation : Operation) (success : Bool)
  | terminal
  | leaving
  | draining
deriving DecidableEq, Repr

def terminates (operation : Operation) (success : Bool) : Bool :=
  !success || operation.kind = .shutdownWeights

structure WorkerPool where
  stateWord : BitVec 64
  maximumOutstanding : BitVec 64
  nextId : Nat
  -- reserved by a client that has not sent its command yet
  held : List Operation
  queue : List Operation
  -- commands nobody will run, after a failed send or with the receiver: the response is gone, the permit is not yet
  dropping : List Operation
  dispatcher : Dispatcher
  senderOpen : Bool
  -- the results that were sent, with whether they are `Ok`
  replies : List (Operation × Bool)
deriving DecidableEq

inductive WorkerError where
  | config
deriving DecidableEq, Repr

inductive TrySendError where
  | full
  | disconnected
deriving DecidableEq, Repr

namespace WorkerPool

def spawn (maximumOutstanding : BitVec 64) : Except WorkerError WorkerPool :=
  if maximumOutstanding = 0 ∨ maximumOutstanding > workerStateCountMask then .error .config
  else .ok ⟨0, maximumOutstanding, 0, [], [], [], .receiving, true, []⟩

def connected (pool : WorkerPool) : Bool := pool.dispatcher ≠ .draining

/-- What `try_send` on the command channel answers. -/
def trySend (pool : WorkerPool) : Except TrySendError Unit :=
  if pool.connected = false then .error .disconnected
  else if pool.maximumOutstanding.toNat ≤ pool.queue.length then .error .full
  else .ok ()

def dropPermit (operation : Operation) (word : BitVec 64) : BitVec 64 :=
  if operation.kind.isExclusive then dropExclusivePermit word else dropOutstandingPermit word

def reserve (pool : WorkerPool) (kind : PoolCommandKind) : Except AdmissionError (BitVec 64) :=
  if kind.isExclusive then tryReserveExclusive pool.stateWord
  else reserveSlot pool.maximumOutstanding pool.stateWord

end WorkerPool

/-- One atomic action of a thread. -/
inductive PoolAction where
  -- clients
  | reserve (kind : PoolCommandKind)
  | send (operation : Operation)
  | abandon (operation : Operation)
  | dropPermit (operation : Operation)
  | closeSender
  -- the dispatcher
  | receive
  | decide (success : Bool)
  | closeOnFailure
  | release
  | reply
  | retire
  | disconnected
  | dropGuard
  | drain
deriving DecidableEq, Repr

namespace WorkerPool

/-- A client's `try_send` or `send`. A blocking `send` on a full channel waits, so it has no step then. -/
def sendCommand (pool : WorkerPool) (operation : Operation) : Option WorkerPool :=
  match pool.trySend with
  | .ok () => some { pool with held := pool.held.erase operation, queue := pool.queue ++ [operation] }
  | .error .disconnected =>
    some { pool with held := pool.held.erase operation, dropping := operation :: pool.dropping }
  | .error .full =>
    if operation.kind.isExclusive then none
    else some { pool with held := pool.held.erase operation, dropping := operation :: pool.dropping }

def step (pool : WorkerPool) : PoolAction → Option WorkerPool
  | .reserve kind =>
    if pool.senderOpen = false then none
    else match pool.reserve kind with
      | .ok word => some { pool with
          stateWord := word, nextId := pool.nextId + 1, held := ⟨pool.nextId, kind⟩ :: pool.held }
      | .error _ => some pool
  | .send operation => if operation ∈ pool.held then pool.sendCommand operation else none
  -- a delta that does not verify is given up with its permit
  | .abandon operation =>
    if operation ∈ pool.held then
      some { pool with held := pool.held.erase operation, dropping := operation :: pool.dropping }
    else none
  | .dropPermit operation =>
    if operation ∈ pool.dropping then
      some { pool with
        stateWord := dropPermit operation pool.stateWord, dropping := pool.dropping.erase operation }
    else none
  -- the pool is dropped by its owner, so no client is inside a call
  | .closeSender => if pool.held = [] then some { pool with senderOpen := false } else none
  | .receive =>
    match pool.dispatcher, pool.queue with
    | .receiving, operation :: rest => some { pool with dispatcher := .running operation, queue := rest }
    | _, _ => none
  | .decide success =>
    match pool.dispatcher with
    | .running operation => some { pool with dispatcher := .decided operation success }
    | _ => none
  | .closeOnFailure =>
    match pool.dispatcher with
    | .decided operation success => some { pool with
        stateWord := if terminates operation success then setClosed pool.stateWord else pool.stateWord
        dispatcher := .releasing operation success }
    | _ => none
  | .release =>
    match pool.dispatcher with
    | .releasing operation success => some { pool with
        stateWord := dropPermit operation pool.stateWord, dispatcher := .replying operation success }
    | _ => none
  | .reply =>
    match pool.dispatcher with
    | .replying operation success => some { pool with
        replies := (operation, success) :: pool.replies
        dispatcher := if terminates operation success then .terminal else .receiving }
    | _ => none
  | .retire =>
    match pool.dispatcher with
    | .terminal => some { pool with stateWord := setClosed pool.stateWord, dispatcher := .leaving }
    | _ => none
  | .disconnected =>
    if pool.dispatcher = .receiving ∧ pool.queue = [] ∧ pool.senderOpen = false then
      some { pool with dispatcher := .leaving }
    else none
  | .dropGuard =>
    match pool.dispatcher with
    | .leaving => some { pool with stateWord := setClosed pool.stateWord, dispatcher := .draining }
    | _ => none
  -- the receiver goes and takes the commands left in the channel with it
  | .drain =>
    match pool.dispatcher, pool.queue with
    | .draining, operation :: rest => some { pool with queue := rest, dropping := operation :: pool.dropping }
    | _, _ => none

/-- The states that some interleaving reaches. -/
inductive Reachable (start : WorkerPool) : WorkerPool → Prop where
  | refl : Reachable start start
  | step {pool pool' : WorkerPool} (action : PoolAction) (before : Reachable start pool)
      (taken : pool.step action = some pool') : Reachable start pool'

end WorkerPool

end Glmaxx.Engine
