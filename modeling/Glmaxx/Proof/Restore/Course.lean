import Glmaxx.Proof.Restore.Closing

namespace Glmaxx.Proof.Restore
open Std Library Cache Cache.DirectRestoreTable

variable {stray : Prop}
variable {t t' : DirectRestoreTable} {id : Nat} {ticket : DirectRestoreTicket} {request : RestoreCall}

def Dead (ticket : Option DirectRestoreTicket) : Prop :=
  ∀ last, ticket = some last → last.state = .abandoned ∨ last.state = .failed

def waiterOf (demand : DirectRestoreRequest) : DirectRestoreWaiter := ⟨demand.tenantId, demand.requiredCapability⟩

inductive Moves (t : DirectRestoreTable) (id : Nat) :
    RestoreCall → Option DirectRestoreTicket → Option DirectRestoreTicket → Prop where
  | same (request : RestoreCall) (old : Option DirectRestoreTicket) : Moves t id request old old
  | ends (request : RestoreCall) {old : DirectRestoreTicket} {new : Option DirectRestoreTicket} (dead : Dead new) :
      Moves t id request (some old) new
  | created {demand : DirectRestoreRequest} {record : DirectExtentRecord} {epoch : Nat} {digest : Bytes32}
      {new : DirectRestoreTicket} (reply : (plan demand record epoch digest t).1 = .ok (.created id))
      (fresh : id = t.nextTicket) (capable : capabilitySatisfies record.capability demand.requiredCapability = true)
      (isRecord : new.record = record) (state : new.state = .planned)
      (waiters : new.waiters = (∅ : ExtTreeMap Nat DirectRestoreWaiter).insert demand.requestId (waiterOf demand)) :
      Moves t id (.plan demand record epoch digest) none (some new)
  | joined {demand : DirectRestoreRequest} {record : DirectExtentRecord} {epoch : Nat} {digest : Bytes32}
      {old : DirectRestoreTicket} (reply : (plan demand record epoch digest t).1 = .ok (.joined id))
      (capable : capabilitySatisfies record.capability demand.requiredCapability = true)
      (isRecord : old.record = record) (waited : ¬(old.state = .abandoned ∨ old.state = .failed)) :
      Moves t id (.plan demand record epoch digest) (some old)
        (some { old with waiters := old.waiters.insert demand.requestId (waiterOf demand) })
  | left (request : Nat) (supported : Bool) (old : DirectRestoreTicket) :
      Moves t id (.cancelWaiter request supported) (some old)
        (some { old with waiters := old.waiters.erase request })
  | reserved {old : DirectRestoreTicket} (buffer : DirectBufferId) (state : old.state = .planned) :
      Moves t id (.reserveBuffer id) (some old)
        (some { old with buffer := some buffer, state := .bufferReserved })
  | submitted {old : DirectRestoreTicket} (token : DirectCompletionToken) (state : old.state = .bufferReserved) :
      Moves t id (.submitRead id) (some old)
        (some { old with
          originalPending := true, originalToken := some token, hashState := .reserved, state := .readSubmitted })
  | arrived {old : DirectRestoreTicket} (state : old.state = .readSubmitted)
      (reply : (completeOriginal id .exact t).1 = .ok ()) :
      Moves t id (.completeOriginal id .exact) (some old)
        (some { old with originalPending := false, originalToken := none, hashState := .queued, state := .dataReady })
  | dispatched (request : RestoreCall) (old : DirectRestoreTicket) :
      Moves t id request (some old) (some { old with hashState := .running })
  | verified {old : DirectRestoreTicket} {buffer : DirectBufferId} (shared : Option Bool)
      (state : old.state = .dataReady) (running : old.hashState = .running) (held : old.buffer = some buffer) :
      Moves t id (.completeHash ⟨⟨id, buffer⟩, true, shared⟩) (some old)
        (some { old with state := .hashVerified, hashState := .none })

/-- A call leaves a steady table, in which every ticket has moved as it may. -/
structure Follows (stray : Prop) (request : RestoreCall) (t t' : DirectRestoreTable) : Prop where
  steady : Steady stray t'
  moves : ∀ id : Nat, Moves t id request t.tickets[id]? t'.tickets[id]?
  later : t.nextTicket ≤ t'.nextTicket

abbrev Obeys (stray : Prop) (request : RestoreCall) {α : Type} (x : Restore α) (t : DirectRestoreTable) : Prop :=
  Action.Ends x t (fun _ => Follows stray request t) (fun _ => Follows stray request t)

theorem Steady.rests (steady : Steady stray t') (tickets : t'.tickets = t.tickets) (next : t'.nextTicket = t.nextTicket) :
    Follows stray request t t' := by
  refine ⟨steady, fun id => ?_, next.ge⟩
  rw [tickets]
  exact .same _ _

theorem Steady.rest (steady : Steady stray t) : Follows stray request t t := steady.rests rfl rfl

theorem Steady.moved (steady : Steady stray t') (touches : Touches id t t')
    (move : Moves t id request t.tickets[id]? t'.tickets[id]?) : Follows stray request t t' := by
  refine ⟨steady, fun j => ?_, touches.nextTicket_eq.ge⟩
  by_cases here : j = id
  · subst here
    exact move
  · rw [touches.tickets_eq j here]
    exact .same _ _

theorem Settled.follows {left : Option DirectRestoreTicket} (settled : Settled stray id left t t')
    (steady : Steady stray t) (found : t.tickets[id]? = some ticket) (move : Moves t id request (some ticket) left) :
    Follows stray request t t' := by
  apply (steady.settled settled).moved settled.inner.touches
  rw [found, settled.found]
  exact move

theorem Dead.none : Dead none := nofun

theorem Dead.state {last : DirectRestoreTicket} (dead : last.state = .abandoned ∨ last.state = .failed) :
    Dead (some last) := by
  rintro _ ⟨⟩
  exact dead

theorem dead_ite {condition : Prop} [Decidable condition] {last : DirectRestoreTicket}
    (dead : last.state = .abandoned ∨ last.state = .failed) : Dead (if condition then some last else none) := by
  split
  · exact .state dead
  · exact .none

theorem Obeys.state {α : Type} {x : Restore α} (obeys : Obeys stray request x t) :
    Follows stray request t (x t).2 := by
  unfold Obeys Action.Ends at obeys
  split at obeys
  next ran => rw [ran]; exact obeys
  next ran => rw [ran]; exact obeys

end Glmaxx.Proof.Restore
