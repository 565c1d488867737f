import Glmaxx.Proof.Scheduling.Completion

namespace Glmaxx.Proof.Scheduling
open Std Library Cache Engine Glmaxx.Scheduling Glmaxx.Scheduling.Scheduler

variable {s s' t : Scheduler} {cached : Nat → Nat} {counter : Counter} {success : Bool}
  {batch : ScheduledBatch} {request request' : Request} {entry : SchedulerCall}

section Calls

def admission : SchedulerCall → Option (RequestSpec × UInt32)
  | .admitRequest spec => some (spec, 0)
  | .admitWithPrefix spec cachedPromptTokens => some (spec, cachedPromptTokens)
  | _ => none

def completion : SchedulerCall → Option Bool
  | .completeBatch success | .completeBatchWithCommits success _ | .completeBatchWithResults success _ => some success
  | _ => none

inductive Accepts : SchedulerCall → Scheduler → Scheduler → Prop where
  | admits {entry : SchedulerCall} {spec : RequestSpec} {tokens : UInt32} {s s' : Scheduler}
      (isAdmission : admission entry = some (spec, tokens)) (admits : Admits spec tokens s s') : Accepts entry s s'
  | cancels {id : Nat} {s : Scheduler} {request : Request} (found : s.requests[id]? = some request)
      (live : request.state.isTerminal = false) :
      Accepts (.cancel id) s { s with cancellations := insert id s.cancellations }
  | ignores {id : Nat} {s : Scheduler} : Accepts (.cancel id) s s
  | settles {entry : SchedulerCall} {s : Scheduler} (idle : s.inflight = none)
      (isBoundary : entry = .applyCancellationsAtBoundary ∨ entry = .nextBatch ∧ ¬Runnable (applyCancellations s)) :
      Accepts entry s (applyCancellations s)
  | launches {s : Scheduler} {batch : ScheduledBatch} (idle : s.inflight = none)
      (chosen : Chosen (applyCancellations s) batch) :
      Accepts .nextBatch s (launched (applyCancellations s) batch)
  | completes {entry : SchedulerCall} {s s' : Scheduler} {success : Bool} {batch : ScheduledBatch}
      (isCompletion : completion entry = some success) (inflight : s.inflight = some batch)
      (completes : Completes success batch s s') : Accepts entry s s'

def Refuses (entry : SchedulerCall) (s s' : Scheduler) : Prop :=
  s' = s ∨ entry = .nextBatch ∧ s.inflight = none ∧ s' = applyCancellations s ∧ Runnable s'

theorem cancel_ends (id : Nat) (s : Scheduler) :
    Action.Ends (cancel id) s (fun _ s' => Accepts (.cancel id) s s') (fun _ s' => s' = s) := by
  refine Action.Ends.updates (fun _ s' ran => ?_) fun _ _ => rfl
  obtain ⟨request, found, ran⟩ := bind_eq_ok.mp ran
  split at ran
  next => cases ran; exact .ignores
  next live => cases ran; exact .cancels (okOr_eq_ok.mp found) (by simpa using live)

theorem applyCancellationsAtBoundary_ends (s : Scheduler) : Action.Ends applyCancellationsAtBoundary s
      (fun _ s' => s.inflight = none ∧ s' = applyCancellations s) (fun _ s' => s' = s) := by
  refine Action.Ends.step rfl (Action.Ends.failIf (fun _ => rfl) fun idle => ?_)
  exact ⟨by simpa using idle, rfl⟩

theorem call_ends (counter : Counter) (entry : SchedulerCall) (s : Scheduler) :
    Action.Ends (call counter entry) s (fun _ s' => Accepts entry s s') (fun _ s' => Refuses entry s s') := by
  have completing (success : Bool) (completions : List BatchCompletion) (explicit : Bool)
      (isCompletion : completion entry = some success) :=
    (completeBatchInternal_ends counter success completions explicit s).mono
      (fun _ s' ⟨batch, inflight, done⟩ => (Accepts.completes isCompletion inflight done : Accepts entry s s'))
      fun _ s' same => (.inl same : Refuses entry s s')
  cases entry with
  | admitRequest spec => exact (admitWithPrefix_ends spec 0 s).mono (fun _ _ admits => .admits rfl admits) fun _ _ same => .inl same
  | admitWithPrefix spec tokens =>
    exact (admitWithPrefix_ends spec tokens s).mono (fun _ _ admits => .admits rfl admits) fun _ _ same => .inl same
  | cancel id => exact (cancel_ends id s).mono (fun _ _ accepts => accepts) fun _ _ same => .inl same
  | applyCancellationsAtBoundary =>
    refine (applyCancellationsAtBoundary_ends s).mono ?_ fun _ _ same => .inl same
    rintro _ _ ⟨idle, rfl⟩
    exact .settles idle (.inl rfl)
  | nextBatch =>
    cases inflight : s.inflight with
    | some batch => exact Action.Ends.of_error (Action.bind_error (nextBatch_busy inflight)) (.inl rfl)
    | none =>
      have chosen := (nextBatch_ends counter inflight).mono (fun _ _ good => good)
        fun _ s' ⟨same, runnable⟩ => (.inr ⟨rfl, inflight, same, runnable⟩ : Refuses .nextBatch s s')
      refine Action.Ends.bind chosen ?_
      rintro (_ | batch) s' good
      · obtain ⟨rfl, stuck⟩ := good
        exact Action.Ends.pure (.settles inflight (.inr ⟨rfl, stuck⟩))
      · obtain ⟨chosen, rfl⟩ := good
        exact Action.Ends.pure (.launches inflight chosen)
  | completeBatch success | completeBatchWithCommits success commits => exact completing success _ _ rfl
  | completeBatchWithResults success completions => exact completing success _ _ rfl

end Calls

end Glmaxx.Proof.Scheduling
