import Glmaxx.Proof.Restore.Admission
import Glmaxx.Proof.Restore.Cancellation
import Glmaxx.Proof.Restore.Submission
import Glmaxx.Proof.Restore.Workers

namespace Glmaxx.Proof.Restore
open Std Library Cache Cache.DirectRestoreTable

variable {stray : Prop}
variable {t t' : DirectRestoreTable} {id : Nat} {ticket : DirectRestoreTicket} {buffer : DirectBufferId}

def Calm (t : DirectRestoreTable) : Prop :=
  ∀ (id : Nat) (ticket : DirectRestoreTicket), t.tickets[id]? = some ticket → ticket.originalPending = false

theorem Settled.calm {left : DirectRestoreTicket} (settled : Settled stray id (some left) t t')
    (found : t.tickets[id]? = some ticket) (same : left.originalPending = ticket.originalPending) (calm : Calm t) :
    Calm t' := by
  intro j other isOther
  by_cases here : j = id
  · subst here
    rw [settled.found] at isOther
    cases isOther
    exact same.trans (calm j ticket found)
  · rw [settled.inner.touches.tickets_eq j here] at isOther
    exact calm j other isOther

section Completions

theorem completeOriginal_obeys (steady : Steady stray t) (completion : DirectReadCompletion) :
    Obeys stray (.completeOriginal id completion) (completeOriginal id completion) t := by
  by_cases pending : ∃ ticket, t.tickets[id]? = some ticket ∧ ticket.originalPending = true ∧ ticket.state ≠ .failed
  · obtain ⟨ticket, found, pending, live⟩ := pending
    obtain ⟨t', ran, completed⟩ := completeOriginal_ok steady.sound found pending live completion
    have steady' := steady.touched completed.sound completed.touches completed.hashes_le
    refine Action.Ends.of_ok ran (steady'.moved completed.touches ?_)
    rw [found, completed.found]
    have reply := congrArg Prod.fst ran
    have open_state := ((steady.sound.each found).filed.phase.original pending live).2
    cases state : ticket.state with
    | readSubmitted =>
      cases completion with
      | exact => exact .arrived state reply
      | cancelled | failed => exact .ends _ (dead_ite (.inr rfl))
    | abandoned =>
      cases completion with
      | exact | cancelled => exact .ends _ (dead_ite (.inl state))
      | failed => exact .ends _ (dead_ite (.inr rfl))
    | planned | bufferReserved | dataReady | hashVerified | failed => simp [state] at open_state
  · refine Action.Ends.reads (fun ticket isTicket => ?_) fun _ _ => steady.rest
    refine Action.Ends.failIf (fun _ => steady.rest) fun accepted => ?_
    obtain ⟨isPending, state⟩ := not_or.mp accepted
    refine absurd ⟨ticket, okOr_eq_ok.mp isTicket, by simpa using isPending, ?_⟩ pending
    intro failed
    simp [failed] at state

theorem completeCancel_obeys (steady : Steady stray t) : Obeys stray (.completeCancel id) (completeCancel id) t := by
  by_cases pending : ∃ ticket, t.tickets[id]? = some ticket ∧ ticket.cancelPending = true
  · obtain ⟨ticket, found, pending⟩ := pending
    obtain ⟨t', ran, completed⟩ := completeCancel_ok steady.sound found pending
    have steady' := steady.touched completed.sound completed.touches completed.hashes_le
    refine Action.Ends.of_ok ran (steady'.moved completed.touches ?_)
    rw [found, completed.found]
    exact .ends _ (dead_ite (((steady.sound.each found).filed.phase.cancel pending).imp (·.1) (·.1)))
  · refine Action.Ends.reads (fun ticket isTicket => ?_) fun _ _ => steady.rest
    refine Action.Ends.failIf (fun _ => steady.rest) fun accepted => ?_
    exact absurd ⟨ticket, okOr_eq_ok.mp isTicket, by simpa using (not_or.mp accepted).1⟩ pending

theorem finishCpuDelivery_obeys (steady : Steady stray t) : Obeys stray (.finishCpuDelivery id) (finishCpuDelivery id) t := by
  by_cases verified : ∃ ticket, t.tickets[id]? = some ticket ∧ ticket.state = .hashVerified
  · obtain ⟨ticket, found, verified⟩ := verified
    obtain ⟨t', ran, settled⟩ := deliver_ok steady.sound found verified
    exact Action.Ends.of_ok ran (settled.follows steady found (.ends _ .none))
  · refine Action.Ends.reads (fun ticket isTicket => ?_) fun _ _ => steady.rest
    refine Action.Ends.failIf (fun _ => steady.rest) fun accepted => ?_
    exact absurd ⟨ticket, okOr_eq_ok.mp isTicket, not_not.mp (not_or.mp accepted).1⟩ verified

theorem completeHash_advances (sound : Sound stray t) (found : t.tickets[id]? = some ticket)
    (running : ticket.hashState = .running) (held : ticket.buffer = some buffer) (verified : Bool)
    (shared : Option Bool) :
    ∃ outcome t', completeHash ⟨⟨id, buffer⟩, verified, shared⟩ t = (outcome, t') ∧
      Advances stray id (burden ticket) t t' ∧
      Moves t id (.completeHash ⟨⟨id, buffer⟩, verified, shared⟩) (some ticket) t'.tickets[id]? := by
  have phase := (sound.each found).filed.phase
  have hashable := phase.hashable (.inr running)
  have start : completeHash ⟨⟨id, buffer⟩, verified, shared⟩ t =
      (if verified then finishHash id ticket.state buffer
        else do
          failTicket id
          .fail .integrity) t := by
    refine (Action.bind_ok (ticket_ok found)).trans ?_
    refine (Action.bind_ok (Action.failIf_neg ?_)).trans ?_
    · simp [hashable, running, held]
    · exact Action.bind_ok (Action.reads_ok (by rw [held]; rfl))
  rw [start]
  cases verified with
  | true =>
    obtain ⟨t', ran, settled⟩ := finishHash_ok sound found (.inr running) held
    refine ⟨_, t', ran, settled.advances ?_, settled.found ▸ ?_⟩
    · unfold afterHash
      split
      · exact Nat.lt_of_lt_of_le Nat.zero_lt_one (by unfold burden; omega)
      · simp only [burdenOf, Option.elim_some, burden, hashBurden, running]
        omega
    · unfold afterHash
      split
      next => exact .ends _ .none
      next other => exact .verified shared (hashable.1.resolve_right other) running held
  | false =>
    obtain ⟨t', ran, settled⟩ := failHashing_ok sound found (by simp [running]) (by simp [hashable.2.1])
    rw [if_neg (by simp [hashable.2.1, hashable.2.2])] at settled
    refine ⟨_, t', Action.bind_ok ran, settled.advances ?_, settled.found ▸ .ends _ .none⟩
    exact Nat.lt_of_lt_of_le Nat.zero_lt_one (by unfold burden; omega)

theorem completeHash_obeys (steady : Steady stray t) (result : DirectHashResult) :
    Obeys stray (.completeHash result) (completeHash result) t := by
  obtain ⟨⟨id, buffer⟩, verified, shared⟩ := result
  by_cases running : ∃ ticket, t.tickets[id]? = some ticket ∧ ticket.hashState = .running ∧ ticket.buffer = some buffer
  · obtain ⟨ticket, found, running, held⟩ := running
    obtain ⟨outcome, t', ran, advances, move⟩ := completeHash_advances steady.sound found running held verified shared
    have follows : Follows stray _ t t' := (steady.advances advances).moved advances.touches (found ▸ move)
    unfold Obeys Action.Ends
    rw [ran]
    cases outcome <;> exact follows
  · refine Action.Ends.reads (fun ticket isTicket => ?_) fun _ _ => steady.rest
    refine Action.Ends.failIf (fun _ => steady.rest) fun accepted => ?_
    simp only [not_or, not_not] at accepted
    exact absurd ⟨ticket, okOr_eq_ok.mp isTicket, accepted.2⟩ running

end Completions

section Pool
variable {workers : DirectChecksumWorkers} {e : DirectRestoreError} {α : Type} {request : RestoreCall}

theorem failChecksumPool_ends {start : DirectRestoreTable} (sound : Sound stray t)
    (pool : t.checksumWorkers = some workers) (calm : Calm t ∨ stray) (before : Culled start t) :
    Action.Ends (failChecksumPool >>= fun _ => (.fail e : Restore α)) t (fun _ => Follows stray request start)
      fun _ => Follows stray request start := by
  obtain ⟨t', ran, sound', zero, _, culled⟩ := failChecksumPool_ok sound pool fun id ticket found pending => by
    rcases calm with calm | strays
    · cases (calm id ticket found).symm.trans pending
    · exact strays
  have steady' : Steady stray t' := ⟨sound', fun _ => zero⟩
  exact Action.Ends.step ran ((before.trans culled).follows steady')

theorem failChecksumPool_reports (pool : t.checksumWorkers = some workers) :
    ((failChecksumPool >>= fun _ => (.fail e : Restore α)) t).2.poolFailed = true := by
  rw [Action.bind_fail_state]
  exact failChecksumPool_marks pool

section
variable (steady : Steady stray t)
include steady

theorem dispatchNextChecksum_obeys (answer : TrySend)
    (calm : t.poolFailed = false → (dispatchNextChecksum answer t).2.poolFailed = true → Calm t ∨ stray) :
    Obeys stray (.dispatchNextChecksum answer) (dispatchNextChecksum answer) t := by
  cases pool : t.checksumWorkers with
  | none =>
    refine Action.Ends.step rfl (Action.Ends.reads (fun workers isPool => ?_) fun _ _ => steady.rest)
    rw [pool] at isPool
    cases isPool
  | some workers =>
    by_cases healthy : workers.failed = true
    · refine Action.Ends.step rfl (Action.Ends.step (Action.reads_ok (by rw [pool]; rfl)) ?_)
      exact Action.Ends.failIf (fun _ => steady.rest) fun sane => absurd healthy sane
    cases first : t.firstQueued with
    | none =>
      refine Action.Ends.of_ok (a := none) ?_ steady.rest
      refine (Action.bind_ok rfl).trans ((Action.bind_ok (Action.reads_ok (by rw [pool]; rfl))).trans ?_)
      refine (Action.bind_ok (Action.failIf_neg healthy)).trans ?_
      rw [first]
      rfl
    | some entry =>
      obtain ⟨id, ticket⟩ := entry
      obtain ⟨found, queued⟩ := firstQueued_found first
      have start : dispatchNextChecksum answer t = dispatchChecksum id ticket answer t := by
        refine (Action.bind_ok rfl).trans ((Action.bind_ok (Action.reads_ok (by rw [pool]; rfl))).trans ?_)
        refine (Action.bind_ok (Action.failIf_neg healthy)).trans ?_
        rw [first]
      obtain ⟨buffer, t₁, ran, settled⟩ := dispatchChecksum_run steady.sound found queued answer
      obtain ⟨t₂, back, settled₂⟩ := setHashState_ok settled.sound settled.found (.inr rfl) (.inl rfl)
      have pool₂ : t₂.checksumWorkers = some workers :=
        (settled₂.inner.touches.workers_eq.trans settled.inner.touches.workers_eq).trans pool
      have steady₂ := (steady.settled settled).settled settled₂
      -- a job that is not taken leaves its ticket as it was
      have back_same : Culled t t₂ := by
        refine ⟨fun j => .inl ?_, settled₂.inner.touches.nextTicket_eq.trans settled.inner.touches.nextTicket_eq⟩
        by_cases here : j = id
        · subst here
          rw [settled₂.found, found, ← queued]
        · rw [settled₂.inner.touches.tickets_eq j here, settled.inner.touches.tickets_eq j here]
      unfold Obeys Action.Ends
      rw [start, ran]
      rw [start, ran] at calm
      cases answer with
      | sent => exact settled.follows steady found (.dispatched _ ticket)
      | full =>
        have ends : sendJob ⟨id, buffer⟩ .full t₁ = (.error .workerWait, t₂) := Action.bind_ok back
        rw [ends]
        exact back_same.follows steady₂
      | disconnected =>
        have ends : sendJob ⟨id, buffer⟩ .disconnected t₁ = _ := Action.bind_ok back
        rw [ends] at calm ⊢
        have live : t.poolFailed = false := by
          rw [poolFailed, pool]
          exact Bool.not_eq_true _ ▸ healthy
        have calm₁ := (calm live (failChecksumPool_reports pool₂)).imp_left (settled.calm found rfl)
        exact failChecksumPool_ends settled₂.sound pool₂ (calm₁.imp_left (settled₂.calm settled.found rfl)) back_same

theorem acceptOutcome_obeys (pool : t.checksumWorkers = some workers)
    (found : t.tickets[id]? = some ticket) (running : ticket.hashState = .running)
    (outcome : DirectChecksumOutcome)
    (calm : (acceptOutcome ⟨id, buffer⟩ outcome t).2.poolFailed = true → Calm t ∨ stray) :
    Obeys stray request (acceptOutcome ⟨id, buffer⟩ outcome) t := by
  have sound := steady.sound
  cases outcome with
  | verified integrity shared =>
    cases shared with
    | true => exact Action.Ends.pure steady.rest
    | false => exact failChecksumPool_ends sound pool (calm (failChecksumPool_reports pool)) (.refl t)
  | workerPanic => exact failChecksumPool_ends sound pool (calm (failChecksumPool_reports pool)) (.refl t)
  | bufferFailure failure =>
    have hashable := (sound.each found).filed.phase.hashable (.inr running)
    obtain ⟨t', ran, settled⟩ := failHashing_ok sound found (by simp [running]) (by simp [hashable.2.1])
    exact Action.Ends.step ran (settled.follows steady found (.ends _ (dead_ite (.inr rfl))))

theorem pollChecksumResult_obeys (answer : TryReceive)
    (calm : t.poolFailed = false → (pollChecksumResult answer t).2.poolFailed = true → Calm t ∨ stray) :
    Obeys stray (.pollChecksumResult answer) (pollChecksumResult answer) t := by
  cases pool : t.checksumWorkers with
  | none =>
    refine Action.Ends.reads (fun workers isPool => ?_) fun _ _ => steady.rest
    rw [pool] at isPool
    cases isPool
  | some workers =>
    by_cases healthy : workers.failed = true
    · refine Action.Ends.step (Action.reads_ok (by rw [pool]; rfl)) ?_
      exact Action.Ends.failIf (fun _ => steady.rest) fun sane => absurd healthy sane
    have live : t.poolFailed = false := by
      rw [poolFailed, pool]
      exact Bool.not_eq_true _ ▸ healthy
    have enters (x : Restore (Option DirectHashResult)) :
        ((.reads fun table => okOr table.checksumWorkers .workerUnavailable) >>= fun workers =>
          .failIf (workers.failed = true) .workerPanic >>= fun _ => x : Restore _) t = x t := by
      refine (Action.bind_ok (Action.reads_ok (by rw [pool]; rfl))).trans ?_
      exact Action.bind_ok (Action.failIf_neg healthy)
    unfold Obeys Action.Ends
    cases answer with
    | empty =>
      rw [show pollChecksumResult .empty t = (pure none : Restore _) t from enters _]
      exact steady.rest
    | disconnected =>
      rw [show pollChecksumResult .disconnected t = _ from enters _] at calm ⊢
      exact failChecksumPool_ends steady.sound pool (calm live (failChecksumPool_reports pool)) (.refl t)
    | received completion =>
      rw [show pollChecksumResult (.received completion) t = acceptCompletion completion t from enters _] at calm ⊢
      obtain ⟨⟨id, buffer⟩, outcome⟩ := completion
      by_cases running :
          ∃ ticket, t.tickets[id]? = some ticket ∧ ticket.hashState = .running ∧ ticket.buffer = some buffer
      · obtain ⟨ticket, found, running, held⟩ := running
        have hashable := (steady.sound.each found).filed.phase.hashable (.inr running)
        have accepts : acceptCompletion ⟨⟨id, buffer⟩, outcome⟩ t = acceptOutcome ⟨id, buffer⟩ outcome t := by
          refine (Action.bind_ok (ticket_ok found)).trans ?_
          exact Action.bind_ok (Action.failIf_neg (by simp [hashable, running, held]))
        rw [accepts] at calm ⊢
        exact acceptOutcome_obeys steady pool found running outcome (calm live)
      · refine Action.Ends.reads (fun ticket isTicket => ?_) fun _ _ => steady.rest
        refine Action.Ends.failIf (fun _ => steady.rest) fun accepted => ?_
        simp only [not_or, not_not] at accepted
        exact absurd ⟨ticket, okOr_eq_ok.mp isTicket, accepted.2⟩ running

theorem nextHashJob_obeys : Obeys stray .nextHashJob nextHashJob t := by
  refine Action.Ends.step rfl (Action.Ends.failIf (fun _ => steady.rest) fun _ => ?_)
  cases first : t.firstQueued with
  | none => exact Action.Ends.pure steady.rest
  | some entry =>
    obtain ⟨found, queued⟩ := firstQueued_found first
    obtain ⟨job, t', ran, settled⟩ := runningJob_ok steady.sound found queued
    exact Action.Ends.of_ok ran (settled.follows steady found (.dispatched _ _))

theorem runHashJob_obeys (sha256 : List UInt8 → Bytes32) (job : DirectHashJob) :
    Obeys stray (.runHashJob job) (runHashJob sha256 job) t := by
  refine Action.Ends.step rfl (Action.Ends.failIf (fun _ => steady.rest) fun _ => ?_)
  refine Action.Ends.reads (fun ticket _ => ?_) fun _ _ => steady.rest
  refine Action.Ends.failIf (fun _ => steady.rest) fun _ => ?_
  refine Action.Ends.reads (fun bytes _ => ?_) fun _ _ => steady.rest
  exact Action.Ends.reads (fun verified _ => Action.Ends.pure steady.rest) fun _ _ => steady.rest

theorem startChecksumWorkers_obeys (workerCount : Nat) (spawned : Bool) :
    Obeys stray (.startChecksumWorkers workerCount spawned) (startChecksumWorkers workerCount spawned) t := by
  refine Action.Ends.step rfl (Action.Ends.failIf (fun _ => steady.rest) fun accepted => ?_)
  simp only [not_or, not_not, Bool.not_eq_true] at accepted
  refine Action.Ends.reads (fun workers _ => ?_) fun _ _ => steady.rest
  have after : Steady stray { t with checksumWorkers := some workers } := by
    refine ⟨steady.sound.rewire (some workers) t.checksumWorkersRetired fun retired => ?_, fun _ => accepted.2.2⟩
    rw [accepted.2.1] at retired
    cases retired
  exact after.rests rfl rfl

theorem shutdownChecksumWorkers_obeys (panicked : Bool) :
    Obeys stray (.shutdownChecksumWorkers panicked) (shutdownChecksumWorkers panicked) t := by
  refine Action.Ends.step rfl (Action.Ends.failIf (fun _ => steady.rest) fun idle => ?_)
  have idle := not_not.mp idle
  refine Action.Ends.reads (fun workers _ => ?_) fun _ _ => steady.rest
  have after : Steady stray { t with checksumWorkers := none, checksumWorkersRetired := true } :=
    ⟨steady.sound.rewire none true fun _ => ⟨rfl, idle⟩, fun _ => idle⟩
  refine Action.Ends.step rfl ?_
  unfold Action.Ends Action.failIf
  split
  next _ _ ran =>
    split at ran <;> cases ran
    exact after.rests rfl rfl
  next _ _ ran =>
    split at ran <;> cases ran
    exact after.rests rfl rfl

end

end Pool

section Calls

theorem discard_state {α : Type} (x : Restore α) (t : DirectRestoreTable) : (DirectRestoreTable.discard x t).2 = (x t).2 := by
  cases outcome : x t with
  | mk result t' =>
    cases result with
    | ok a => exact congrArg Prod.snd (Action.bind_ok outcome)
    | error e => exact congrArg Prod.snd (Action.bind_error outcome)

theorem Obeys.discarded {α : Type} {x : Restore α} {request : RestoreCall} (obeys : Obeys stray request x t) :
    Follows stray request t (DirectRestoreTable.discard x t).2 :=
  discard_state x t ▸ obeys.state

theorem call_follows (sha256 : List UInt8 → Bytes32) (request : RestoreCall) (steady : Steady stray t)
    (calm : t.poolFailed = false → (call sha256 request t).2.poolFailed = true → Calm t ∨ stray) :
    Follows stray request t (call sha256 request t).2 := by
  cases request with
  | plan demand record epoch digest => exact discard_state (plan demand record epoch digest) t ▸ plan_follows steady
  | reserveBuffer id => exact (reserveBuffer_obeys steady).discarded
  | submitRead id => exact (submitRead_obeys steady).state
  | copyIntoReadDestination id offset source => exact (copyIntoReadDestination_obeys steady offset source).state
  | cancelWaiter request supported => exact (cancelWaiter_obeys steady supported).discarded
  | completeOriginal id completion => exact (completeOriginal_obeys steady completion).state
  | completeCancel id => exact (completeCancel_obeys steady).state
  | startChecksumWorkers workerCount spawned => exact (startChecksumWorkers_obeys steady workerCount spawned).state
  | dispatchNextChecksum answer =>
    have calm : t.poolFailed = false → (dispatchNextChecksum answer t).2.poolFailed = true → Calm t ∨ stray :=
      discard_state (dispatchNextChecksum answer) t ▸ calm
    exact (dispatchNextChecksum_obeys steady answer calm).discarded
  | pollChecksumResult answer =>
    have calm : t.poolFailed = false → (pollChecksumResult answer t).2.poolFailed = true → Calm t ∨ stray :=
      discard_state (pollChecksumResult answer) t ▸ calm
    exact (pollChecksumResult_obeys steady answer calm).discarded
  | nextHashJob => exact (nextHashJob_obeys steady).discarded
  | runHashJob job => exact (runHashJob_obeys steady sha256 job).discarded
  | completeHash result => exact (completeHash_obeys steady result).state
  | finishCpuDelivery id => exact (finishCpuDelivery_obeys steady).discarded
  | shutdownChecksumWorkers panicked => exact (shutdownChecksumWorkers_obeys steady panicked).state

end Calls

end Glmaxx.Proof.Restore
