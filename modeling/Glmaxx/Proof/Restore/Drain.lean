import Glmaxx.Proof.Restore.Runs

namespace Glmaxx.Proof.Restore
open Std Library Cache Cache.DirectRestoreTable

variable {t t' start : DirectRestoreTable} {id : Nat} {ticket : DirectRestoreTicket} {request : RestoreCall}
  {allocation : Nat → Option Nat} {config : DirectRestoreConfig} {nodrop : Bool}
  {sha256 : List UInt8 → Bytes32} {calls : List RestoreCall}

section Burdens

theorem one_le_burden (ticket : DirectRestoreTicket) : 0 < burden ticket := by
  unfold burden
  omega

theorem Completed.advances {kind : DirectCompletionKind} {left : Option DirectRestoreTicket} {bound : Nat}
    (completed : Completed False kind id ticket left t t') (lighter : burdenOf left < bound) : Advances False id bound t t' :=
  ⟨completed.sound, completed.touches, completed.hashes_le, completed.found ▸ lighter⟩

theorem burdenOf_afterOriginal (phase : Phase False ticket) (pending : ticket.originalPending = true)
    (completion : DirectReadCompletion) : burdenOf (afterOriginal ticket ticket.state completion) < burden ticket := by
  obtain ⟨reserved, _⟩ := phase.original pending (phase.live pending)
  have cancelled : burden (cleared ticket .original) < burden ticket := by
    show 1 + 0 + (if ticket.cancelPending then 1 else 0) + hashBurden ticket.hashState + 2 * ticket.waiters.size < _
    unfold burden
    rw [if_pos pending]
    omega
  have failed : burden (failedTicket (cleared ticket .original)) < burden ticket := by
    have none : (∅ : ExtTreeMap Nat DirectRestoreWaiter).size = 0 := rfl
    simp only [burden, failedTicket, cleared, pending, reserved, hashBurden, none, if_true, Bool.false_eq_true,
      if_false]
    omega
  have queued : burden { cleared ticket .original with hashState := .queued, state := .dataReady } < burden ticket := by
    simp only [burden, cleared, pending, reserved, hashBurden, if_true, Bool.false_eq_true, if_false]
    omega
  have gone : burdenOf none < burden ticket := one_le_burden ticket
  unfold afterOriginal
  split
  · exact queued
  · split
    · exact cancelled
    · exact gone
  · split
    · exact cancelled
    · exact gone
  · split
    · exact failed
    · exact gone

theorem burdenOf_afterCancel (pending : ticket.cancelPending = true) :
    burdenOf (if ticket.originalPending then some (cleared ticket .asyncCancel) else none) < burden ticket := by
  split
  · simp only [burdenOf, Option.elim_some, burden, cleared, pending, if_true, Bool.false_eq_true, if_false]
    omega
  · exact one_le_burden ticket

end Burdens

section Steps

/-- The calls that finish what has been started: a completion arrives, a hash job is taken up or
completed, a verified extent is delivered, a waiter gives up. -/
inductive Drains (t : DirectRestoreTable) : RestoreCall → Prop where
  | original {id : Nat} {ticket : DirectRestoreTicket} (found : t.tickets[id]? = some ticket)
      (pending : ticket.originalPending = true) (completion : DirectReadCompletion) :
      Drains t (.completeOriginal id completion)
  | cancel {id : Nat} {ticket : DirectRestoreTicket} (found : t.tickets[id]? = some ticket)
      (pending : ticket.cancelPending = true) : Drains t (.completeCancel id)
  | next {id : Nat} {ticket : DirectRestoreTicket} (found : t.tickets[id]? = some ticket)
      (queued : ticket.hashState = .queued) (direct : t.checksumWorkers = none) : Drains t .nextHashJob
  | dispatch {id : Nat} {ticket : DirectRestoreTicket} (found : t.tickets[id]? = some ticket)
      (queued : ticket.hashState = .queued) (pooled : t.checksumWorkers ≠ none) :
      Drains t (.dispatchNextChecksum .sent)
  | hash {id : Nat} {ticket : DirectRestoreTicket} {buffer : DirectBufferId}
      (found : t.tickets[id]? = some ticket) (running : ticket.hashState = .running)
      (held : ticket.buffer = some buffer) (verified : Bool) (shared : Option Bool) :
      Drains t (.completeHash ⟨⟨id, buffer⟩, verified, shared⟩)
  | deliver {id : Nat} {ticket : DirectRestoreTicket} (found : t.tickets[id]? = some ticket)
      (verified : ticket.state = .hashVerified) : Drains t (.finishCpuDelivery id)
  | waiter {request id : Nat} (filed : t.requestToTicket[request]? = some id) (supported : Bool) :
      Drains t (.cancelWaiter request supported)

def weight (t : DirectRestoreTable) : Nat := total t.tickets fun _ ticket => burden ticket

theorem Advances.weight_lt (advances : Advances False id (burden ticket) t t') (found : t.tickets[id]? = some ticket) :
    weight t' < weight t := by
  have agree : total t'.tickets (fun _ ticket => burden ticket) + burdenOf t.tickets[id]? =
      total t.tickets (fun _ ticket => burden ticket) + burdenOf t'.tickets[id]? :=
    total_agree (fun _ ticket => burden ticket) id advances.touches.tickets_eq
  have lighter := advances.lighter
  have before : burdenOf t.tickets[id]? = burden ticket := by rw [found]; rfl
  unfold weight
  omega

theorem firstQueued_of_found (found : t.tickets[id]? = some ticket) (queued : ticket.hashState = .queued) :
    ∃ entry, t.firstQueued = some entry := by
  refine Option.isSome_iff_exists.mp (List.find?_isSome.mpr ⟨(id, ticket), mem_toList_iff.mpr found, ?_⟩)
  simpa using queued

theorem burden_running (queued : ticket.hashState = .queued) :
    burdenOf (some { ticket with hashState := .running }) < burden ticket := by
  simp only [burdenOf, Option.elim_some, burden, queued, hashBurden]
  omega

theorem Sound.hashing (sound : Sound False t) (found : t.tickets[id]? = some ticket)
    (hash : ticket.hashState ≠ .none) : t.activeHashJobs ≠ 0 := by
  have books : Books False t id (some ticket) := found ▸ sound.open id
  have drawn : usage ticket .hashes ≤ t.activeHashJobs := books.spent_le .hashes
  have used : usage ticket .hashes = 1 := if_pos hash
  omega

theorem nextHashJob_advances (sound : Sound False t) (found : t.tickets[id]? = some ticket)
    (queued : ticket.hashState = .queued) (direct : t.checksumWorkers = none) :
    ∃ id ticket, t.tickets[id]? = some ticket ∧ Advances False id (burden ticket) t (nextHashJob t).2 := by
  have serving : ¬(t.checksumWorkers.isSome = true ∨ t.checksumWorkersRetired = true) := by
    rintro (pooled | retired)
    · simp [direct] at pooled
    · exact sound.hashing found (by simp [queued]) (sound.quiet retired).2
  obtain ⟨⟨id, ticket⟩, first⟩ := firstQueued_of_found found queued
  obtain ⟨isTicket, isQueued⟩ := firstQueued_found first
  obtain ⟨job, t', ran, settled⟩ := runningJob_ok sound isTicket isQueued
  have start : nextHashJob t = runningJob id ticket t := by
    refine (Action.bind_ok rfl).trans ((Action.bind_ok (Action.failIf_neg serving)).trans ?_)
    rw [first]
  refine ⟨id, ticket, isTicket, ?_⟩
  rw [start, ran]
  exact settled.advances (burden_running isQueued)

theorem dispatchNextChecksum_advances (steady : Steady False t) (found : t.tickets[id]? = some ticket)
    (queued : ticket.hashState = .queued) (pooled : t.checksumWorkers ≠ none) :
    ∃ id ticket, t.tickets[id]? = some ticket ∧
      Advances False id (burden ticket) t (dispatchNextChecksum .sent t).2 := by
  obtain ⟨workers, pool⟩ := Option.ne_none_iff_exists'.mp pooled
  have healthy : ¬workers.failed = true := by
    intro failed
    refine steady.sound.hashing found (by simp [queued]) (steady.idle ?_)
    rw [poolFailed, pool]
    exact failed
  obtain ⟨⟨id, ticket⟩, first⟩ := firstQueued_of_found found queued
  obtain ⟨isTicket, isQueued⟩ := firstQueued_found first
  obtain ⟨buffer, t', ran, settled⟩ := dispatchChecksum_run steady.sound isTicket isQueued .sent
  have start : dispatchNextChecksum .sent t = dispatchChecksum id ticket .sent t := by
    refine (Action.bind_ok rfl).trans ((Action.bind_ok (Action.reads_ok (by rw [pool]; rfl))).trans ?_)
    refine (Action.bind_ok (Action.failIf_neg healthy)).trans ?_
    rw [first]
  refine ⟨id, ticket, isTicket, ?_⟩
  rw [start, ran]
  exact settled.advances (burden_running isQueued)

theorem drains_advances (sha256 : List UInt8 → Bytes32) (steady : Steady False t) (drains : Drains t request) :
    ∃ id ticket, t.tickets[id]? = some ticket ∧ Advances False id (burden ticket) t (call sha256 request t).2 := by
  have sound := steady.sound
  cases drains with
  | @original id ticket found pending completion =>
    obtain ⟨t', ran, completed⟩ := completeOriginal_ok sound found pending ((sound.each found).filed.phase.live pending) completion
    refine ⟨id, ticket, found, ?_⟩
    show Advances False _ _ t (completeOriginal id completion t).2
    rw [ran]
    exact completed.advances (burdenOf_afterOriginal (sound.each found).filed.phase pending completion)
  | @cancel id ticket found pending =>
    obtain ⟨t', ran, completed⟩ := completeCancel_ok sound found pending
    refine ⟨id, ticket, found, ?_⟩
    show Advances False _ _ t (completeCancel id t).2
    rw [ran]
    exact completed.advances (burdenOf_afterCancel pending)
  | next found queued direct =>
    rw [show (call sha256 .nextHashJob t).2 = _ from discard_state nextHashJob t]
    exact nextHashJob_advances sound found queued direct
  | dispatch found queued pooled =>
    rw [show (call sha256 (.dispatchNextChecksum .sent) t).2 = _ from discard_state (dispatchNextChecksum .sent) t]
    exact dispatchNextChecksum_advances steady found queued pooled
  | @hash id ticket buffer found running held verified shared =>
    obtain ⟨outcome, t', ran, advances, _⟩ := completeHash_advances sound found running held verified shared
    refine ⟨id, ticket, found, ?_⟩
    show Advances False _ _ t (completeHash ⟨⟨id, buffer⟩, verified, shared⟩ t).2
    rw [ran]
    exact advances
  | @deliver id ticket found verified =>
    obtain ⟨t', ran, settled⟩ := deliver_ok sound found verified
    refine ⟨id, ticket, found, ?_⟩
    rw [show (call sha256 (.finishCpuDelivery id) t).2 = _ from discard_state (finishCpuDelivery id) t, ran]
    exact settled.advances (one_le_burden _)
  | @waiter request id filed supported =>
    obtain ⟨ticket, outcome, t', found, ran, advances, _, _⟩ := cancelWaiter_advances sound filed supported
    refine ⟨id, ticket, found, ?_⟩
    rw [show (call sha256 (.cancelWaiter request supported) t).2 = _ from
      discard_state (cancelWaiter request supported) t, ran]
    exact advances

theorem drains_steady (steady : Steady False t) (drains : Drains t request) :
    Steady False (call sha256 request t).2 ∧ weight (call sha256 request t).2 < weight t := by
  obtain ⟨id, ticket, found, advances⟩ := drains_advances sha256 steady drains
  exact ⟨steady.advances advances, advances.weight_lt found⟩

end Steps

section Drained

structure Drained (t : DirectRestoreTable) : Prop where
  tickets : t.tickets = ∅
  waiters : t.requestToTicket = ∅
  physical : t.physicalBytes = 0
  logical : t.logicalByTenant = ∅
  descriptors : t.descriptors.outstandingDescriptors = 0
  cqes : t.cq.outstanding = 0
  hashes : t.activeHashJobs = 0
  buffers : t.buffers.activeSlots = 0

section
variable (sound : Sound False t)
include sound

theorem abandoned_drains (found : t.tickets[id]? = some ticket)
    (abandoned : ticket.state = .abandoned) : ∃ request, Drains t request := by
  have each := sound.each found
  have phase := each.filed.phase
  rw [Phase, abandoned] at phase
  rcases phase with ⟨_, original | cancel⟩ | ⟨queued | running, _⟩
  · exact ⟨_, .original found original .exact⟩
  · exact ⟨_, .cancel found cancel⟩
  · by_cases direct : t.checksumWorkers = none
    · exact ⟨_, .next found queued direct⟩
    · exact ⟨_, .dispatch found queued direct⟩
  · rcases each.leases with ⟨planned, _⟩ | ⟨_, buffer, _, held, _⟩
    · rw [abandoned] at planned
      cases planned
    · exact ⟨_, .hash found running held true none⟩

theorem ticket_drains (found : t.tickets[id]? = some ticket) : ∃ request, Drains t request := by
  have filed := (sound.each found).filed
  by_cases alone : ticket.waiters.isEmpty = true
  · rcases filed.idle.mp alone with abandoned | failed
    · exact abandoned_drains sound found abandoned
    · have phase := filed.phase
      rw [Phase, failed] at phase
      exact ⟨_, .cancel found (phase.2.1.resolve_left phase.1)⟩
  · obtain ⟨request, waiting⟩ : ∃ request, request ∈ ticket.waiters := by
      by_contra none
      exact alone (ExtTreeMap.isEmpty_iff.mpr (ExtTreeMap.eq_empty_iff_forall_not_mem.mpr (not_exists.mp none)))
    refine ⟨_, .waiter ((sound.requests request id).mpr ⟨ticket, ?_, waiting⟩) true⟩
    rw [sound.ledger_eq, found]

theorem drained_of_empty (empty : t.tickets = ∅) : Drained t := by
  have zero (resource : Resource) : level t resource = 0 := by
    rw [← sound.balance resource, empty, total_empty]
  have original : t.cq.original = 0 := zero .originals
  have cancel : t.cq.cancel = 0 := zero .cancels
  refine ⟨empty, ?_, zero .physical, ?_, zero .descriptors, ?_, zero .hashes, zero .buffers⟩
  · exact ExtTreeMap.eq_empty_iff_size_eq_zero.mpr (zero .requests)
  · refine ExtTreeMap.ext_getElem? fun tenant => ?_
    rw [ExtTreeMap.getElem?_empty]
    cases held : t.logicalByTenant[tenant]? with
    | none => rfl
    | some bytes =>
      have none : t.logicalByTenant[tenant]?.getD 0 = 0 := zero (.logical tenant)
      rw [held] at none
      exact absurd (held.trans (congrArg some none)) (sound.charged tenant)
  · unfold DirectCqTracker.outstanding
    rw [original, cancel, sound.shaped.fsync]

theorem drained_of_maximal (maximal : ∀ request, ¬Drains t request) : Drained t := by
  refine drained_of_empty sound (ExtTreeMap.ext_getElem? fun id => ?_)
  rw [ExtTreeMap.getElem?_empty]
  cases found : t.tickets[id]? with
  | none => rfl
  | some ticket =>
    obtain ⟨request, drains⟩ := ticket_drains sound found
    exact absurd drains (maximal request)

end

def DrainRun (sha256 : List UInt8 → Bytes32) (t : DirectRestoreTable) (calls : List RestoreCall)
    (t' : DirectRestoreTable) : Prop :=
  GuardedRun Drains (fun table request => (call sha256 request table).2) t calls t'

def Takes (kind : DirectCompletionKind) (ticket : DirectRestoreTicket) (complete : Restore Unit)
    (t : DirectRestoreTable) : Prop :=
  ∃ token t', tokenOf ticket kind = some token ∧ complete t = (.ok (), t') ∧ Reaped kind token t t'

/-- Every pending completion is taken; the table can be drained, and however it is drained, within
`weight` calls nothing is left. -/
theorem run_drains (created : new allocation config nodrop = .ok start)
    (calm : PoolFailsCalm sha256 start calls) (n : Nat) :
    (∀ id ticket completion, (start.run sha256 (calls.take n)).tickets[id]? = some ticket →
      ticket.originalPending = true →
      Takes .original ticket (completeOriginal id completion) (start.run sha256 (calls.take n))) ∧
    (∀ id ticket, (start.run sha256 (calls.take n)).tickets[id]? = some ticket → ticket.cancelPending = true →
      Takes .asyncCancel ticket (completeCancel id) (start.run sha256 (calls.take n))) ∧
    (∀ drain t, DrainRun sha256 (start.run sha256 (calls.take n)) drain t →
      drain.length ≤ weight (start.run sha256 (calls.take n)) ∧ ((∀ request, ¬Drains t request) → Drained t)) ∧
    ∃ drain t, DrainRun sha256 (start.run sha256 (calls.take n)) drain t ∧ Drained t := by
  have steady : Steady False _ := run_steady (new_steady created) (.inl calm) n
  have decreases : ∀ t request, Steady False t → Drains t request →
      Steady False (call sha256 request t).2 ∧ weight (call sha256 request t).2 < weight t :=
    fun _ _ => drains_steady
  refine ⟨?_, ?_, ?_, ?_⟩
  · intro id ticket completion found pending
    obtain ⟨t', ran, completed⟩ := completeOriginal_ok steady.sound found pending ((steady.sound.each found).filed.phase.live pending) completion
    obtain ⟨token, isToken, reaped⟩ := completed.reaped
    exact ⟨token, t', isToken, ran, reaped⟩
  · intro id ticket found pending
    obtain ⟨t', ran, completed⟩ := completeCancel_ok steady.sound found pending
    obtain ⟨token, isToken, reaped⟩ := completed.reaped
    exact ⟨token, t', isToken, ran, reaped⟩
  · intro drain t run
    obtain ⟨steady', bound⟩ := GuardedRun.length_le run decreases steady
    exact ⟨by omega, drained_of_maximal steady'.sound⟩
  · obtain ⟨drain, t, run, maximal⟩ := exists_maximal_run decreases steady
    obtain ⟨steady', _⟩ := GuardedRun.length_le run decreases steady
    exact ⟨drain, t, run, drained_of_maximal steady'.sound maximal⟩

/-- The table with two reads in flight can be drained. -/
theorem reads_in_flight_drain : ∃ start, new (fun _ => some 4096) twoReads false = .ok start ∧
      PoolFailsCalm (fun _ => Bytes32.zero) start readsInFlight ∧
      ∃ drain t, DrainRun (fun _ => Bytes32.zero) (start.run (fun _ => Bytes32.zero) (readsInFlight.take 9)) drain t ∧
        Drained t := by
  have calm : ∀ start, new (fun _ => some 4096) twoReads false = .ok start →
      PoolFailsCalm (fun _ => Bytes32.zero) start readsInFlight := by
    rintro _ ⟨⟩
    exact poolFailsCalm_of_steps (by decide)
  refine ⟨_, rfl, calm _ rfl, ?_⟩
  exact (run_drains (show new (fun _ => some 4096) twoReads false = _ from rfl) (calm _ rfl) 9).2.2.2

/-- After the panic the second read is failed but pending, and no completion of it is ever accepted. -/
theorem panic_under_read_never_drains : ∃ start, new (fun _ => some 4096) twoReads false = .ok start ∧
      (start.run (fun _ => Bytes32.zero) (readsInFlight ++ [workerPanics])).tickets[2]?.map (·.originalPending) =
        some true ∧
      ∀ completion, (completeOriginal 2 completion (start.run (fun _ => Bytes32.zero)
        (readsInFlight ++ [workerPanics]))).1 = .error .duplicateCompletion :=
  ⟨_, rfl, by decide +kernel, fun completion => by cases completion <;> decide +kernel⟩

end Drained

end Glmaxx.Proof.Restore
