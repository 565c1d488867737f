import Glmaxx.Proof.Restore.Runs

namespace Glmaxx.Proof.Restore
open Std Library Cache Cache.DirectRestoreTable

variable {slot : DirectBufferSlot} {ticket' : DirectRestoreTicket} {job : DirectHashJob} {result : DirectHashResult}
  {k p : Nat} {demand : DirectRestoreRequest}

variable {stray : Prop} {sha256 : List UInt8 → Bytes32}
variable {t t' : DirectRestoreTable} {id : Nat} {ticket : DirectRestoreTicket} {request : RestoreCall}
  {record : DirectExtentRecord} {buffer : DirectBufferId} {bytes : DirectExtentBuffer}

section Steps

def Young (t : DirectRestoreTable) (id : Nat) : Prop :=
  (t.tickets[id]? = none → t.nextTicket ≤ id) ∧ ∀ ticket, t.tickets[id]? = some ticket →
    ticket.state = .planned ∨ ticket.state = .bufferReserved ∨ ticket.state = .readSubmitted

def bytesAt (t : DirectRestoreTable) (buffer : DirectBufferId) : Option DirectExtentBuffer :=
  t.buffers.slots[buffer.slot]?.map (·.bytes)

def Holding (t : DirectRestoreTable) (id : Nat) (record : DirectExtentRecord) (buffer : DirectBufferId)
    (bytes : DirectExtentBuffer) : Prop :=
  (∃ ticket, t.tickets[id]? = some ticket ∧ ticket.record = record ∧ ticket.buffer = some buffer ∧
    (ticket.state = .dataReady ∨ ticket.state = .hashVerified)) ∧ bytesAt t buffer = some bytes

theorem Young.not_working (young : Young t id) (sound : Sound stray t) (found : t.tickets[id]? = some ticket) :
    ¬(ticket.hashState = .queued ∨ ticket.hashState = .running) := by
  have phase := (sound.each found).filed.phase
  unfold Phase at phase
  rcases young.2 ticket found with state | state | state
  all_goals
    rw [state] at phase
    simp [phase.2.2]

theorem Young.back (sound : Sound stray t) (follows : Follows stray request t t') (young : Young t' id) : Young t id := by
  have moves := follows.moves id
  have later := follows.later
  obtain ⟨absent, early⟩ := young
  generalize after : t'.tickets[id]? = new at moves absent early
  generalize before : t.tickets[id]? = old at moves
  have unread {ticket : DirectRestoreTicket} (found : t.tickets[id]? = some ticket)
      (state : ticket.state = .planned ∨ ticket.state = .bufferReserved ∨ ticket.state = .readSubmitted) :
      Young t id := by
    unfold Young
    rw [found]
    refine ⟨nofun, ?_⟩
    rintro _ ⟨⟩
    exact state
  cases moves with
  | same => rw [Young, before]; exact ⟨fun gone => later.trans (absent gone), early⟩
  | ends _ dead =>
    cases new with
    | none =>
      have below := (sound.ids id _ before).2
      have above := absent rfl
      omega
    | some last =>
      have closed := dead last rfl
      have open_state := early last rfl
      rcases closed with state | state <;> simp [state] at open_state
  | created _ fresh => rw [Young, before]; exact ⟨fun _ => fresh.ge, nofun⟩
  | joined | left | dispatched =>
    have state := early _ rfl
    exact unread before state
  | reserved _ state => exact unread before (.inl state)
  | submitted _ state => exact unread before (.inr (.inl state))
  | arrived state => exact unread before (.inr (.inr state))
  | verified => simpa using early _ rfl

theorem Later.bytes_eq {slot' : DirectBufferSlot} (later : Later slot slot')
    (same : slot'.generation = slot.generation) (used : ¬Vacant slot'.state) : slot'.bytes = slot.bytes := by
  rcases later with newer | ⟨-, vacant | ⟨-, kept⟩⟩
  · exact absurd same newer.ne'
  · exact absurd vacant used
  · exact kept

theorem bytesAt_call (sound : Sound stray t) (sound' : Sound stray (call sha256 request t).2)
    (found : t.tickets[id]? = some ticket) (held : ticket.buffer = some buffer)
    (found' : (call sha256 request t).2.tickets[id]? = some ticket') (held' : ticket'.buffer = some buffer)
    (ready : ticket'.state = .dataReady ∨ ticket'.state = .hashVerified)
    (arriving : ticket.state = .dataReady ∨ ticket.state = .hashVerified ∨
      ticket.state = .readSubmitted ∧ ∀ id offset source, request ≠ .copyIntoReadDestination id offset source) :
    bytesAt (call sha256 request t).2 buffer = bytesAt t buffer := by
  have used : ticket.state ≠ .planned := by rcases arriving with state | state | ⟨state, -⟩ <;> simp [state]
  obtain ⟨_, slot, ⟨-, -, -, -, same, -, get, generation⟩, state⟩ := sound.engaged found used
  cases held.symm.trans same
  by_cases copies : ∃ id offset source, request = .copyIntoReadDestination id offset source
  · obtain ⟨other, offset, source, rfl⟩ := copies
    have busy : slot.state ≠ .readInflight := by
      rw [state, bufferPhase]
      rcases arriving with state | state | ⟨-, besides⟩
      · simp [state]
      · simp [state]
      · exact absurd rfl (besides other offset source)
    have ends : Action.Ends (copyIntoReadDestination other offset source) t _ _ :=
      copyIntoReadDestination_ends sound offset source
    show bytesAt (copyIntoReadDestination other offset source t).2 buffer = _
    unfold Action.Ends at ends
    split at ends
    next ran =>
      obtain ⟨ticket₁, buffer₁, slot₁, bytes₁, -, submitted, -, ⟨-, get₁, -⟩, state₁, rfl⟩ := ends
      rw [ran]
      have elsewhere : buffer.slot ≠ buffer₁.slot := by
        intro same
        rw [same, get₁] at get
        cases get
        rw [bufferPhase, submitted] at state₁
        exact busy state₁
      unfold bytesAt
      rw [setSlot_of_ne _ _ elsewhere]
    next ran =>
      rw [ran, ends]
  · have besides : ∀ id offset source, request ≠ .copyIntoReadDestination id offset source :=
      fun id offset source same => copies ⟨id, offset, source, same⟩
    obtain ⟨slot', get', later⟩ := forall₂_getElem? (call_slots sha256 request besides t) get
    have used' : ticket'.state ≠ .planned := by rcases ready with state | state <;> simp [state]
    obtain ⟨_, slot₁, ⟨-, -, -, -, same, -, get₁, generation'⟩, state'⟩ := sound'.engaged found' used'
    cases held'.symm.trans same
    cases get'.symm.trans get₁
    have filled : ¬Vacant slot'.state := by
      rw [state', bufferPhase]
      rcases ready with state | state <;> simp [state, Vacant]
    unfold bytesAt
    rw [get, get']
    exact congrArg some (later.bytes_eq (generation'.trans generation.symm) filled)

theorem Holding.back (sound : Sound stray t) (follows : Follows stray request t (call sha256 request t).2)
    (holding : Holding (call sha256 request t).2 id record buffer bytes) :
    Holding t id record buffer bytes ∨ request = .completeOriginal id .exact ∧
      (completeOriginal id .exact t).1 = .ok () ∧ Young t id ∧ bytesAt t buffer = some bytes := by
  obtain ⟨⟨ticket', found', isRecord, held', ready⟩, isBytes⟩ := holding
  have moves := follows.moves id
  have keeps {old : DirectRestoreTicket} (found : t.tickets[id]? = some old) (held : old.buffer = some buffer)
      (arriving : old.state = .dataReady ∨ old.state = .hashVerified ∨
        old.state = .readSubmitted ∧ ∀ id offset source, request ≠ .copyIntoReadDestination id offset source) :
      bytesAt t buffer = some bytes :=
    (bytesAt_call sound follows.steady.sound found held found' held' ready arriving).symm.trans isBytes
  have stays {old : DirectRestoreTicket} (found : t.tickets[id]? = some old) (isRecord : old.record = record)
      (held : old.buffer = some buffer) (ready : old.state = .dataReady ∨ old.state = .hashVerified) :
      Holding t id record buffer bytes :=
    ⟨⟨old, found, isRecord, held, ready⟩, keeps found held (ready.imp_right .inl)⟩
  rw [found'] at moves
  generalize before : t.tickets[id]? = old at moves
  cases moves with
  | same => exact .inl (stays before isRecord held' ready)
  | ends _ dead => rcases dead ticket' rfl with state | state <;> simp [state] at ready
  | created _ _ _ _ state => simp [state] at ready
  | joined | left => exact .inl (stays before isRecord held' ready)
  | reserved | submitted => simp at ready
  | arrived state reply =>
    refine .inr ⟨rfl, reply, ⟨fun gone => ?_, fun old found => ?_⟩, ?_⟩
    · rw [before] at gone
      cases gone
    · rw [before] at found
      cases found
      exact .inr (.inr state)
    · exact keeps before held' (.inr (.inr ⟨state, nofun⟩))
  | dispatched => exact .inl (stays before isRecord held' ready)
  | verified _ state => exact .inl (stays before isRecord held' (.inl state))

theorem verified_back (follows : Follows stray request t t')
    (found' : t'.tickets[id]? = some ticket') (verified : ticket'.state = .hashVerified) :
    (∃ ticket, t.tickets[id]? = some ticket ∧ ticket.state = .hashVerified) ∨
      ∃ ticket buffer shared, request = .completeHash ⟨⟨id, buffer⟩, true, shared⟩ ∧ t.tickets[id]? = some ticket ∧
        ticket.state = .dataReady ∧ ticket.buffer = some buffer := by
  have moves := follows.moves id
  rw [found'] at moves
  generalize before : t.tickets[id]? = old at moves
  cases moves with
  | same => exact .inl ⟨_, rfl, verified⟩
  | ends _ dead => rcases dead ticket' rfl with state | state <;> simp [state] at verified
  | created _ _ _ _ state => simp [state] at verified
  | joined | left | dispatched => exact .inl ⟨_, rfl, verified⟩
  | reserved | submitted | arrived => simp at verified
  | verified shared state _ held => exact .inr ⟨_, _, shared, rfl, rfl, state, held⟩

theorem Moves.dead {old new : Option DirectRestoreTicket} (moves : Moves t id request old new) (below : id < t.nextTicket)
    (dead : Dead old) : Dead new := by
  cases moves with
  | same => exact dead
  | ends _ dead' => exact dead'
  | created _ fresh => exact absurd fresh below.ne
  | joined _ _ _ waited => exact absurd (dead _ rfl) waited
  | left | dispatched =>
    have state := dead _ rfl
    exact .state state
  | reserved _ state | submitted _ state | arrived state | verified _ state =>
    have ended := dead _ rfl
    simp [state] at ended

theorem Moves.stands {new : Option DirectRestoreTicket} (moves : Moves t id request (some ticket) new) :
    Dead new ∨ ∃ ticket', new = some ticket' ∧ ticket'.record = ticket.record ∧ ∀ waiter ∈ ticket.waiters,
      (∀ supported, request ≠ .cancelWaiter waiter supported) → waiter ∈ ticket'.waiters := by
  cases moves with
  | ends _ dead => exact .inl dead
  | joined =>
    refine .inr ⟨_, rfl, rfl, fun _ waiting _ => ?_⟩
    exact ExtTreeMap.mem_insert.mpr (.inr waiting)
  | left other supported =>
    refine .inr ⟨_, rfl, rfl, fun _ waiting besides => ExtTreeMap.mem_erase.mpr ⟨?_, waiting⟩⟩
    intro same
    cases Nat.compare_eq_eq.mp same
    exact besides supported rfl
  | same | reserved | submitted | arrived | dispatched | verified =>
    exact .inr ⟨_, rfl, rfl, fun _ waiting _ => waiting⟩

end Steps

section Replies

theorem withBytes_slot {pool : DirectBufferPool} (read : liftBuffer (pool.withBytes buffer) = .ok bytes) :
    ∃ slot, pool.slots[buffer.slot]? = some slot ∧ slot.bytes = bytes := by
  unfold liftBuffer at read
  split at read
  next _ outcome =>
    cases read
    obtain ⟨slot, found, outcome⟩ := bind_eq_ok.mp outcome
    refine ⟨slot, (slot_leased found).2.1, ?_⟩
    by_cases idle : slot.state.isActive = false
    · rw [if_pos idle] at outcome
      cases outcome
    · rw [if_neg idle] at outcome
      exact Except.ok.inj outcome
  next => cases read

def Accepts (sha256 : List UInt8 → Bytes32) (record : DirectExtentRecord) (buffer : DirectExtentBuffer) : Prop :=
  ∃ extent, byteRange buffer.bytes 0 record.physicalLength = some extent ∧
    (decodeDirectExtent sha256 record buffer.address extent).isOk = true

theorem accepts_of_verifyExtent (verified : verifyExtent sha256 record bytes = .ok true) :
    Accepts sha256 record bytes := by
  obtain ⟨extent, range, decoded⟩ := bind_eq_ok.mp verified
  exact ⟨extent, okOr_eq_ok.mp range, Except.ok.inj decoded⟩

theorem accepts_of_worker {task : DirectChecksumTask} {shared : Bool}
    (verified : directChecksumWorker sha256 task bytes = .verified true shared) : Accepts sha256 task.record bytes := by
  injection verified with integrity
  obtain ⟨-, decoded⟩ := Bool.and_eq_true_iff.mp integrity
  obtain ⟨extent, range, ok⟩ := (Option.any_eq_true _ _).mp decoded
  exact ⟨extent, range, ok⟩

theorem runHashJob_reply (reply : (runHashJob sha256 job t).1 = .ok result) :
    result.job = job ∧ ∃ ticket bytes, t.tickets[job.ticket]? = some ticket ∧ ticket.hashState = .running ∧
      ticket.buffer = some job.buffer ∧ bytesAt t job.buffer = some bytes ∧
      verifyExtent sha256 ticket.record bytes = .ok result.verified := by
  obtain ⟨_, -, reply⟩ := Action.bind_reply reply
  obtain ⟨-, reply⟩ := Action.failIf_reply reply
  obtain ⟨ticket, found, reply⟩ := Action.bind_reply reply
  obtain ⟨accepted, reply⟩ := Action.failIf_reply reply
  obtain ⟨bytes, isBytes, reply⟩ := Action.bind_reply reply
  obtain ⟨verified, isVerified, same⟩ := Action.bind_reply reply
  cases same
  obtain ⟨running, accepted⟩ := not_or.mp accepted
  obtain ⟨held, -⟩ := not_or.mp accepted
  refine ⟨rfl, ticket, bytes, okOr_eq_ok.mp found, not_not.mp running, not_not.mp held, ?_, isVerified⟩
  have isBytes : liftBuffer (t.buffers.withBytes job.buffer) = .ok bytes := isBytes
  obtain ⟨slot, get, rfl⟩ := withBytes_slot isBytes
  rw [bytesAt, get]
  rfl

theorem runHashJob_ok {verified : Bool} (none : t.checksumWorkers = none)
    (never : t.checksumWorkersRetired = false) (found : t.tickets[job.ticket]? = some ticket)
    (running : ticket.hashState = .running) (held : ticket.buffer = some job.buffer)
    (hashable : DirectRestoreTable.Hashable ticket) (leased : Leased t.buffers job.buffer slot)
    (active : slot.state.isActive = true) (outcome : verifyExtent sha256 ticket.record slot.bytes = .ok verified) :
    runHashJob sha256 job t = (.ok ⟨job, verified, .none⟩, t) := by
  have bytes : t.buffers.withBytes job.buffer = .ok slot.bytes :=
    bind_eq_ok.mpr ⟨slot, leased.slot_ok, if_neg (by rw [active]; decide)⟩
  refine (Action.bind_ok rfl).trans ?_
  refine (Action.bind_ok (Action.failIf_neg (by simp [none, never]))).trans ?_
  refine (Action.bind_ok (ticket_ok found)).trans ?_
  refine (Action.bind_ok (Action.failIf_neg (by simp [running, held, hashable]))).trans ?_
  refine (Action.bind_ok (Action.reads_ok (by rw [bytes]; rfl))).trans ?_
  exact Action.bind_ok (Action.reads_ok outcome)

theorem pollChecksumResult_reply {answer : TryReceive}
    (reply : (pollChecksumResult answer t).1 = .ok (some result)) :
    answer = .received ⟨result.job, .verified result.verified true⟩ := by
  obtain ⟨_, -, reply⟩ := Action.bind_reply reply
  obtain ⟨-, reply⟩ := Action.failIf_reply reply
  cases answer with
  | empty => cases reply
  | disconnected => exact absurd reply Action.bind_fail_ne_ok
  | received completion =>
    obtain ⟨job, outcome⟩ := completion
    obtain ⟨_, -, reply⟩ := Action.bind_reply reply
    obtain ⟨-, reply⟩ := Action.failIf_reply reply
    cases outcome with
    | bufferFailure failure | workerPanic => exact absurd reply Action.bind_fail_ne_ok
    | verified integrity shared =>
      cases shared with
      | false => exact absurd reply Action.bind_fail_ne_ok
      | true =>
        cases reply
        rfl

theorem completeOriginal_reply {completion : DirectReadCompletion} (reply : (completeOriginal id completion t).1 = .ok ()) :
    ∃ ticket, t.tickets[id]? = some ticket ∧ ticket.originalPending = true ∧
      (ticket.state = .readSubmitted ∨ ticket.state = .abandoned) := by
  obtain ⟨ticket, found, reply⟩ := Action.bind_reply reply
  obtain ⟨accepted, -⟩ := Action.failIf_reply reply
  obtain ⟨pending, state⟩ := not_or.mp accepted
  exact ⟨ticket, okOr_eq_ok.mp found, by simpa using pending, not_not.mp state⟩

theorem finishCpuDelivery_reply {requests : List Nat} (reply : (finishCpuDelivery id t).1 = .ok requests) :
    ∃ ticket, t.tickets[id]? = some ticket ∧ ticket.state = .hashVerified := by
  obtain ⟨ticket, found, reply⟩ := Action.bind_reply reply
  obtain ⟨accepted, -⟩ := Action.failIf_reply reply
  exact ⟨ticket, okOr_eq_ok.mp found, not_not.mp (not_or.mp accepted).1⟩

theorem dispatchNextChecksum_reply {answer : TrySend}
    (reply : (dispatchNextChecksum answer t).1 = .ok (some job)) :
    ∃ ticket, t.tickets[job.ticket]? = some ticket ∧ ticket.hashState = .queued := by
  obtain ⟨_, isTable, reply⟩ := Action.bind_reply reply
  cases isTable
  obtain ⟨_, -, reply⟩ := Action.bind_reply reply
  obtain ⟨-, reply⟩ := Action.failIf_reply reply
  cases first : t.firstQueued with
  | none =>
    rw [first] at reply
    cases reply
  | some entry =>
    obtain ⟨id, ticket⟩ := entry
    rw [first] at reply
    obtain ⟨found, queued⟩ := firstQueued_found first
    obtain ⟨sent, isJob, reply⟩ := Action.bind_reply reply
    obtain ⟨-, isJob⟩ := Action.failIf_reply isJob
    obtain ⟨buffer, -, isJob⟩ := Action.bind_reply isJob
    cases isJob
    obtain ⟨_, -, reply⟩ := Action.bind_reply reply
    obtain ⟨_, -, reply⟩ := Action.bind_reply reply
    cases answer with
    | full => exact absurd reply Action.bind_fail_ne_ok
    | disconnected =>
      obtain ⟨_, -, reply⟩ := Action.bind_reply reply
      exact absurd reply Action.bind_fail_ne_ok
    | sent =>
      cases reply
      exact ⟨ticket, found, queued⟩

end Replies

section History

variable {start : DirectRestoreTable} {calls : List RestoreCall} {allocation : Nat → Option Nat}
  {config : DirectRestoreConfig} {nodrop : Bool} {n m : Nat}

def tableAt (sha256 : List UInt8 → Bytes32) (start : DirectRestoreTable) (calls : List RestoreCall) (n : Nat) :
    DirectRestoreTable :=
  start.run sha256 (calls.take n)

def Returned (sha256 : List UInt8 → Bytes32) (start : DirectRestoreTable) (calls : List RestoreCall) (n : Nat)
    (result : DirectHashResult) : Prop :=
  (∃ job, calls[n]? = some (.runHashJob job) ∧
    (runHashJob sha256 job (tableAt sha256 start calls n)).1 = .ok result) ∨
  ∃ answer, calls[n]? = some (.pollChecksumResult answer) ∧
    (pollChecksumResult answer (tableAt sha256 start calls n)).1 = .ok (some result)

def Worked (sha256 : List UInt8 → Bytes32) (start : DirectRestoreTable) (calls : List RestoreCall) (m n : Nat)
    (job : DirectHashJob) (outcome : DirectChecksumOutcome) : Prop :=
  calls[m]? = some (.dispatchNextChecksum .sent) ∧
  (dispatchNextChecksum .sent (tableAt sha256 start calls m)).1 = .ok (some job) ∧
  ∃ task bytes k, checksumTask (tableAt sha256 start calls m) job = .ok task ∧ m < k ∧ k ≤ n ∧
    bytesAt (tableAt sha256 start calls k) job.buffer = some bytes ∧ directChecksumWorker sha256 task bytes = outcome

/-- Nobody can make up a hash result: its fields are private, and the completion channel carries what the workers
found. -/
structure Honest (sha256 : List UInt8 → Bytes32) (start : DirectRestoreTable) (calls : List RestoreCall) : Prop where
  results : ∀ n result, calls[n]? = some (.completeHash result) → ∃ m < n, Returned sha256 start calls m result
  completions : ∀ n job integrity shared,
    calls[n]? = some (.pollChecksumResult (.received ⟨job, .verified integrity shared⟩)) →
      ∃ m < n, Worked sha256 start calls m n job (.verified integrity shared)

structure Arrived (sha256 : List UInt8 → Bytes32) (start : DirectRestoreTable) (calls : List RestoreCall) (id : Nat)
    (record : DirectExtentRecord) (buffer : DirectBufferId) (bytes : DirectExtentBuffer) (m n : Nat) : Prop where
  earlier : m < n
  completes : calls[m]? = some (.completeOriginal id .exact)
  reply : (completeOriginal id .exact (tableAt sha256 start calls m)).1 = .ok ()
  present : bytesAt (tableAt sha256 start calls m) buffer = some bytes
  since : ∀ k, m < k → k ≤ n → Holding (tableAt sha256 start calls k) id record buffer bytes
  before : ∀ k ≤ m, Young (tableAt sha256 start calls k) id

theorem tableAt_succ (get : calls[n]? = some request) :
    tableAt sha256 start calls (n + 1) = (call sha256 request (tableAt sha256 start calls n)).2 :=
  foldl_take_succ (fun table request => (call sha256 request table).2) get

theorem exists_call (inside : n + 1 ≤ calls.length) : ∃ request, calls[n]? = some request :=
  ⟨_, List.getElem?_eq_getElem inside⟩

variable (created : new allocation config nodrop = .ok start)
include created

theorem new_tickets : start.tickets = ∅ := by
  unfold DirectRestoreTable.new at created
  split at created
  · cases created
  obtain ⟨_, _, created⟩ := bind_eq_ok.mp created
  obtain ⟨_, _, created⟩ := bind_eq_ok.mp created
  obtain ⟨_, _, created⟩ := bind_eq_ok.mp created
  obtain ⟨_, _, same⟩ := bind_eq_ok.mp created
  cases same
  rfl

theorem tableAt_zero (id : Nat) : (tableAt sha256 start calls 0).tickets[id]? = none := by
  show start.tickets[id]? = none
  rw [new_tickets created]
  exact ExtTreeMap.getElem?_empty

theorem tableAt_steady (n : Nat) : Steady True (tableAt sha256 start calls n) :=
  run_steady (new_steady created) (.inr trivial) n

theorem tableAt_follows (n : Nat) (request : RestoreCall) : Follows True request (tableAt sha256 start calls n)
    (call sha256 request (tableAt sha256 start calls n)).2 :=
  call_follows sha256 request (tableAt_steady created n) fun _ _ => .inr trivial

theorem young_before (inside : m ≤ calls.length) (young : Young (tableAt sha256 start calls m) id) (k : Nat) (earlier : k ≤ m) :
    Young (tableAt sha256 start calls k) id := by
  induction m with
  | zero => exact Nat.le_zero.mp earlier ▸ young
  | succ m ih =>
    rcases Nat.le_succ_iff.mp earlier with earlier | rfl
    · obtain ⟨request, get⟩ := exists_call inside
      rw [tableAt_succ get] at young
      exact ih (Nat.le_of_succ_le inside)
        (young.back (tableAt_steady created m).sound (tableAt_follows created m request)) earlier
    · exact young

theorem holding_arrived (inside : n ≤ calls.length) (holding : Holding (tableAt sha256 start calls n) id record buffer bytes) :
    ∃ m, Arrived sha256 start calls id record buffer bytes m n := by
  induction n with
  | zero =>
    obtain ⟨⟨ticket, found, -⟩, -⟩ := holding
    rw [tableAt_zero created] at found
    cases found
  | succ n ih =>
    obtain ⟨request, get⟩ := exists_call inside
    have now := holding
    rw [tableAt_succ get] at holding
    rcases holding.back (tableAt_steady created n).sound (tableAt_follows created n request) with
      before | ⟨rfl, reply, young, present⟩
    · obtain ⟨m, arrived⟩ := ih (Nat.le_of_succ_le inside) before
      refine ⟨m, Nat.lt_succ_of_lt arrived.earlier, arrived.completes, arrived.reply, arrived.present, ?_, arrived.before⟩
      intro k after upto
      rcases Nat.le_succ_iff.mp upto with upto | rfl
      · exact arrived.since k after upto
      · exact now
    · refine ⟨n, Nat.lt_succ_self n, get, reply, present, ?_, young_before created (Nat.le_of_succ_le inside) young⟩
      intro k after upto
      obtain rfl : k = n + 1 := by omega
      exact now

/-- A ticket whose bytes are queued or hashed at call `k` is past its arrival. -/
theorem Arrived.after (arrived : Arrived sha256 start calls id record buffer bytes m n)
    (found : (tableAt sha256 start calls k).tickets[id]? = some ticket)
    (working : ticket.hashState = .queued ∨ ticket.hashState = .running) : m < k := by
  by_contra early
  exact (arrived.before k (Nat.not_lt.mp early)).not_working (tableAt_steady created k).sound found working

theorem Returned.accepts (honest : Honest sha256 start calls) {r : Nat} {shared : Option Bool}
    (arrived : Arrived sha256 start calls id record buffer bytes m n) (earlier : r < n)
    (returned : Returned sha256 start calls r ⟨⟨id, buffer⟩, true, shared⟩) : Accepts sha256 record bytes := by
  rcases returned with ⟨job, -, reply⟩ | ⟨answer, get, reply⟩
  · obtain ⟨rfl, ticket, seen, found, running, -, isSeen, verified⟩ := runHashJob_reply reply
    have after := arrived.after created found (.inr running)
    obtain ⟨⟨ticket', found', isRecord, -, -⟩, isBytes⟩ := arrived.since r after earlier.le
    cases found.symm.trans found'
    cases isSeen.symm.trans isBytes
    exact isRecord ▸ accepts_of_verifyExtent verified
  · rw [pollChecksumResult_reply reply] at get
    obtain ⟨d, sooner, -, sent, task, seen, k, isTask, afterSent, upto, isSeen, worked⟩ :=
      honest.completions r _ _ _ get
    obtain ⟨ticket, found, queued⟩ := dispatchNextChecksum_reply sent
    have after := arrived.after created found (.inl queued)
    obtain ⟨⟨ticket', found', isRecord, -, -⟩, -⟩ := arrived.since d after (by omega)
    obtain ⟨-, isBytes⟩ := arrived.since k (by omega) (by omega)
    cases found.symm.trans found'
    cases isSeen.symm.trans isBytes
    obtain ⟨_, isTicket, isTask⟩ := bind_eq_ok.mp isTask
    cases found.symm.trans (okOr_eq_ok.mp isTicket)
    obtain ⟨_, _, isTask⟩ := bind_eq_ok.mp isTask
    cases isTask
    exact isRecord ▸ accepts_of_worker worked

theorem verified_accepts (honest : Honest sha256 start calls) (inside : n ≤ calls.length)
    (found : (tableAt sha256 start calls n).tickets[id]? = some ticket) (verified : ticket.state = .hashVerified)
    (holding : Holding (tableAt sha256 start calls n) id record buffer bytes) : Accepts sha256 record bytes := by
  induction n generalizing ticket with
  | zero =>
    rw [tableAt_zero created] at found
    cases found
  | succ n ih =>
    obtain ⟨request, get⟩ := exists_call inside
    have bound := Nat.le_of_succ_le inside
    rw [tableAt_succ get] at found holding
    have follows : Follows True request (tableAt sha256 start calls n) _ := tableAt_follows created n request
    rcases verified_back follows found verified with
      ⟨old, found', verified'⟩ | ⟨old, buffer', shared, rfl, found', state, held⟩
    · rcases holding.back (tableAt_steady created n).sound follows with before | ⟨-, -, young, -⟩
      · exact ih bound found' verified' before
      · have unread := young.2 old found'
        simp [verified'] at unread
    · rcases holding.back (tableAt_steady created n).sound follows with before | ⟨same, -⟩
      · obtain ⟨m, arrived⟩ := holding_arrived created bound before
        obtain ⟨r, earlier, returned⟩ := honest.results n _ get
        obtain ⟨⟨old', found'', -, held', -⟩, -⟩ := before
        cases found'.symm.trans found''
        cases held.symm.trans held'
        exact returned.accepts created honest arrived earlier
      · cases same

omit created

def PlannedOnto (sha256 : List UInt8 → Bytes32) (start : DirectRestoreTable) (calls : List RestoreCall) (id p : Nat)
    (demand : DirectRestoreRequest) (record : DirectExtentRecord) : Prop :=
  ∃ epoch digest, calls[p]? = some (.plan demand record epoch digest) ∧
    ((plan demand record epoch digest (tableAt sha256 start calls p)).1 = .ok (.created id) ∨
      (plan demand record epoch digest (tableAt sha256 start calls p)).1 = .ok (.joined id))

def Cancelled (sha256 : List UInt8 → Bytes32) (start : DirectRestoreTable) (calls : List RestoreCall) (c request : Nat) :
    Prop :=
  ∃ supported cancellation, calls[c]? = some (.cancelWaiter request supported) ∧
    (cancelWaiter request supported (tableAt sha256 start calls c)).1 = .ok cancellation

def WaitsSince (sha256 : List UInt8 → Bytes32) (start : DirectRestoreTable) (calls : List RestoreCall)
    (id p n request : Nat) : Prop :=
  p < n ∧ (∃ demand record, PlannedOnto sha256 start calls id p demand record ∧ demand.requestId = request) ∧
    ∀ c, p < c → c < n → ¬Cancelled sha256 start calls c request

theorem Dead.unwaited (sound : Sound stray t) (dead : Dead t.tickets[id]?) (found : t.tickets[id]? = some ticket)
    (request : Nat) : request ∉ ticket.waiters := by
  have empty := (sound.each found).filed.idle.mpr (dead ticket found)
  rw [ExtTreeMap.isEmpty_iff.mp empty]
  exact ExtTreeMap.not_mem_empty

theorem cancelWaiter_unwaited {request : Nat} {supported : Bool} {cancellation : DirectCancellation} (steady : Steady stray t)
    (reply : (cancelWaiter request supported t).1 = .ok cancellation)
    (found : (cancelWaiter request supported t).2.tickets[id]? = some ticket) : request ∉ ticket.waiters := by
  intro waiting
  have steady' : Steady stray (cancelWaiter request supported t).2 := (cancelWaiter_obeys steady supported).state.steady
  cases filed : t.requestToTicket[request]? with
  | none =>
    have missing : cancelWaiter request supported t = (.error .missingRequest, t) :=
      Action.bind_error (show (okOr _ _, _) = _ by rw [filed]; rfl)
    rw [missing] at reply
    cases reply
  | some other =>
    obtain ⟨old, _, t', found', ran, advances, -, left⟩ := cancelWaiter_advances steady.sound filed supported
    rw [ran] at found steady'
    have moved : other = id := by
      by_contra differs
      have before := (advances.touches.tickets_eq id (Ne.symm differs)).symm.trans found
      have filed₂ := (steady.sound.requests request id).mpr ⟨ticket, by rwa [steady.sound.ledger_eq], waiting⟩
      exact differs (Option.some.inj (filed.symm.trans filed₂))
    subst moved
    rcases left with dead | same
    · exact dead.unwaited steady'.sound found request waiting
    · cases found.symm.trans same
      simp at waiting

theorem WaitsSince.later {request : Nat} (waits : WaitsSince sha256 start calls id p n request)
    (stays : ¬Cancelled sha256 start calls n request) : WaitsSince sha256 start calls id p (n + 1) request := by
  obtain ⟨earlier, planned, kept⟩ := waits
  refine ⟨Nat.lt_succ_of_lt earlier, planned, fun c after before => ?_⟩
  rcases Nat.lt_succ_iff_lt_or_eq.mp before with before | rfl
  · exact kept c after before
  · exact stays

theorem waitsSince_now (planned : PlannedOnto sha256 start calls id n demand record) :
    WaitsSince sha256 start calls id n (n + 1) demand.requestId :=
  ⟨Nat.lt_succ_self n, ⟨demand, record, planned, rfl⟩, fun c after before => absurd after (by omega)⟩

include created

theorem waiter_waits (inside : n ≤ calls.length) (found : (tableAt sha256 start calls n).tickets[id]? = some ticket)
    {request : Nat} (waiting : request ∈ ticket.waiters) : ∃ p, WaitsSince sha256 start calls id p n request := by
  induction n generalizing ticket with
  | zero =>
    rw [tableAt_zero created] at found
    cases found
  | succ n ih =>
    obtain ⟨called, get⟩ := exists_call inside
    have steady : Steady True (tableAt sha256 start calls n) := tableAt_steady created n
    have follows : Follows True called (tableAt sha256 start calls n) _ := tableAt_follows created n called
    rw [tableAt_succ get] at found
    have stays : ¬Cancelled sha256 start calls n request := by
      rintro ⟨supported, cancellation, isCancel, reply⟩
      cases get.symm.trans isCancel
      rw [show (call sha256 (.cancelWaiter request supported) (tableAt sha256 start calls n)).2 = _ from
        discard_state _ _] at found
      exact cancelWaiter_unwaited steady reply found waiting
    have earlier {old : DirectRestoreTicket} (found : (tableAt sha256 start calls n).tickets[id]? = some old)
        (waiting : request ∈ old.waiters) : ∃ p, WaitsSince sha256 start calls id p (n + 1) request := by
      obtain ⟨p, waits⟩ := ih (Nat.le_of_succ_le inside) found waiting
      exact ⟨p, waits.later stays⟩
    have moves := follows.moves id
    have sound' := follows.steady.sound
    have dies : ¬Dead (call sha256 called (tableAt sha256 start calls n)).2.tickets[id]? :=
      fun dead => dead.unwaited sound' found request waiting
    rw [found] at moves dies
    generalize before : (tableAt sha256 start calls n).tickets[id]? = old at moves
    cases moves with
    | same => exact earlier before waiting
    | ends _ dead => exact absurd dead dies
    | created reply _ _ _ _ waiters =>
      rw [waiters] at waiting
      obtain rfl : _ = request := by simpa using waiting
      exact ⟨n, waitsSince_now ⟨_, _, get, .inl reply⟩⟩
    | joined reply =>
      rcases ExtTreeMap.mem_insert.mp waiting with same | waiting
      · obtain rfl : _ = request := by simpa using same
        exact ⟨n, waitsSince_now ⟨_, _, get, .inr reply⟩⟩
      · exact earlier before waiting
    | left => exact earlier before (ExtTreeMap.mem_erase.mp waiting).2
    | reserved | submitted | arrived | dispatched | verified => exact earlier before waiting

theorem PlannedOnto.waits
    (planned : PlannedOnto sha256 start calls id p demand record) (earlier : p < n) (inside : n ≤ calls.length) :
    capabilitySatisfies record.capability demand.requiredCapability = true ∧
      id < (tableAt sha256 start calls n).nextTicket ∧ (Dead (tableAt sha256 start calls n).tickets[id]? ∨
        ∃ ticket, (tableAt sha256 start calls n).tickets[id]? = some ticket ∧ ticket.record = record ∧
          ((∀ c, p < c → c < n → ¬Cancelled sha256 start calls c demand.requestId) →
            demand.requestId ∈ ticket.waiters)) := by
  induction n, earlier using Nat.le_induction with
  | base =>
    obtain ⟨epoch, digest, get, reply⟩ := planned
    have steady : Steady True (tableAt sha256 start calls p) := tableAt_steady created p
    have ends : Action.Ends (plan demand record epoch digest) (tableAt sha256 start calls p) _ _ := plan_ends steady
    rw [tableAt_succ get, show (call sha256 (.plan demand record epoch digest) (tableAt sha256 start calls p)).2 = _ from
      discard_state _ _]
    unfold Action.Ends at ends
    split at ends
    next admission t' ran =>
      rw [ran] at reply ⊢
      obtain ⟨capable, admitted⟩ := ends
      refine ⟨capable, ?_⟩
      cases admitted with
      | joined found isRecord waited settled =>
        obtain rfl : _ = id := by simpa using reply
        have below := (steady.sound.ids _ _ found).2
        have later := settled.inner.touches.nextTicket_eq
        exact ⟨later ▸ below, .inr ⟨_, settled.found, isRecord, fun _ => by simp⟩⟩
      | created steady' absent tickets_eq later isRecord state waiters =>
        obtain rfl : _ = id := by simpa using reply
        refine ⟨(steady'.sound.ids _ _ (tickets_eq ▸ ExtTreeMap.getElem?_insert_self)).2, .inr ⟨_, ?_, isRecord, ?_⟩⟩
        · rw [tickets_eq, ExtTreeMap.getElem?_insert_self]
        · simp [waiters]
    next ran =>
      rw [ran] at reply
      simp at reply
  | succ n earlier ih =>
    obtain ⟨capable, below, stands⟩ := ih (Nat.le_of_succ_le inside)
    obtain ⟨called, get⟩ := exists_call inside
    have steady : Steady True (tableAt sha256 start calls n) := tableAt_steady created n
    have follows : Follows True called (tableAt sha256 start calls n) _ := tableAt_follows created n called
    have moves := follows.moves id
    rw [tableAt_succ get]
    refine ⟨capable, below.trans_le follows.later, ?_⟩
    rcases stands with dead | ⟨ticket, found, isRecord, waits⟩
    · exact .inl (moves.dead below dead)
    rw [found] at moves
    refine moves.stands.imp_right ?_
    rintro ⟨ticket', found', sameRecord, stays⟩
    refine ⟨ticket', found', sameRecord.trans isRecord, fun kept => ?_⟩
    have waiting := waits fun c after before => kept c after (Nat.lt_succ_of_lt before)
    refine stays _ waiting ?_
    rintro supported rfl
    -- the request is on file, so a cancellation of it would succeed
    have filed := (steady.sound.requests demand.requestId id).mpr ⟨ticket, by rwa [steady.sound.ledger_eq], waiting⟩
    obtain ⟨_, cancellation, _, _, ran, _⟩ := cancelWaiter_advances steady.sound filed supported
    exact kept n (Nat.lt_of_succ_le earlier) (Nat.lt_succ_self n) ⟨supported, cancellation, get, by rw [ran]⟩

theorem Arrived.only (arrived : Arrived sha256 start calls id record buffer bytes m n) (earlier : k < n)
    (completes : calls[k]? = some (.completeOriginal id .exact))
    (reply : (completeOriginal id .exact (tableAt sha256 start calls k)).1 = .ok ()) : k = m := by
  obtain ⟨ticket, found, pending, state⟩ := completeOriginal_reply reply
  rcases Nat.lt_trichotomy k m with before | same | after
  · have unread := (arrived.before k before.le).2 ticket found
    have submitted : ticket.state = .readSubmitted := by
      rcases state with submitted | abandoned
      · exact submitted
      · simp [abandoned] at unread
    obtain ⟨t', ran, completed⟩ := completeOriginal_ok (tableAt_steady created k).sound found pending
      (by simp [submitted]) .exact
    have young := arrived.before (k + 1) before
    rw [tableAt_succ completes] at young
    change Young (completeOriginal id .exact (tableAt sha256 start calls k)).2 id at young
    rw [ran] at young
    have unread' := young.2 _ (by rw [completed.found, submitted]; rfl)
    simp at unread'
  · exact same
  · obtain ⟨⟨ticket', found', -, -, ready⟩, -⟩ := arrived.since k after earlier.le
    cases found.symm.trans found'
    rcases ready with ready | ready <;> simp [ready] at state

/-- A delivery hands out the bytes that were there when the read completed, which decode under the planned record, and
it answers exactly those requests that were planned onto the ticket and are not cancelled. -/
theorem only_verified_bytes_delivered (honest : Honest sha256 start calls) {requests : List Nat}
    (delivers : calls[n]? = some (.finishCpuDelivery id))
    (reply : (finishCpuDelivery id (tableAt sha256 start calls n)).1 = .ok requests) :
    ∃ ticket buffer bytes m, (tableAt sha256 start calls n).tickets[id]? = some ticket ∧ ticket.buffer = some buffer ∧
      m < n ∧ calls[m]? = some (.completeOriginal id .exact) ∧
      (completeOriginal id .exact (tableAt sha256 start calls m)).1 = .ok () ∧
      (∀ k < n, calls[k]? = some (.completeOriginal id .exact) →
        (completeOriginal id .exact (tableAt sha256 start calls k)).1 = .ok () → k = m) ∧
      bytesAt (tableAt sha256 start calls m) buffer = some bytes ∧
      bytesAt (tableAt sha256 start calls n) buffer = some bytes ∧ Accepts sha256 ticket.record bytes ∧
      (∀ p demand record, p < n → PlannedOnto sha256 start calls id p demand record →
        record = ticket.record ∧ capabilitySatisfies record.capability demand.requiredCapability = true) ∧
      requests ≠ [] ∧ requests.Nodup ∧
      ∀ request, request ∈ requests ↔ ∃ p, WaitsSince sha256 start calls id p n request := by
  have inside : n < calls.length := (List.getElem?_eq_some_iff.mp delivers).1
  have steady : Steady True (tableAt sha256 start calls n) := tableAt_steady created n
  obtain ⟨ticket, found, verified⟩ := finishCpuDelivery_reply reply
  obtain ⟨_, ran, -⟩ := deliver_ok steady.sound found verified
  rw [ran] at reply
  cases reply
  obtain ⟨buffer, slot, ⟨-, -, -, -, held, -, get, -⟩, -⟩ := steady.sound.engaged found (by simp [verified])
  have holding : Holding (tableAt sha256 start calls n) id ticket.record buffer slot.bytes :=
    ⟨⟨ticket, found, rfl, held, .inr verified⟩, by rw [bytesAt, get]; rfl⟩
  obtain ⟨m, arrived⟩ := holding_arrived created inside.le holding
  have live : ¬Dead (tableAt sha256 start calls n).tickets[id]? := by
    intro dead
    have ended := dead ticket found
    simp [verified] at ended
  have stands {p : Nat} {demand : DirectRestoreRequest} {record : DirectExtentRecord} (earlier : p < n)
      (planned : PlannedOnto sha256 start calls id p demand record) := planned.waits created earlier inside.le
  refine ⟨ticket, buffer, slot.bytes, m, found, held, arrived.earlier, arrived.completes, arrived.reply,
    fun k earlier completes reply => arrived.only created earlier completes reply, arrived.present, holding.2,
    verified_accepts created honest inside.le found verified holding, ?_, ?_, ExtTreeMap.nodup_keys, ?_⟩
  · intro p demand record earlier planned
    obtain ⟨capable, -, stands⟩ := stands earlier planned
    obtain ⟨ticket', found', isRecord, -⟩ := stands.resolve_left live
    cases found.symm.trans found'
    exact ⟨isRecord.symm, capable⟩
  · intro nobody
    have idle := (steady.sound.each found).filed.idle.mp (by simpa using nobody)
    simp [verified] at idle
  · intro request
    rw [ExtTreeMap.mem_keys]
    refine ⟨waiter_waits created inside.le found, ?_⟩
    rintro ⟨p, earlier, ⟨demand, record, planned, rfl⟩, kept⟩
    obtain ⟨-, -, stands⟩ := stands earlier planned
    obtain ⟨ticket', found', -, waits⟩ := stands.resolve_left live
    cases found.symm.trans found'
    exact waits kept

end History

section Blank
variable {extent : List UInt8} {start stop : Nat}

theorem byteRange_some (ordered : start ≤ stop) (fits : stop ≤ extent.length) :
    byteRange extent start stop = some ((extent.drop start).take (stop - start)) := if_pos ⟨ordered, fits⟩

theorem dirtyRange_zeros (zeros : ∀ byte ∈ extent, byte = 0) (ordered : start ≤ stop) (fits : stop ≤ extent.length) :
    dirtyRange extent start stop = .ok false := by
  unfold dirtyRange
  rw [byteRange_some ordered fits]
  refine congrArg Except.ok (List.any_eq_false.mpr fun byte member => ?_)
  simpa using zeros byte (List.mem_of_mem_drop (List.mem_of_mem_take member))

theorem pieceBytes_some {offset length : Nat} (small : offset + length < 2 ^ 64) (fits : offset + length ≤ extent.length) :
    ∃ bytes, pieceBytes extent offset length = .ok bytes := by
  have range := byteRange_some (Nat.le_add_right offset length) fits
  exact ⟨_, bind_eq_ok.mpr ⟨offset + length, okOr_eq_ok.mpr (if_pos small), okOr_eq_ok.mpr range⟩⟩

def blankExtent : DirectExtentRecord where
  formatVersion := 1
  nameSpace := digestOf 1
  pageKey := digestOf 5
  durableRevision := 1
  capability := .target
  segmentId := 1
  physicalOffset := 0
  physicalLength := targetOnlyPhysicalBytes
  physicalSha256 := digestOf 2
  pieces := [⟨.targetKv, targetKvExtentOffset, targetKvExtentLength, digestOf 2⟩,
    ⟨.targetIndexer, targetIndexerExtentOffset, targetIndexerExtentLength, digestOf 2⟩]

theorem decode_blank (size : extent.length = targetOnlyPhysicalBytes) (zeros : ∀ byte ∈ extent, byte = 0) :
    ∃ view, decodeDirectExtent (fun _ => digestOf 2) blankExtent 4096 extent = .ok view := by
  have valid : blankExtent.validate = .ok () := by rfl
  have span : validateDirectIoSpan 4096 blankExtent.physicalOffset extent.length blankExtent.physicalLength = .ok () := by
    rw [size]
    rfl
  have padding : validateZeroPadding extent .target = .ok () := by
    unfold validateZeroPadding
    rw [dirtyRange_zeros zeros (by decide) (size.symm ▸ by decide)]
    show validateTailPadding extent .target = .ok ()
    unfold validateTailPadding
    rw [if_neg (not_not.mpr size), dirtyRange_zeros zeros (by decide) (size.symm ▸ by rfl)]
    rfl
  obtain ⟨kv, isKv⟩ : ∃ bytes, pieceBytes extent targetKvExtentOffset targetKvExtentLength = .ok bytes :=
    pieceBytes_some (by decide) (size.symm ▸ by decide)
  obtain ⟨indexer, isIndexer⟩ :
      ∃ bytes, pieceBytes extent targetIndexerExtentOffset targetIndexerExtentLength = .ok bytes :=
    pieceBytes_some (by decide) (size.symm ▸ by decide)
  have checked : blankExtent.pieces.forM (validatePieceChecksum (fun _ => digestOf 2) extent) = .ok () := by
    refine bind_eq_ok.mpr ⟨(), bind_eq_ok.mpr ⟨kv, isKv, if_neg fun differs => differs rfl⟩, ?_⟩
    exact bind_eq_ok.mpr ⟨(), bind_eq_ok.mpr ⟨indexer, isIndexer, if_neg fun differs => differs rfl⟩, rfl⟩
  refine ⟨⟨kv, indexer, none⟩, bind_eq_ok.mpr ⟨(), valid, bind_eq_ok.mpr ⟨(), span, ?_⟩⟩⟩
  refine (if_neg fun differs => differs rfl).trans (bind_eq_ok.mpr ⟨(), padding, bind_eq_ok.mpr ⟨(), checked, ?_⟩⟩)
  exact bind_eq_ok.mpr ⟨kv, isKv, bind_eq_ok.mpr ⟨indexer, isIndexer, rfl⟩⟩

def blankDelivery : List RestoreCall :=
  [.plan ⟨1, 1, .target⟩ blankExtent 1 (digestOf 7), .reserveBuffer 1, .submitRead 1, .completeOriginal 1 .exact,
    .nextHashJob, .runHashJob ⟨1, ⟨0, 1⟩⟩, .completeHash ⟨⟨1, ⟨0, 1⟩⟩, true, none⟩, .finishCpuDelivery 1]

def blankBuffer : DirectExtentBuffer := ⟨4096, List.replicate mtpPhysicalBytes 0⟩

theorem verify_blank {buffer : DirectExtentBuffer} (address : buffer.address = 4096)
    (fits : targetOnlyPhysicalBytes ≤ buffer.bytes.length) (zeros : ∀ byte ∈ buffer.bytes, byte = 0) :
    verifyExtent (fun _ => digestOf 2) blankExtent buffer = .ok true := by
  have size : (buffer.bytes.take targetOnlyPhysicalBytes).length = targetOnlyPhysicalBytes := by
    rw [List.length_take, min_eq_left fits]
  obtain ⟨view, decoded⟩ := decode_blank size fun byte member => zeros byte (List.mem_of_mem_take member)
  have range : byteRange buffer.bytes 0 targetOnlyPhysicalBytes = some (buffer.bytes.take targetOnlyPhysicalBytes) :=
    byteRange_some (Nat.zero_le _) fits
  refine bind_eq_ok.mpr ⟨_, okOr_eq_ok.mpr range, ?_⟩
  rw [address, decoded]
  rfl

theorem verify_zeroed {buffer : DirectExtentBuffer} (address : buffer.address = 4096)
    (size : buffer.bytes.length = mtpPhysicalBytes) :
    verifyExtent (fun _ => digestOf 2) blankExtent buffer.zeroed = .ok true := by
  apply verify_blank
  · exact address
  · rw [DirectExtentBuffer.zeroed, List.length_replicate, size]
    decide
  · intro byte member
    exact List.eq_of_mem_replicate member

section Run
variable {start : DirectRestoreTable} (created : new (fun _ => some 4096) twoReads false = .ok start)
include created

theorem blank_hashed : runHashJob (fun _ => digestOf 2) ⟨1, ⟨0, 1⟩⟩ (tableAt (fun _ => digestOf 2) start blankDelivery 5) =
    (.ok ⟨⟨1, ⟨0, 1⟩⟩, true, none⟩, tableAt (fun _ => digestOf 2) start blankDelivery 5) := by
  obtain ⟨ticket, found, isRecord, running, held, hashable⟩ :
      ∃ ticket, (tableAt (fun _ => digestOf 2) start blankDelivery 5).tickets[1]? = some ticket ∧
        ticket.record = blankExtent ∧ ticket.hashState = .running ∧ ticket.buffer = some ⟨0, 1⟩ ∧
        DirectRestoreTable.Hashable ticket := by
    cases created
    exact ⟨_, rfl, rfl, rfl, rfl, .inl rfl, rfl, rfl⟩
  have leased : Leased (tableAt (fun _ => digestOf 2) start blankDelivery 5).buffers ⟨0, 1⟩
      ⟨1, .hashingForRead, blankBuffer.zeroed⟩ := by
    cases created
    exact ⟨Nat.one_ne_zero, rfl, rfl⟩
  have single : (tableAt (fun _ => digestOf 2) start blankDelivery 5).checksumWorkers = none ∧
      (tableAt (fun _ => digestOf 2) start blankDelivery 5).checksumWorkersRetired = false := by
    cases created
    exact ⟨rfl, rfl⟩
  exact runHashJob_ok single.1 single.2 found running held hashable leased rfl (isRecord ▸ verify_zeroed rfl List.length_replicate)

theorem blank_honest : Honest (fun _ => digestOf 2) start blankDelivery where
  results n result get := by
    have last : n = 6 ∧ result = ⟨⟨1, ⟨0, 1⟩⟩, true, none⟩ := by
      match n with
      | 0 | 1 | 2 | 3 | 4 | 5 | 7 => cases get
      | 6 =>
        cases get
        exact ⟨rfl, rfl⟩
      | n + 8 => cases get
    obtain ⟨rfl, rfl⟩ := last
    exact ⟨5, by decide, .inl ⟨_, rfl, congrArg Prod.fst (blank_hashed created)⟩⟩
  completions n job integrity shared get := by
    match n with
    | 0 | 1 | 2 | 3 | 4 | 5 | 6 | 7 => cases get
    | n + 8 => cases get

theorem blank_reply :
    (finishCpuDelivery 1 (tableAt (fun _ => digestOf 2) start blankDelivery 7)).1 = .ok [1] := by
  have idle : tableAt (fun _ => digestOf 2) start blankDelivery 6 = tableAt (fun _ => digestOf 2) start blankDelivery 5 := by
    rw [tableAt_succ (n := 5) rfl]
    exact (discard_state _ _).trans (congrArg Prod.snd (blank_hashed created))
  rw [tableAt_succ (n := 6) rfl, idle]
  cases created
  rfl

end Run

/-- A page of zeros is restored for the one request that asked for it. -/
theorem blank_delivered : ∃ start, new (fun _ => some 4096) twoReads false = .ok start ∧
    Honest (fun _ => digestOf 2) start blankDelivery ∧
    ∀ request, request ∈ [1] ↔ ∃ p, WaitsSince (fun _ => digestOf 2) start blankDelivery 1 p 7 request := by
  have created : new (fun _ => some 4096) twoReads false = .ok _ := rfl
  obtain ⟨_, _, _, _, -, -, -, -, -, -, -, -, -, -, -, -, answered⟩ :=
    only_verified_bytes_delivered created (blank_honest created) rfl (blank_reply created)
  exact ⟨_, rfl, blank_honest created, answered⟩

end Blank

end Glmaxx.Proof.Restore
