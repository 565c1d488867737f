import Glmaxx.Proof.Admission.Permits

namespace Glmaxx.Proof.Admission
open Library Engine Engine.WorkerPool

variable {pool pool' start : WorkerPool} {action : PoolAction} {operation : Operation} {maximum : BitVec 64}

section Counted

def Closed (pool : WorkerPool) : Prop := pool.stateWord &&& workerStateClosed ≠ 0

structure Counted (pool : WorkerPool) : Prop where
  bound : pool.maximumOutstanding.toNat < 2 ^ 61
  word : ∃ closed, pool.stateWord = wordOf closed (decide (exclusivePermits pool ≠ 0)) (outstandingPermits pool)
  count_le : outstandingPermits pool ≤ pool.maximumOutstanding.toNat
  single : exclusivePermits pool ≤ 1
  alone : exclusivePermits pool ≠ 0 → outstandingPermits pool = 0

theorem step_maximum (taken : pool.step action = some pool') :
    pool'.maximumOutstanding = pool.maximumOutstanding := by
  unfold WorkerPool.step sendCommand at taken
  split at taken <;> (try split at taken) <;> (try split at taken) <;> (try split at taken) <;> cases taken <;> rfl

theorem permits_of_perm (same : (live pool').Perm (live pool)) :
    outstandingPermits pool' = outstandingPermits pool ∧ exclusivePermits pool' = exclusivePermits pool :=
  ⟨same.countP_eq _, same.countP_eq _⟩

theorem permits_cons {l : List Operation} (more : (live pool').Perm (operation :: l)) :
    outstandingPermits pool' = l.countP (fun other => !other.kind.isExclusive)
        + (if operation.kind.isExclusive then 0 else 1) ∧
      exclusivePermits pool' = l.countP (fun other => other.kind.isExclusive)
        + (if operation.kind.isExclusive then 1 else 0) := by
  unfold outstandingPermits exclusivePermits
  rw [more.countP_eq, more.countP_eq, List.countP_cons, List.countP_cons]
  cases operation.kind.isExclusive <;> simp

theorem closed_iff {closed exclusive : Bool} {n : Nat}
    (word : pool.stateWord = wordOf closed exclusive n) : Closed pool ↔ closed = true := by
  unfold Closed
  rw [word]
  exact closed_wordOf

/-- The state word counts the permits after an action too, and no action clears `CLOSED`. -/
theorem Counted.effect (counted : Counted pool) (effect : Effect pool pool')
    (maximum_eq : pool'.maximumOutstanding = pool.maximumOutstanding) :
    Counted pool' ∧ (Closed pool → Closed pool') := by
  obtain ⟨bound, ⟨closed, word⟩, count_le, single, alone⟩ := counted
  have small : outstandingPermits pool < 2 ^ 61 := by omega
  have ends {closed' : Bool} (keeps : closed = true → closed' = true)
      (word' : pool'.stateWord = wordOf closed' (decide (exclusivePermits pool' ≠ 0)) (outstandingPermits pool'))
      (count_le : outstandingPermits pool' ≤ pool.maximumOutstanding.toNat) (single : exclusivePermits pool' ≤ 1)
      (alone : exclusivePermits pool' ≠ 0 → outstandingPermits pool' = 0) :
      Counted pool' ∧ (Closed pool → Closed pool') :=
    ⟨⟨maximum_eq ▸ bound, ⟨closed', word'⟩, maximum_eq ▸ count_le, single, alone⟩,
      fun isClosed => (closed_iff word').mpr (keeps ((closed_iff word).mp isClosed))⟩
  cases effect with
  | moves closes live_eq _ word_eq =>
    obtain ⟨outstanding_eq, exclusive_eq⟩ := permits_of_perm live_eq
    rw [word] at word_eq
    rw [outstanding_eq, exclusive_eq] at ends
    cases closes with
    | true => exact ends (fun _ => rfl) (word_eq.trans setClosed_wordOf) count_le single alone
    | false => exact ends id word_eq count_le single alone
  | takes kind reserved live_eq _ =>
    obtain ⟨outstanding_eq, exclusive_eq⟩ := permits_cons (List.Perm.of_eq live_eq)
    change _ = outstandingPermits pool + _ at outstanding_eq
    change _ = exclusivePermits pool + _ at exclusive_eq
    unfold WorkerPool.reserve at reserved
    dsimp only at outstanding_eq exclusive_eq
    cases isExclusive : kind.isExclusive with
    | true =>
      rw [isExclusive] at outstanding_eq exclusive_eq reserved
      rw [if_pos rfl, word, tryReserveExclusive_wordOf small] at reserved
      split at reserved
      next free =>
        obtain ⟨rfl, unused, none⟩ := free
        have zero : exclusivePermits pool = 0 := by simpa using unused
        simp only [if_true, Nat.add_zero] at outstanding_eq exclusive_eq
        refine ends id ?_ (by omega) (by omega) fun _ => by omega
        rw [outstanding_eq, exclusive_eq, zero, none]
        exact (Except.ok.inj reserved).symm
      next => cases reserved
    | false =>
      rw [isExclusive] at outstanding_eq exclusive_eq reserved
      rw [if_neg (by decide), word, reserveSlot_wordOf bound count_le] at reserved
      split at reserved
      next free =>
        obtain ⟨rfl, unused, room⟩ := free
        have zero : exclusivePermits pool = 0 := by simpa using unused
        simp only [Bool.false_eq_true, if_false, Nat.add_zero] at outstanding_eq exclusive_eq
        refine ends id ?_ (by omega) (by omega) fun some => by omega
        rw [outstanding_eq, exclusive_eq, zero]
        exact (Except.ok.inj reserved).symm
      next => cases reserved
  | frees operation live_eq _ word_eq =>
    obtain ⟨outstanding_eq, exclusive_eq⟩ := permits_cons live_eq
    change _ = outstandingPermits pool' + _ at outstanding_eq
    change _ = exclusivePermits pool' + _ at exclusive_eq
    unfold WorkerPool.dropPermit at word_eq
    cases isExclusive : operation.kind.isExclusive with
    | true =>
      rw [isExclusive] at outstanding_eq exclusive_eq word_eq
      simp only [if_true, Nat.add_zero] at outstanding_eq exclusive_eq word_eq
      have none : outstandingPermits pool = 0 := alone (by omega)
      have last : exclusivePermits pool' = 0 := by omega
      have first : exclusivePermits pool = 1 := by omega
      refine ends id ?_ (by omega) (by omega) fun some => absurd last some
      rw [word_eq, word, first, none, last, ← outstanding_eq, none]
      exact dropExclusivePermit_wordOf
    | false =>
      rw [isExclusive] at outstanding_eq exclusive_eq word_eq
      simp only [Bool.false_eq_true, if_false, Nat.add_zero] at outstanding_eq exclusive_eq word_eq
      have shared : exclusivePermits pool = 0 := by
        by_contra some
        have := alone some
        omega
      refine ends id ?_ (by omega) (by omega) fun some => by omega
      rw [word_eq, word, outstanding_eq, exclusive_eq]
      exact dropOutstandingPermit_wordOf (by omega)

theorem Counted.reserve_closed (counted : Counted pool) (closed : Closed pool) (kind : PoolCommandKind) :
    pool.reserve kind = .error (workerAdmissionError pool.stateWord) := by
  obtain ⟨flag, word⟩ := counted.word
  obtain rfl := (closed_iff word).mp closed
  have small : outstandingPermits pool < 2 ^ 61 := counted.count_le.trans_lt counted.bound
  unfold WorkerPool.reserve
  split
  · rw [word, tryReserveExclusive_wordOf small, if_neg (by simp)]
  · rw [word, reserveSlot_wordOf counted.bound counted.count_le, if_neg (by simp)]

end Counted

section Answers

def Answered (pool : WorkerPool) (operation : Operation) (success : Bool) : Prop :=
  (operation, success) ∈ pool.replies ∨ pool.dispatcher = .replying operation success

/-- Results come after the permit was released, and failures after `CLOSED` was set. -/
structure Settled (pool : WorkerPool) : Prop where
  fresh : ∀ operation ∈ live pool, operation.id < pool.nextId
  distinct : ((live pool).map (·.id)).Nodup
  answered : ∀ operation success, Answered pool operation success →
    operation.id < pool.nextId ∧ operation.id ∉ (live pool).map (·.id) ∧ (success = false → Closed pool)
  closing : ∀ operation success, pool.dispatcher = .releasing operation success → terminates operation success = true →
    Closed pool

theorem step_answered {success : Bool} (taken : pool.step action = some pool') (answered : Answered pool' operation success) :
    Answered pool operation success ∨ pool.dispatcher = .releasing operation success ∧
      (live pool).Perm (operation :: live pool') := by
  cases action with
  | release =>
    simp only [WorkerPool.step] at taken
    split at taken
    next other result isReleasing =>
      cases taken
      rcases answered with replied | replying
      · exact .inl (.inl replied)
      · cases replying
        refine .inr ⟨isReleasing, ?_⟩
        simp only [live, inHand, isReleasing, List.append_nil]
        exact List.perm_append_singleton _ _
    next => cases taken
  | reply =>
    simp only [WorkerPool.step] at taken
    split at taken
    next other result isReplying =>
      cases taken
      rcases answered with replied | replying
      · rcases List.mem_cons.mp replied with same | earlier
        · cases same
          exact .inl (.inr isReplying)
        · exact .inl (.inl earlier)
      · dsimp only at replying
        split at replying <;> cases replying
    next => cases taken
  | reserve _ | send _ | abandon _ | dropPermit _ | closeSender | receive | decide _ | closeOnFailure | retire
    | disconnected | dropGuard | drain =>
    left
    unfold WorkerPool.step sendCommand at taken
    dsimp only at taken
    split at taken <;> (try split at taken) <;> (try split at taken) <;> cases taken <;>
      rcases answered with replied | replying <;> first | exact .inl replied | exact .inr replying | cases replying

theorem step_releasing {success : Bool} (taken : pool.step action = some pool')
    (isReleasing : pool'.dispatcher = .releasing operation success) (terminal : terminates operation success = true) :
    pool.dispatcher = .releasing operation success ∨ Closed pool' := by
  cases action with
  | closeOnFailure =>
    simp only [WorkerPool.step] at taken
    split at taken
    next other result isDecided =>
      cases taken
      cases isReleasing
      right
      unfold Closed
      dsimp only
      rw [terminal]
      exact setClosed_closed _
    next => cases taken
  | reserve _ | send _ | abandon _ | dropPermit _ | closeSender | receive | decide _ | release | reply | retire
    | disconnected | dropGuard | drain =>
    left
    unfold WorkerPool.step sendCommand at taken
    dsimp only at taken
    split at taken <;> (try split at taken) <;> (try split at taken) <;> cases taken <;>
      first | exact isReleasing | cases isReleasing

theorem Settled.step (settled : Settled pool) (taken : pool.step action = some pool')
    (stays : Closed pool → Closed pool') : Settled pool' := by
  have effect := step_effect taken
  -- what is live afterwards, and that no id that was given out comes back
  have ids : (∀ other ∈ live pool', other.id < pool'.nextId) ∧ ((live pool').map (·.id)).Nodup ∧
      ∀ id, id < pool.nextId → id < pool'.nextId ∧
        (id ∉ (live pool).map (·.id) → id ∉ (live pool').map (·.id)) := by
    cases effect with
    | moves _ live_eq next_eq _ =>
      have same := live_eq.map (·.id)
      refine ⟨fun other member => next_eq ▸ settled.fresh other (live_eq.mem_iff.mp member),
        same.nodup_iff.mpr settled.distinct, fun id given => ⟨next_eq ▸ given, fun gone back => ?_⟩⟩
      exact gone (same.mem_iff.mp back)
    | takes kind _ live_eq next_eq =>
      have unused : pool.nextId ∉ (live pool).map (·.id) := by
        intro member
        obtain ⟨other, isLive, same⟩ := List.mem_map.mp member
        exact (settled.fresh other isLive).ne same
      rw [live_eq, next_eq]
      refine ⟨fun other member => ?_, List.nodup_cons.mpr ⟨unused, settled.distinct⟩, fun id given => ⟨by omega, ?_⟩⟩
      · rcases List.mem_cons.mp member with rfl | earlier
        · exact Nat.lt_succ_self _
        · exact (settled.fresh other earlier).trans (Nat.lt_succ_self _)
      · intro gone back
        rcases List.mem_cons.mp back with same | earlier
        · exact given.ne same
        · exact gone earlier
    | frees operation live_eq next_eq _ =>
      have same := live_eq.map (·.id)
      refine ⟨fun other member => ?_, (List.nodup_cons.mp (same.nodup_iff.mp settled.distinct)).2,
        fun id given => ⟨next_eq ▸ given, fun gone back => ?_⟩⟩
      · exact next_eq ▸ settled.fresh other (live_eq.mem_iff.mpr (List.mem_cons_of_mem _ member))
      · exact gone (same.mem_iff.mpr (List.mem_cons_of_mem _ back))
  obtain ⟨fresh, distinct, retired⟩ := ids
  refine ⟨fresh, distinct, fun operation success answered => ?_, fun operation success isReleasing terminal => ?_⟩
  · rcases step_answered taken answered with earlier | ⟨isReleasing, freed⟩
    · obtain ⟨given, gone, failed⟩ := settled.answered operation success earlier
      exact ⟨(retired operation.id given).1, (retired operation.id given).2 gone, fun failure => stays (failed failure)⟩
    · have given := settled.fresh operation (freed.mem_iff.mpr (List.mem_cons_self ..))
      have apart := List.nodup_cons.mp ((freed.map (·.id)).nodup_iff.mp settled.distinct)
      refine ⟨(retired operation.id given).1, apart.1, fun failure => stays ?_⟩
      exact settled.closing operation success isReleasing (by rw [failure]; rfl)
  · rcases step_releasing taken isReleasing terminal with earlier | closed
    · exact stays (settled.closing operation success earlier terminal)
    · exact closed

end Answers

section Reachable

theorem spawn_sound (spawned : WorkerPool.spawn maximum = .ok start) :
    Counted start ∧ Settled start ∧ start.maximumOutstanding = maximum := by
  unfold WorkerPool.spawn at spawned
  split at spawned
  · cases spawned
  next accepted =>
  cases spawned
  have mask : workerStateCountMask.toNat < 2 ^ 61 := by decide
  have bound : maximum.toNat ≤ workerStateCountMask.toNat :=
    Nat.not_lt.mp fun above => accepted (.inr (BitVec.lt_def.mpr above))
  refine ⟨⟨bound.trans_lt mask, ⟨false, ?_⟩, Nat.zero_le _, Nat.zero_le _, fun _ => rfl⟩,
    ⟨nofun, List.nodup_nil, fun operation success answered => ?_, nofun⟩, rfl⟩
  · change (0 : BitVec 64) = wordOf false false 0
    decide
  · rcases answered with replied | replying
    · cases replied
    · cases replying

theorem reachable_sound (counted : Counted start) (settled : Settled start) (reached : Reachable start pool) :
    Counted pool ∧ Settled pool ∧ pool.maximumOutstanding = start.maximumOutstanding ∧
      (Closed start → Closed pool) := by
  induction reached with
  | refl => exact ⟨counted, settled, rfl, id⟩
  | step action before taken ih =>
    obtain ⟨counted, settled, maximum_eq, kept⟩ := ih
    obtain ⟨counted', stays⟩ := counted.effect (step_effect taken) (step_maximum taken)
    exact ⟨counted', settled.step taken stays, (step_maximum taken).trans maximum_eq, fun closed => stays (kept closed)⟩

theorem queue_add_held_le (pool : WorkerPool) : (pool.queue.countP fun operation => !operation.kind.isExclusive)
      + (pool.held.countP fun operation => !operation.kind.isExclusive) ≤ outstandingPermits pool := by
  unfold outstandingPermits live
  simp only [List.countP_append]
  omega

theorem Counted.not_full (counted : Counted pool) (member : operation ∈ pool.held)
    (shared : operation.kind.isExclusive = false) : pool.trySend ≠ .error .full := by
  have one : 0 < pool.held.countP fun operation => !operation.kind.isExclusive :=
    List.countP_pos_iff.mpr ⟨operation, member, by simp [shared]⟩
  have parts := queue_add_held_le pool
  have none : exclusivePermits pool = 0 := by
    by_contra some
    have := counted.alone some
    omega
  have plain : (pool.queue.countP fun operation => !operation.kind.isExclusive) = pool.queue.length := by
    refine List.countP_eq_length.mpr fun queued isQueued => ?_
    have isLive : queued ∈ live pool := by simp [live, isQueued]
    simpa using List.countP_eq_zero.mp none queued isLive
  have bound := counted.count_le
  unfold WorkerPool.trySend
  split
  · rintro ⟨⟩
  · rw [if_neg (by omega)]
    rintro ⟨⟩

theorem pool_admission (spawned : WorkerPool.spawn maximum = .ok start) (reached : Reachable start pool) :
    pool.stateWord &&& workerStatePoisoned = 0 ∧
    (pool.stateWord &&& workerStateCountMask).toNat = outstandingPermits pool ∧
    outstandingPermits pool ≤ maximum.toNat ∧
    (pool.stateWord &&& workerStateExclusive ≠ 0 ↔ exclusivePermits pool = 1) ∧
    exclusivePermits pool ≤ 1 ∧ (exclusivePermits pool = 1 → outstandingPermits pool = 0) ∧
    (Closed pool → (∀ later, Reachable pool later → Closed later) ∧
      ∀ kind, pool.reserve kind = .error (workerAdmissionError pool.stateWord)) ∧
    (∀ operation ∈ pool.held, operation.kind.isExclusive = false → pool.trySend ≠ .error .full) ∧
    ∀ operation, (operation, false) ∈ pool.replies → Closed pool ∧ operation ∉ live pool := by
  obtain ⟨counted, settled, maximum_eq⟩ := spawn_sound spawned
  obtain ⟨counted, settled, same, _⟩ := reachable_sound counted settled reached
  obtain ⟨closed, word⟩ := counted.word
  have single := counted.single
  have small : outstandingPermits pool < 2 ^ 61 := counted.count_le.trans_lt counted.bound
  refine ⟨?_, ?_, ?_, ?_, single, fun one => counted.alone (by omega), fun isClosed => ⟨?_, counted.reserve_closed isClosed⟩,
    fun operation member shared => counted.not_full member shared, fun operation replied => ?_⟩
  · rw [word]
    exact poisoned_wordOf
  · rw [word, count_wordOf, toNat_count small]
  · rw [← maximum_eq, ← same]
    exact counted.count_le
  · rw [word, exclusive_wordOf, decide_eq_true_iff]
    omega
  · exact fun later run => (reachable_sound counted settled run).2.2.2 isClosed
  · obtain ⟨_, gone, failed⟩ := settled.answered operation false (.inl replied)
    exact ⟨failed rfl, fun isLive => gone (List.mem_map_of_mem isLive)⟩

def samplePool : WorkerPool := ⟨0, 2, 0, [], [], [], .receiving, true, []⟩

def failedPool : WorkerPool :=
  ⟨workerStateClosed, 2, 1, [], [], [], .terminal, true, [(⟨0, .execute⟩, false)]⟩

theorem reachable_failedPool : Reachable samplePool failedPool := by
  let waiting : WorkerPool := { samplePool with stateWord := 1, nextId := 1, held := [⟨0, .execute⟩] }
  let queued : WorkerPool := { waiting with held := [], queue := [⟨0, .execute⟩] }
  let running : WorkerPool := { queued with queue := [], dispatcher := .running ⟨0, .execute⟩ }
  let decided : WorkerPool := { running with dispatcher := .decided ⟨0, .execute⟩ false }
  let releasing : WorkerPool :=
    { decided with stateWord := workerStateClosed ||| 1, dispatcher := .releasing ⟨0, .execute⟩ false }
  let replying : WorkerPool :=
    { releasing with stateWord := workerStateClosed, dispatcher := .replying ⟨0, .execute⟩ false }
  have first : Reachable samplePool waiting := .step (.reserve .execute) .refl (by decide)
  have second : Reachable samplePool queued := .step (.send ⟨0, .execute⟩) first (by decide)
  have third : Reachable samplePool running := .step .receive second (by decide)
  have fourth : Reachable samplePool decided := .step (.decide false) third (by decide)
  have fifth : Reachable samplePool releasing := .step .closeOnFailure fourth (by decide)
  have sixth : Reachable samplePool replying := .step .release fifth (by decide)
  exact .step .reply sixth (by decide)

theorem failedPool_admission : Closed failedPool ∧ (⟨0, .execute⟩ : Operation) ∉ live failedPool ∧
    ∀ kind, failedPool.reserve kind = .error (workerAdmissionError failedPool.stateWord) := by
  have spawned : WorkerPool.spawn 2 = .ok samplePool := by decide
  obtain ⟨_, _, _, _, _, _, closing, _, failing⟩ := pool_admission spawned reachable_failedPool
  obtain ⟨closed, released⟩ := failing ⟨0, .execute⟩ (by decide)
  exact ⟨closed, released, (closing closed).2⟩

end Reachable

end Glmaxx.Proof.Admission
