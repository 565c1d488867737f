import Glmaxx.Library.Run
import Glmaxx.Proof.Restore.Steps
import Glmaxx.Proof.Restore.Validate

namespace Glmaxx.Proof.Restore
open Std Library Cache Cache.DirectRestoreTable

variable {stray : Prop}
variable {t start : DirectRestoreTable} {allocation : Nat → Option Nat} {config : DirectRestoreConfig}
  {nodrop : Bool} {sha256 : List UInt8 → Bytes32} {calls : List RestoreCall}

section Start

theorem freshPool {capacity : Nat} {pool : DirectBufferPool}
    (created : DirectBufferPool.new allocation capacity = .ok pool) :
    pool.slots.length = capacity ∧ pool.activeSlots = 0 := by
  unfold DirectBufferPool.new at created
  split at created
  · cases created
  obtain ⟨slots, each, same⟩ := bind_eq_ok.mp created
  cases same
  obtain ⟨length, each⟩ := results_of_mapM_ok each
  refine ⟨length.trans (List.length_range ..), ?_⟩
  refine List.countP_eq_zero.mpr fun slot member => ?_
  obtain ⟨index, _, ok⟩ := each slot member
  split at ok
  · cases ok
    exact Bool.false_ne_true
  · cases ok

theorem new_steady (created : new allocation config nodrop = .ok start) : Steady stray start := by
  unfold DirectRestoreTable.new at created
  split at created
  · cases created
  next valid =>
  simp only [not_or] at valid
  obtain ⟨entries, product, created⟩ := bind_eq_ok.mp created
  obtain ⟨buffers, pool, created⟩ := bind_eq_ok.mp created
  obtain ⟨descriptors, table, created⟩ := bind_eq_ok.mp created
  obtain ⟨cq, tracker, same⟩ := bind_eq_ok.mp created
  cases same
  have product : config.descriptorCapacity.toNat * 2 < 2 ^ 32 ∧ entries = config.descriptorCapacity.toNat * 2 := by
    have product := okOr_eq_ok.mp product
    unfold checkedMul at product
    split at product
    next fits => exact ⟨fits, (Option.some.inj product).symm⟩
    next => cases product
  obtain ⟨length, idle⟩ : buffers.slots.length = config.bufferSlots.toNat ∧ buffers.activeSlots = 0 := by
    cases outcome : DirectBufferPool.new allocation config.bufferSlots.toNat with
    | error e => rw [outcome] at pool; cases pool
    | ok buffers' =>
      rw [outcome] at pool
      cases pool
      exact freshPool outcome
  obtain ⟨capacity, rfl⟩ : config.descriptorCapacity.toNat ≤ 2 ^ 31 ∧
      descriptors = ⟨List.replicate config.descriptorCapacity.toNat ⟨0, false, none⟩, 0⟩ := by
    unfold DirectDescriptorTable.new at table
    by_cases refused : config.descriptorCapacity.toNat = 0 ∨ config.descriptorCapacity.toNat > 0x80000000
    · rw [if_pos refused] at table
      cases table
    · rw [if_neg refused] at table
      cases table
      exact ⟨by omega, rfl⟩
  have isCq : cq = ⟨config.descriptorCapacity.toNat, entries, 0, 0, 0, nodrop⟩ := by
    obtain ⟨_, _, tracker⟩ := bind_eq_ok.mp tracker
    split at tracker
    · cases tracker
    · exact (Except.ok.inj tracker).symm
  subst isCq
  have waiters : 0 < config.maximumWaitersPerTicket.toNat := by
    have positive := valid.2.1
    rw [Nat.pos_iff_ne_zero]
    intro zero
    exact positive (UInt32.toNat_inj.mp zero)
  have unused : (DirectDescriptorTable.mk (List.replicate config.descriptorCapacity.toNat ⟨0, false, none⟩)
      0).outstandingDescriptors = 0 := by
    refine List.countP_eq_zero.mpr fun slot member => ?_
    rw [List.eq_of_mem_replicate member]
    decide
  have nothing (i : Nat) : (∅ : ExtTreeMap DirectRestoreTicketId DirectRestoreTicket)[i]? = none :=
    ExtTreeMap.getElem?_empty
  refine ⟨⟨?_, ?_, ?_, ?_, ?_, ?_, ?_, Nat.one_pos, Nat.zero_le _, ?_, nofun⟩, nofun⟩
  · intro j ticket _ found
    rw [nothing] at found
    cases found
  · intro i j a b p q foundI
    unfold ledger at foundI
    split at foundI
    · cases foundI
    · rw [nothing] at foundI
      cases foundI
  · intro resource
    rw [total_empty, nothing]
    cases resource with
    | buffers => exact idle.symm
    | descriptors => exact unused.symm
    | _ => rfl
  · intro request j
    have absent : (∅ : ExtTreeMap Nat DirectRestoreTicketId)[request]? = none := ExtTreeMap.getElem?_empty
    rw [absent]
    refine ⟨nofun, ?_⟩
    rintro ⟨ticket, found, _⟩
    unfold ledger at found
    split at found
    · cases found
    · rw [nothing] at found
      cases found
  · intro tenant charge
    have absent : (∅ : ExtTreeMap Nat Nat)[tenant]? = none := ExtTreeMap.getElem?_empty
    rw [absent] at charge
    cases charge
  · intro resource bound limited
    cases resource with
    | hashes | physical | logical => exact Nat.zero_le _
    | buffers | descriptors | originals | cancels | requests => cases limited
  · intro j ticket found
    rw [nothing] at found
    cases found
  · have slots := config.bufferSlots.toNat_lt
    exact ⟨length ▸ slots, List.length_replicate .., capacity, rfl, product.2, product.1, rfl, waiters⟩

end Start

section Runs

def PoolFailsCalm (sha256 : List UInt8 → Bytes32) (start : DirectRestoreTable) (calls : List RestoreCall) : Prop :=
  ∀ n, (start.run sha256 (calls.take n)).poolFailed = false →
    (start.run sha256 (calls.take (n + 1))).poolFailed = true → Calm (start.run sha256 (calls.take n))

theorem run_steady (steady : Steady stray start) (calm : PoolFailsCalm sha256 start calls ∨ stray) (n : Nat) :
    Steady stray (start.run sha256 (calls.take n)) := by
  induction n with
  | zero => exact steady
  | succ n ih =>
    cases get : calls[n]? with
    | none =>
      have stop : start.run sha256 (calls.take (n + 1)) = start.run sha256 (calls.take n) :=
        foldl_take_of_none (fun table request => (call sha256 request table).2) get
      rw [stop]
      exact ih
    | some request =>
      have step : start.run sha256 (calls.take (n + 1)) = (call sha256 request (start.run sha256 (calls.take n))).2 :=
        foldl_take_succ (fun table request => (call sha256 request table).2) get
      rw [step]
      refine (call_follows sha256 request ih fun live failed => ?_).steady
      exact calm.imp_left fun calm => calm n live (step ▸ failed)

/-- A finite check of `PoolFailsCalm`. -/
theorem poolFailsCalm_of_steps (steps : ∀ n : Fin calls.length,
    (start.run sha256 (calls.take (n + 1))).poolFailed = true →
      (start.run sha256 (calls.take n)).poolFailed = true ∨
      (start.run sha256 (calls.take n)).tickets.toList.all (fun entry => !entry.2.originalPending) = true) :
    PoolFailsCalm sha256 start calls := by
  intro n live failed id ticket found
  by_cases inside : n < calls.length
  · rcases steps ⟨n, inside⟩ failed with already | arrived
    · rw [live] at already
      cases already
    · have calm := List.all_eq_true.mp arrived (id, ticket) (mem_toList_iff.mpr found)
      simpa using calm
  · rw [List.take_of_length_le (by omega)] at live failed
    rw [live] at failed
    cases failed

/-- In every run in which the pool fails only while no read is in flight, every table passes its checker. -/
theorem run_validates (created : new allocation config nodrop = .ok start)
    (calm : PoolFailsCalm sha256 start calls) (n : Nat) :
    (start.run sha256 (calls.take n)).validateInvariants = .ok () :=
  validateInvariants_ok (run_steady (new_steady created) (.inl calm) n).sound

def digestOf (byte : UInt8) : Bytes32 := List.Vector.replicate 32 byte

def extentOf (key : UInt8) : DirectExtentRecord where
  formatVersion := 1
  nameSpace := digestOf 1
  pageKey := digestOf key
  durableRevision := 1
  capability := .target
  segmentId := 1
  physicalOffset := 0
  physicalLength := targetOnlyPhysicalBytes
  physicalSha256 := digestOf 2
  pieces := [⟨.targetKv, targetKvExtentOffset, targetKvExtentLength, digestOf 3⟩,
    ⟨.targetIndexer, targetIndexerExtentOffset, targetIndexerExtentLength, digestOf 4⟩]

def twoReads : DirectRestoreConfig := ⟨4, 4, 2, 100000000, 100000000, 2, 2⟩

def readsInFlight : List RestoreCall :=
  [.startChecksumWorkers 1 true, .plan ⟨1, 1, .target⟩ (extentOf 5) 1 (digestOf 7),
    .plan ⟨2, 1, .target⟩ (extentOf 6) 1 (digestOf 7), .reserveBuffer 1, .reserveBuffer 2, .submitRead 1,
    .submitRead 2, .completeOriginal 1 .exact, .dispatchNextChecksum .sent]

def workerPanics : RestoreCall := .pollChecksumResult (.received ⟨⟨1, ⟨0, 1⟩⟩, .workerPanic⟩)

/-- The pool may fail once both reads have arrived. -/
theorem panic_after_reads_valid : ∃ start, new (fun _ => some 4096) twoReads false = .ok start ∧
      PoolFailsCalm (fun _ => Bytes32.zero) start (readsInFlight ++ [.completeOriginal 2 .exact, workerPanics]) ∧
      (start.run (fun _ => Bytes32.zero) ((readsInFlight ++ [.completeOriginal 2 .exact, workerPanics]).take
        11)).validateInvariants = .ok () := by
  refine ⟨_, rfl, ?_, run_validates (show new (fun _ => some 4096) twoReads false = _ from rfl) ?_ 11⟩
  all_goals exact poolFailsCalm_of_steps (by decide +kernel)

/-- A worker that panics under the other read leaves a failed ticket whose completion is still to come. -/
theorem panic_under_read_invalid : ∃ start, new (fun _ => some 4096) twoReads false = .ok start ∧
      (start.run (fun _ => Bytes32.zero) (readsInFlight ++ [workerPanics])).validateInvariants = .error .state :=
  ⟨_, rfl, by decide +kernel⟩

/-- The completion queue counts exactly the completions that are to come, and has room for all of them, also after a
pool has failed under reads in flight. -/
theorem run_queue_has_room (created : new allocation config nodrop = .ok start) (calls : List RestoreCall) :
    (start.run sha256 calls).cq.original =
      (start.run sha256 calls).tickets.toList.countP (fun entry => entry.2.originalPending) ∧
    (start.run sha256 calls).cq.cancel =
      (start.run sha256 calls).tickets.toList.countP (fun entry => entry.2.cancelPending) ∧
    (start.run sha256 calls).cq.original + (start.run sha256 calls).cq.cancel ≤ (start.run sha256 calls).cq.cqEntries ∧
    (start.run sha256 calls).cq.cqEntries = 2 * (start.run sha256 calls).config.descriptorCapacity.toNat ∧
    (∀ id, (submitRead id (start.run sha256 calls)).1 ≠ .error .cqWait) ∧
    ∀ request, (cancelWaiter request true (start.run sha256 calls)).1 ≠ .ok .abandonedWithoutAsyncCancel := by
  have steady : Steady True (start.run sha256 (calls.take calls.length)) :=
    run_steady (new_steady created) (.inr trivial) calls.length
  rw [List.take_length] at steady
  have sound := steady.sound
  have shaped := sound.shaped
  have originals := sound.originals_le.trans List.countP_le_length
  have cancels := sound.cancels_le.trans List.countP_le_length
  have sized := shaped.descriptors
  have entries := shaped.cqEntries
  refine ⟨?_, ?_, by omega, by omega, ?_, ?_⟩
  · rw [← total_eq_countP]
    exact (sound.balance .originals).symm
  · rw [← total_eq_countP]
    exact (sound.balance .cancels).symm
  · intro id waits
    have ends := submitRead_ends id steady
    unfold Action.Ends at ends
    split at ends
    next ran =>
      rw [ran] at waits
      cases waits
    next ran =>
      rw [ran] at waits
      cases waits
      exact ends.1 rfl
  · intro request
    cases filed : (start.run sha256 calls).requestToTicket[request]? with
    | none =>
      have missing : cancelWaiter request true (start.run sha256 calls) = (.error .missingRequest, _) :=
        Action.bind_error (show (okOr _ _, _) = _ by rw [filed]; rfl)
      rw [missing]
      nofun
    | some id =>
      obtain ⟨_, _, _, _, ran, _, queued, _⟩ := cancelWaiter_advances sound filed true
      rw [ran]
      intro waits
      exact queued rfl (Except.ok.inj waits)

theorem panic_under_read_has_room : ∃ start, new (fun _ => some 4096) twoReads false = .ok start ∧
      (start.run (fun _ => Bytes32.zero) (readsInFlight ++ [workerPanics])).cq.original =
        (start.run (fun _ => Bytes32.zero) (readsInFlight ++ [workerPanics])).tickets.toList.countP
          fun entry => entry.2.originalPending :=
  ⟨_, rfl, (run_queue_has_room (show new (fun _ => some 4096) twoReads false = _ from rfl) _).1⟩

end Runs

end Glmaxx.Proof.Restore
