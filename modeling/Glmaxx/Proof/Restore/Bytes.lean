import Glmaxx.Proof.Restore.Leases

namespace Glmaxx.Proof.Restore
open Std Library Cache Cache.DirectRestoreTable Action

variable {usage : DirectBufferUse} {i : Nat} {slot slot' : DirectBufferSlot} {pool : DirectBufferPool} {α : Type}

section Slots

def Vacant (state : DirectBufferState) : Prop := state = .free ∨ state = .retired

def Later (slot slot' : DirectBufferSlot) : Prop :=
  slot.generation < slot'.generation ∨
    slot.generation = slot'.generation ∧ (Vacant slot'.state ∨ ¬Vacant slot.state ∧ slot'.bytes = slot.bytes)

theorem Later.refl (slot : DirectBufferSlot) : Later slot slot := by
  by_cases vacant : Vacant slot.state
  · exact .inr ⟨rfl, .inl vacant⟩
  · exact .inr ⟨rfl, .inr ⟨vacant, rfl⟩⟩

theorem Later.trans {a b c : DirectBufferSlot} (first : Later a b) (second : Later b c) : Later a c := by
  rcases first with older | ⟨same, kept⟩
  · rcases second with newer | ⟨same', -⟩
    · exact .inl (older.trans newer)
    · exact .inl (same' ▸ older)
  · rcases second with newer | ⟨same', kept'⟩
    · exact .inl (same ▸ newer)
    · refine .inr ⟨same.trans same', ?_⟩
      rcases kept' with vacant | ⟨used, bytes'⟩
      · exact .inl vacant
      · rcases kept with vacant | ⟨used', bytes⟩
        · exact absurd vacant used
        · exact .inr ⟨used', bytes'.trans bytes⟩

def PoolLater (pool pool' : DirectBufferPool) : Prop := List.Forall₂ Later pool.slots pool'.slots

instance : IsPreorder DirectBufferPool PoolLater where
  refl pool := forall₂_same Later.refl pool.slots
  trans _ _ _ first second := forall₂_trans (fun _ _ _ => Later.trans) first second

theorem setSlot_later {id : DirectBufferId}
    (get : pool.slots[id.slot]? = some slot) (later : Later slot slot') : PoolLater pool (pool.setSlot id slot') :=
  forall₂_set Later.refl get later

theorem reserve_later (usage : DirectBufferUse) : Frames PoolLater (DirectBufferPool.reserve usage) := by
  intro pool
  obtain ⟨slots, passed, outcome⟩ := reserve_cases usage pool
  have later : List.Forall₂ Later pool.slots slots := by
    refine passed.imp ?_
    rintro slot slot' (rfl | ⟨_, rfl⟩)
    · exact .refl _
    · exact .inr ⟨rfl, .inl (.inr rfl)⟩
  rcases outcome with ⟨ran, _⟩ | ⟨i, slot, next, _, get, _, ran⟩
  · rw [ran]
    exact later
  · rw [ran]
    exact forall₂_trans (fun _ _ _ => Later.trans) later (forall₂_set Later.refl get (.inl (Nat.lt_succ_self _)))

theorem used_of_validTransition {current next : DirectBufferState} (valid : validTransition current next = true) :
    ¬Vacant current := by
  rintro (rfl | rfl) <;> cases next <;> cases valid

theorem transition_later (id : DirectBufferId) (next : DirectBufferState) :
    Frames PoolLater (DirectBufferPool.transition id next) := by
  apply Frames.updates
  intro pool _ pool' changed
  obtain ⟨slot, found, changed⟩ := bind_eq_ok.mp changed
  by_cases invalid : validTransition slot.state next = false
  · rw [if_pos invalid] at changed
    cases changed
  rw [if_neg invalid] at changed
  cases changed
  apply setSlot_later (slot_leased found).2.1
  refine .inr ⟨rfl, ?_⟩
  by_cases freed : next = .free
  · exact .inl (.inl freed)
  · refine .inr ⟨used_of_validTransition (by simpa using invalid), ?_⟩
    exact if_neg freed

theorem releaseAbandonedRead_later (id : DirectBufferId) :
    Frames PoolLater (DirectBufferPool.releaseAbandonedRead id) := by
  apply Frames.updates
  intro pool _ pool' changed
  obtain ⟨slot, found, changed⟩ := bind_eq_ok.mp changed
  by_cases other : slot.state ≠ .readInflight
  · rw [if_pos other] at changed
    cases changed
  rw [if_neg other] at changed
  cases changed
  exact setSlot_later (slot_leased found).2.1 (.inr ⟨rfl, .inl (.inl rfl)⟩)

end Slots

section Functions

/-- A relation that sees nothing of a table but its slots' bytes and its pool of workers. -/
structure Lenient (R : DirectRestoreTable → DirectRestoreTable → Prop) : Prop where
  besides : ∀ t t' : DirectRestoreTable, t'.buffers = t.buffers → t'.checksumWorkers = t.checksumWorkers → R t t'
  buffers : ∀ (t : DirectRestoreTable) (buffers : DirectBufferPool), PoolLater t.buffers buffers → R t { t with buffers }

variable {R : DirectRestoreTable → DirectRestoreTable → Prop} [IsPreorder DirectRestoreTable R] (lenient : Lenient R)
  (id : Nat)
include lenient

omit [IsPreorder DirectRestoreTable R] in
theorem onBuffers_frames {x : Action DirectBufferPool DirectBufferStateError α} (later : Frames PoolLater x) :
    Frames R (onBuffers x) := by
  intro t
  have after := later t.buffers
  unfold onBuffers Action.within
  split
  next ran =>
    rw [ran] at after
    exact lenient.buffers t _ after
  next ran =>
    rw [ran] at after
    exact lenient.buffers t _ after

omit [IsPreorder DirectRestoreTable R] in
theorem onDescriptors_frames (x : Action DirectDescriptorTable DirectDescriptorError α) :
    Frames R (onDescriptors x) := Frames.within fun _ _ => lenient.besides _ _ rfl rfl

theorem onCq_frames (f : DirectCqTracker → Except DirectRestoreError DirectCqTracker) : Frames R (onCq f) :=
  Frames.writes fun _ _ => lenient.besides _ _ rfl rfl

theorem ticketMut_frames (f : DirectRestoreTicket → DirectRestoreTicket) : Frames R (ticketMut id f) :=
  Frames.writes fun _ _ => lenient.besides _ _ rfl rfl

theorem unchargeTenant_frames (tenant bytes : Nat) : Frames R (unchargeTenant tenant bytes) := by
  apply Frames.updates
  intro t _ t' changed
  obtain ⟨_, _, changed⟩ := bind_eq_ok.mp changed
  obtain ⟨_, _, same⟩ := bind_eq_ok.mp changed
  cases same
  exact lenient.besides _ _ rfl rfl

theorem releaseHashJob_frames : Frames R (releaseHashJob id) := by
  refine Frames.read fun current => ?_
  split
  · exact Frames.pure _
  · exact Frames.bind (Frames.writes fun _ _ => lenient.besides _ _ rfl rfl) fun _ => ticketMut_frames lenient id _

theorem removeTicket_frames : Frames R (removeTicket id) := by
  refine Frames.read fun current => ?_
  apply Frames.guard
  apply Frames.guard
  apply Frames.guard
  refine Frames.bind (Frames.modify fun _ => lenient.besides _ _ rfl rfl) fun _ => ?_
  refine Frames.bind (Frames.forM (fun waiter => ?_) _) fun _ => ?_
  · exact Frames.bind (Frames.modify fun _ => lenient.besides _ _ rfl rfl) fun _ =>
      unchargeTenant_frames lenient _ _
  · exact Frames.writes fun _ _ => lenient.besides _ _ rfl rfl

theorem failTicket_frames : Frames R (failTicket id) := by
  refine Frames.read fun current => ?_
  refine Frames.read fun buffer => ?_
  refine Frames.read fun state => ?_
  refine Frames.bind ?_ fun _ => ?_
  · unfold quarantineBuffer
    split
    · exact Frames.bind (onBuffers_frames lenient (transition_later _ _)) fun _ =>
        onBuffers_frames lenient (transition_later _ _)
    · exact Frames.pure _
  refine Frames.bind (releaseHashJob_frames lenient id) fun _ => ?_
  refine Frames.bind ?_ fun _ => ?_
  · refine Frames.read fun current => ?_
    refine Frames.bind (Frames.forM (fun waiter => ?_) _) fun _ => ticketMut_frames lenient id _
    exact Frames.bind (unchargeTenant_frames lenient _ _) fun _ =>
      Frames.modify fun _ => lenient.besides _ _ rfl rfl
  refine Frames.bind (ticketMut_frames lenient id _) fun _ => ?_
  refine Frames.read fun current => ?_
  split
  · exact removeTicket_frames lenient id
  · exact Frames.pure _

end Functions

section Calls

def SlotsLater (t t' : DirectRestoreTable) : Prop := PoolLater t.buffers t'.buffers

instance : IsPreorder DirectRestoreTable SlotsLater where
  refl t := refl_of PoolLater t.buffers
  trans _ _ _ first second := trans_of PoolLater first second

theorem slotsLater_of_eq {t t' : DirectRestoreTable} (same : t'.buffers = t.buffers) : SlotsLater t t' := by
  unfold SlotsLater
  rw [same]
  exact refl_of PoolLater t.buffers

theorem slotsLater_lenient : Lenient SlotsLater where
  besides _ _ same _ := slotsLater_of_eq same
  buffers _ _ later := later

theorem transition_slots (buffer : DirectBufferId) (next : DirectBufferState) :
    Frames SlotsLater (onBuffers (DirectBufferPool.transition buffer next)) :=
  onBuffers_frames slotsLater_lenient (transition_later buffer next)

theorem ticketMut_slots (id : Nat) (f : DirectRestoreTicket → DirectRestoreTicket) : Frames SlotsLater (ticketMut id f) :=
  ticketMut_frames slotsLater_lenient id f

theorem chargeTenant_slots (tenant bytes : Nat) : Frames SlotsLater (chargeTenant tenant bytes) := by
  refine Frames.read fun _ => ?_
  refine Frames.bind (Frames.modify fun _ => slotsLater_of_eq rfl) fun _ => ?_
  exact Frames.writes fun _ _ => slotsLater_of_eq rfl

theorem plan_slots (demand : DirectRestoreRequest) (record : DirectExtentRecord) (epoch : Nat) (digest : Bytes32) :
    Frames SlotsLater (plan demand record epoch digest) := by
  refine Frames.read fun _ => ?_
  refine Frames.read fun _ => ?_
  apply Frames.guard
  apply Frames.guard
  refine Frames.read fun table => ?_
  apply Frames.guard
  refine Frames.read fun _ => ?_
  split
  · refine Frames.read fun _ => ?_
    refine Frames.read fun _ => ?_
    apply Frames.guard
    refine Frames.bind (chargeTenant_slots _ _) fun _ => ?_
    refine Frames.bind (ticketMut_slots _ _) fun _ => ?_
    exact Frames.bind (Frames.modify fun _ => slotsLater_of_eq rfl) fun _ => Frames.pure _
  · refine Frames.read fun _ => ?_
    apply Frames.guard
    refine Frames.read fun _ => ?_
    apply Frames.guard
    refine Frames.read fun _ => ?_
    refine Frames.bind (Frames.modify fun _ => slotsLater_of_eq rfl) fun _ => ?_
    refine Frames.bind (chargeTenant_slots _ _) fun _ => ?_
    exact Frames.bind (Frames.modify fun _ => slotsLater_of_eq rfl) fun _ => Frames.pure _

variable (id : Nat)

theorem reserveBuffer_slots : Frames SlotsLater (reserveBuffer id) := by
  refine Frames.read fun _ => ?_
  apply Frames.guard
  refine Frames.bind (onBuffers_frames slotsLater_lenient (reserve_later _)) fun _ => ?_
  exact Frames.bind (ticketMut_slots _ _) fun _ => Frames.pure _

theorem submitRead_slots : Frames SlotsLater (submitRead id) := by
  refine Frames.read fun _ => ?_
  apply Frames.guard
  apply Frames.guard
  refine Frames.read fun _ => ?_
  apply Frames.guard
  refine Frames.read fun _ => ?_
  apply Frames.guard
  refine Frames.read fun _ => ?_
  refine Frames.bind (onDescriptors_frames slotsLater_lenient _) fun _ => ?_
  refine Frames.bind (Frames.attempt (onCq_frames slotsLater_lenient _)) fun counted => ?_
  split
  · exact Frames.bind (onDescriptors_frames slotsLater_lenient _) fun _ => Frames.fail _
  refine Frames.bind (Frames.attempt (transition_slots _ _)) fun moved => ?_
  split
  · refine Frames.bind (onCq_frames slotsLater_lenient _) fun _ => ?_
    exact Frames.bind (onDescriptors_frames slotsLater_lenient _) fun _ => Frames.fail _
  · exact Frames.bind (ticketMut_slots _ _) fun _ => Frames.modify fun _ => slotsLater_of_eq rfl

theorem releaseTicket_slots (buffer : Option DirectBufferId) : Frames SlotsLater (releaseTicket id buffer) := by
  refine Frames.read fun _ => ?_
  exact Frames.bind (transition_slots _ _) fun _ => removeTicket_frames slotsLater_lenient id

theorem cancelWaiter_slots (request : Nat) (supported : Bool) : Frames SlotsLater (cancelWaiter request supported) := by
  refine Frames.read fun _ => ?_
  refine Frames.read fun _ => ?_
  refine Frames.read fun _ => ?_
  refine Frames.bind (unchargeTenant_frames slotsLater_lenient _ _) fun _ => ?_
  refine Frames.bind (Frames.modify fun _ => slotsLater_of_eq rfl) fun _ => ?_
  refine Frames.bind (ticketMut_slots _ _) fun _ => ?_
  refine Frames.read fun current => ?_
  split
  · cases current.state with
    | planned => exact Frames.bind (removeTicket_frames slotsLater_lenient _) fun _ => Frames.pure _
    | bufferReserved | hashVerified => exact Frames.bind (releaseTicket_slots _ _) fun _ => Frames.pure _
    | dataReady => exact Frames.bind (ticketMut_slots _ _) fun _ => Frames.pure _
    | readSubmitted =>
      refine Frames.bind (ticketMut_slots _ _) fun _ => ?_
      split
      · refine Frames.bind (Frames.attempt (onCq_frames slotsLater_lenient _)) fun counted => ?_
        split
        · refine Frames.read fun _ => ?_
          refine Frames.read fun _ => ?_
          refine Frames.bind (Frames.attempt (onDescriptors_frames slotsLater_lenient _)) fun issued => ?_
          split
          · exact Frames.bind (ticketMut_slots _ _) fun _ => Frames.pure _
          · exact Frames.bind (onCq_frames slotsLater_lenient _) fun _ => Frames.fail _
        · exact Frames.pure _
        · exact Frames.fail _
      · exact Frames.pure _
    | abandoned | failed => exact Frames.fail _
  · exact Frames.pure _

theorem reap_slots (buffer : DirectBufferId) (token : DirectCompletionToken) (kind : DirectCqKind) :
    Frames SlotsLater (reap id buffer token kind) := by
  refine Frames.read fun _ => ?_
  apply Frames.guard
  refine Frames.read fun _ => ?_
  exact Frames.bind (onDescriptors_frames slotsLater_lenient _) fun _ => onCq_frames slotsLater_lenient _

theorem finishAbandonedIfReaped_slots : Frames SlotsLater (finishAbandonedIfReaped id) := by
  refine Frames.read fun _ => ?_
  apply Frames.guard
  split
  · exact Frames.pure _
  · refine Frames.read fun _ => ?_
    refine Frames.bind (releaseHashJob_frames slotsLater_lenient _) fun _ => ?_
    exact Frames.bind (onBuffers_frames slotsLater_lenient (releaseAbandonedRead_later _)) fun _ =>
      removeTicket_frames slotsLater_lenient _

theorem queueHash_slots (buffer : DirectBufferId) : Frames SlotsLater (queueHash id buffer) := by
  refine Frames.bind (transition_slots _ _) fun _ => ?_
  refine Frames.read fun _ => ?_
  exact Frames.guard (ticketMut_slots _ _)

theorem completeOriginal_slots (completion : DirectReadCompletion) :
    Frames SlotsLater (completeOriginal id completion) := by
  refine Frames.read fun current => ?_
  apply Frames.guard
  refine Frames.read fun buffer => ?_
  refine Frames.read fun _ => ?_
  refine Frames.bind (reap_slots _ _ _ _) fun _ => ?_
  refine Frames.bind (ticketMut_slots _ _) fun _ => ?_
  unfold finishOriginal
  split
  · exact queueHash_slots _ _
  · exact finishAbandonedIfReaped_slots _
  · exact finishAbandonedIfReaped_slots _
  · exact failTicket_frames slotsLater_lenient _
  · exact failTicket_frames slotsLater_lenient _
  · exact Frames.fail _

theorem completeCancel_slots : Frames SlotsLater (completeCancel id) := by
  refine Frames.read fun _ => ?_
  apply Frames.guard
  refine Frames.read fun _ => ?_
  refine Frames.read fun _ => ?_
  refine Frames.bind (reap_slots _ _ _ _) fun _ => ?_
  refine Frames.bind (ticketMut_slots _ _) fun _ => ?_
  refine Frames.read fun current => ?_
  split
  · exact Frames.pure _
  · split
    · exact finishAbandonedIfReaped_slots _
    · exact removeTicket_frames slotsLater_lenient _

theorem failChecksumPool_slots : Frames SlotsLater failChecksumPool := by
  refine Frames.bind (Frames.writes fun _ _ => slotsLater_of_eq rfl) fun _ => ?_
  refine Frames.read fun _ => ?_
  exact Frames.forM (fun id => failTicket_frames slotsLater_lenient id) _

theorem dispatchNextChecksum_slots (answer : TrySend) : Frames SlotsLater (dispatchNextChecksum answer) := by
  refine Frames.read fun _ => ?_
  refine Frames.read fun _ => ?_
  apply Frames.guard
  split
  · exact Frames.pure _
  refine Frames.bind ?_ fun job => ?_
  · apply Frames.guard
    exact Frames.read fun _ => Frames.pure _
  refine Frames.read fun _ => ?_
  refine Frames.bind (ticketMut_slots _ _) fun _ => ?_
  cases answer with
  | sent => exact Frames.pure _
  | full => exact Frames.bind (ticketMut_slots _ _) fun _ => Frames.fail _
  | disconnected =>
    refine Frames.bind (ticketMut_slots _ _) fun _ => ?_
    exact Frames.bind failChecksumPool_slots fun _ => Frames.fail _

theorem pollChecksumResult_slots (answer : TryReceive) : Frames SlotsLater (pollChecksumResult answer) := by
  refine Frames.read fun _ => ?_
  apply Frames.guard
  cases answer with
  | empty => exact Frames.pure _
  | disconnected => exact Frames.bind failChecksumPool_slots fun _ => Frames.fail _
  | received completion =>
    refine Frames.read fun _ => ?_
    apply Frames.guard
    cases completion.outcome with
    | bufferFailure failure => exact Frames.bind (failTicket_frames slotsLater_lenient _) fun _ => Frames.fail _
    | workerPanic => exact Frames.bind failChecksumPool_slots fun _ => Frames.fail _
    | verified integrity shared =>
      cases shared with
      | true => exact Frames.pure _
      | false => exact Frames.bind failChecksumPool_slots fun _ => Frames.fail _

theorem nextHashJob_slots : Frames SlotsLater nextHashJob := by
  refine Frames.read fun _ => ?_
  apply Frames.guard
  split
  · exact Frames.pure _
  refine Frames.bind ?_ fun job => ?_
  · apply Frames.guard
    exact Frames.read fun _ => Frames.pure _
  exact Frames.bind (ticketMut_slots _ _) fun _ => Frames.pure _

theorem runHashJob_slots (sha256 : List UInt8 → Bytes32) (job : DirectHashJob) :
    Frames SlotsLater (runHashJob sha256 job) := by
  refine Frames.read fun _ => ?_
  apply Frames.guard
  refine Frames.read fun _ => ?_
  apply Frames.guard
  refine Frames.read fun _ => ?_
  exact Frames.read fun _ => Frames.pure _

theorem completeHash_slots (result : DirectHashResult) : Frames SlotsLater (completeHash result) := by
  refine Frames.read fun _ => ?_
  apply Frames.guard
  refine Frames.read fun _ => ?_
  split
  · refine Frames.bind (transition_slots _ _) fun _ => ?_
    refine Frames.bind (releaseHashJob_frames slotsLater_lenient _) fun _ => ?_
    split
    · exact Frames.bind (transition_slots _ _) fun _ => removeTicket_frames slotsLater_lenient _
    · exact ticketMut_slots _ _
  · exact Frames.bind (failTicket_frames slotsLater_lenient _) fun _ => Frames.fail _

theorem finishCpuDelivery_slots : Frames SlotsLater (finishCpuDelivery id) := by
  refine Frames.read fun _ => ?_
  apply Frames.guard
  exact Frames.bind (releaseTicket_slots _ _) fun _ => Frames.pure _

theorem startChecksumWorkers_slots (workerCount : Nat) (spawned : Bool) :
    Frames SlotsLater (startChecksumWorkers workerCount spawned) := by
  refine Frames.read fun _ => ?_
  apply Frames.guard
  exact Frames.read fun _ => Frames.modify fun _ => slotsLater_of_eq rfl

theorem shutdownChecksumWorkers_slots (panicked : Bool) : Frames SlotsLater (shutdownChecksumWorkers panicked) := by
  refine Frames.read fun _ => ?_
  apply Frames.guard
  refine Frames.read fun _ => ?_
  exact Frames.bind (Frames.modify fun _ => slotsLater_of_eq rfl) fun _ => Frames.failIf _ _

theorem call_slots (sha256 : List UInt8 → Bytes32) (request : RestoreCall)
    (besides : ∀ id offset source, request ≠ .copyIntoReadDestination id offset source) :
    Frames SlotsLater (call sha256 request) := by
  have discards {α : Type} {x : Restore α} (frames : Frames SlotsLater x) :
      Frames SlotsLater (DirectRestoreTable.discard x) := Frames.bind frames fun _ => Frames.pure _
  cases request with
  | plan demand record epoch digest => exact discards (plan_slots demand record epoch digest)
  | reserveBuffer id => exact discards (reserveBuffer_slots id)
  | submitRead id => exact submitRead_slots id
  | copyIntoReadDestination id offset source => exact absurd rfl (besides id offset source)
  | cancelWaiter request supported => exact discards (cancelWaiter_slots request supported)
  | completeOriginal id completion => exact completeOriginal_slots id completion
  | completeCancel id => exact completeCancel_slots id
  | startChecksumWorkers workerCount spawned => exact startChecksumWorkers_slots workerCount spawned
  | dispatchNextChecksum answer => exact discards (dispatchNextChecksum_slots answer)
  | pollChecksumResult answer => exact discards (pollChecksumResult_slots answer)
  | nextHashJob => exact discards nextHashJob_slots
  | runHashJob job => exact discards (runHashJob_slots sha256 job)
  | completeHash result => exact completeHash_slots result
  | finishCpuDelivery id => exact discards (finishCpuDelivery_slots id)
  | shutdownChecksumWorkers panicked => exact shutdownChecksumWorkers_slots panicked

end Calls

end Glmaxx.Proof.Restore
