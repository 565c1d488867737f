import Glmaxx.Proof.Restore.Hashing

namespace Glmaxx.Proof.Restore
open Std Library Cache Cache.DirectRestoreTable

variable {buffers : DirectBufferPool} {descriptors : DirectDescriptorTable}

variable {stray : Prop}
variable {t t' : DirectRestoreTable} {id : Nat} {ticket : DirectRestoreTicket} {buffer : DirectBufferId}
  {slot : DirectBufferSlot} {request : RestoreCall}

section Unchanged

theorem Sound.retireSlots (sound : Sound stray t) (reserved : Reserved t.buffers buffers)
    (active : buffers.activeSlots = t.buffers.activeSlots) : Sound stray { t with buffers } := by
  refine Books.update sound {
    slots := fun i slot get used _ => reserved.keeps i slot get used
    levels := fun resource => ?_
    shaped := fun shaped => { shaped with slots := reserved.length_eq ▸ shaped.slots } }
  cases resource with
  | buffers => exact congrArg (· + 0) active
  | _ => rfl

theorem Sound.retireDescriptors (sound : Sound stray t)
    (keeps : Keeps t.descriptors descriptors) (length : descriptors.slots.length = t.descriptors.slots.length)
    (outstanding : descriptors.outstandingDescriptors = t.descriptors.outstandingDescriptors) :
    Sound stray { t with descriptors } := by
  refine Books.update sound {
    entries := fun i slot entry get held _ => keeps i slot get (by simp [held])
    levels := fun resource => ?_
    shaped := fun shaped => { shaped with descriptors := length.trans shaped.descriptors } }
  cases resource with
  | descriptors => exact congrArg (· + 0) outstanding
  | _ => rfl

end Unchanged

section Reserve

theorem Books.reserve (books : Books stray t id (some ticket)) (planned : ticket.state = .planned) (reserved : Reserved t.buffers buffers)
    (active : buffers.activeSlots = t.buffers.activeSlots + 1)
    (free : ∃ slot, t.buffers.slots[buffer.slot]? = some slot ∧ slot.state = .free) :
    Books stray { t with buffers } id (some { ticket with buffer := some buffer, state := .bufferReserved }) := by
  refine books.update {
    slots := fun i slot get used _ => reserved.keeps i slot get used
    levels := fun resource => ?_
    lease := fun new taken isOwn holds => .inr ?_
    shaped := fun shaped => { shaped with slots := reserved.length_eq ▸ shaped.slots } }
  · cases resource with
    | buffers =>
      show buffers.activeSlots + usage ticket .buffers = t.buffers.activeSlots + 1
      have unused : usage ticket .buffers = 0 := by rw [usage, planned]; rfl
      omega
    | _ => rfl
  · cases isOwn
    cases holds
    exact free

theorem reserveSlot_ends (steady : Steady stray t) : Action.Ends (onBuffers (DirectBufferPool.reserve .cpuRead)) t
      (fun buffer t' => ∃ buffers, t' = { t with buffers } ∧ Reserved t.buffers buffers ∧
        buffers.activeSlots = t.buffers.activeSlots + 1 ∧
        (∃ slot, Leased buffers buffer slot ∧ slot.state = .readQueued) ∧
        ∃ slot, t.buffers.slots[buffer.slot]? = some slot ∧ slot.state = .free)
      fun _ => Follows stray request t := by
  refine Action.Ends.within (reserve_ends .cpuRead steady.sound.shaped.slots) (fun _ buffers took => ⟨buffers, rfl, took⟩) ?_
  rintro _ buffers ⟨reserved, active⟩
  exact (steady.touched (steady.sound.retireSlots reserved active) (inner_buffers 0 t buffers).touches le_rfl).rests
    rfl rfl

theorem reserveBuffer_obeys (steady : Steady stray t) : Obeys stray (.reserveBuffer id) (reserveBuffer id) t := by
  have sound := steady.sound
  refine Action.Ends.reads (fun ticket isTicket => ?_) fun _ _ => steady.rest
  have found := okOr_eq_ok.mp isTicket
  refine Action.Ends.failIf (fun _ => steady.rest) fun accepted => ?_
  have planned : ticket.state = .planned := by
    by_contra other
    exact accepted (.inl other)
  refine Action.Ends.bind (reserveSlot_ends steady) ?_
  rintro buffer _ ⟨buffers, rfl, reserved, active, ⟨slot, leased, queued⟩, free⟩
  have books : Books stray t id (some ticket) := found ▸ sound.open id
  obtain ⟨t', ran, books', wrote⟩ := ticketMut_books (books.reserve planned reserved active free)
    (show _ = some ticket from found) fun ticket => { ticket with buffer := some buffer, state := .bufferReserved }
  have within := wrote.inner.after (inner_buffers id t buffers)
  refine Action.Ends.step ran ((books'.settle wrote.found within ?_).follows steady found (.reserved buffer planned))
  have each := sound.each found
  have phase := each.filed.phase
  rw [Phase, planned] at phase
  refine ⟨⟨?_, ?_, phase⟩, .inr ⟨by simp, buffer, slot, rfl, wrote.buffers_eq ▸ leased, queued⟩, ?_⟩
  · exact within.touches.config_eq ▸ { each.filed.papers with }
  · simpa [planned] using each.filed.idle
  · rw [within.descriptors_eq]
    refine .inl ⟨phase.1, phase.2.1, ?_⟩
    have spentTicket := each.tokens.spent phase.1 phase.2.1 phase.2.2
    exact ⟨spentTicket.originalToken, spentTicket.cancelToken⟩

end Reserve

section Submit

theorem trySubmit_original (sound : Sound stray t)
    (length : descriptors.slots.length = t.descriptors.slots.length)
    (outstanding : descriptors.outstandingDescriptors = t.descriptors.outstandingDescriptors + 1) :
    t.cq.trySubmit .original = .ok { t.cq with original := t.cq.original + 1 } := by
  have originals := sound.originals_le
  have cancels := sound.cancels_le
  have shaped := sound.shaped
  have capacity := shaped.cqCapacity
  have inside : descriptors.outstandingDescriptors ≤ descriptors.slots.length := List.countP_le_length
  have sized := shaped.descriptors
  have fits := shaped.cqFits
  have counts : checkedAdd 32 t.cq.original 1 = some (t.cq.original + 1) := if_pos (by omega)
  apply trySubmit_ok shaped
  · exact bind_eq_ok.mpr ⟨_, okOr_eq_ok.mpr counts, rfl⟩
  · exact shaped.fsync
  · show t.cq.original + 1 ≤ _
    omega
  · show t.cq.cancel ≤ _
    omega

def submitted (ticket : DirectRestoreTicket) (token : DirectCompletionToken) : DirectRestoreTicket :=
  { ticket with
    originalPending := true, originalToken := some token, hashState := .reserved, state := .readSubmitted }

theorem Books.submit (books : Books stray t id (some ticket)) (found : t.tickets[id]? = some ticket)
    (state : ticket.state = .bufferReserved) (original : ticket.originalPending = false)
    (cancel : ticket.cancelPending = false) (hash : ticket.hashState = .none) (held : ticket.buffer = some buffer)
    (leased : Leased t.buffers buffer slot) (queued : slot.state = .readQueued) (keeps : Keeps t.descriptors descriptors)
    (length : descriptors.slots.length = t.descriptors.slots.length)
    (outstanding : descriptors.outstandingDescriptors = t.descriptors.outstandingDescriptors + 1)
    (room : t.activeHashJobs + 1 ≤ t.config.maximumHashJobs.toNat) (running : t.checksumWorkersRetired = false)
    (token : DirectCompletionToken) :
    Books stray { t with
      descriptors
      cq := { t.cq with original := t.cq.original + 1 }
      buffers := t.buffers.setSlot buffer (moved slot .readInflight)
      tickets := t.tickets.insert id (submitted ticket token)
      activeHashJobs := t.activeHashJobs + 1 } id (some (submitted ticket token)) := by
  have active := activeSlots_setSlot leased (moved slot .readInflight)
  refine books.update {
    touches := ⟨rfl, rfl, rfl, rfl, (touches_insert t id _).tickets_eq⟩
    ids := fun _ _ => .inl ⟨ticket, found⟩
    few := .inl (size_insert_present found).le
    slots := fun _ _ get _ apart => (setSlot_of_ne t.buffers _ (apart ticket buffer rfl held).symm).trans get
    entries := fun i slot entry get held _ => keeps i slot get (by simp [held])
    levels := fun resource => ?_
    bounded := fun resource => ?_
    shaped := fun shaped => { shaped with
      slots := (List.length_set ..).trans_lt shaped.slots
      descriptors := length.trans shaped.descriptors }
    quiet := fun retired => by simp [running] at retired }
  · cases resource with
    | buffers =>
      show (t.buffers.setSlot buffer (moved slot .readInflight)).activeSlots + usage ticket .buffers =
        t.buffers.activeSlots + 1
      have holds : usage ticket .buffers = 1 := by rw [usage, state]; rfl
      rw [queued] at active
      change _ + 1 = _ + 1 at active
      omega
    | descriptors =>
      have free : usage ticket .descriptors = 0 := by simp [usage, original, cancel]
      have used : usage (submitted ticket token) .descriptors = 1 := by simp [usage, submitted]
      show descriptors.outstandingDescriptors + usage ticket .descriptors =
        t.descriptors.outstandingDescriptors + usage (submitted ticket token) .descriptors
      omega
    | originals =>
      have free : usage ticket .originals = 0 := by simp [usage, original]
      show t.cq.original + 1 + usage ticket .originals = t.cq.original + 1
      omega
    | hashes =>
      have free : usage ticket .hashes = 0 := by simp [usage, hash]
      show t.activeHashJobs + 1 + usage ticket .hashes = t.activeHashJobs + 1
      omega
    | _ => rfl
  · cases resource with
    | buffers | descriptors | originals => exact .inr fun _ none => by cases none
    | hashes =>
      refine .inr fun bound limited => ?_
      cases limited
      exact room
    | _ => exact .inl le_rfl

theorem allocateRead_ends (steady : Steady stray t) (id : Nat) (buffer : DirectBufferId) :
    Action.Ends (onDescriptors (DirectDescriptorTable.allocate (readBinding id buffer))) t
      (fun token t' => ∃ descriptors, t' = { t with descriptors } ∧ Keeps t.descriptors descriptors ∧
        descriptors.slots.length = t.descriptors.slots.length ∧
        descriptors.outstandingDescriptors = t.descriptors.outstandingDescriptors + 1 ∧
        ∃ place generation, token = .new place generation .original ∧
          Bound descriptors place generation ⟨readBinding id buffer, true, false⟩)
      fun e t' => e ≠ .cqWait ∧ Follows stray request t t' := by
  have shaped := steady.sound.shaped
  have small : t.descriptors.slots.length ≤ 2 ^ 31 := shaped.descriptors.trans_le shaped.capacity
  refine Action.Ends.within (allocate_ends _ small) (fun _ descriptors took => ⟨descriptors, rfl, took⟩) ?_
  rintro _ descriptors ⟨keeps, length, outstanding⟩
  have touches : Touches 0 t { t with descriptors } := ⟨rfl, rfl, rfl, rfl, fun _ _ => rfl⟩
  have touched := steady.touched (steady.sound.retireDescriptors keeps length outstanding) touches le_rfl
  exact ⟨nofun, touched.rests rfl rfl⟩

theorem submitRead_ends (id : Nat) (steady : Steady stray t) :
    Action.Ends (submitRead id) t (fun _ => Follows stray (.submitRead id) t)
      fun e t' => e ≠ .cqWait ∧ Follows stray (.submitRead id) t t' := by
  have sound := steady.sound
  refine Action.Ends.step rfl ?_
  refine Action.Ends.failIf (fun _ => ⟨nofun, steady.rest⟩) fun running => ?_
  have running := Bool.not_eq_true _ ▸ running
  refine Action.Ends.failIf (fun _ => ⟨nofun, steady.rest⟩) fun healthy => ?_
  have refused {α : Type} {value : Option α} {failure e : DirectRestoreError} (other : failure ≠ .cqWait)
      (error : okOr value failure = .error e) : e ≠ .cqWait ∧ Follows stray (.submitRead id) t t :=
    ⟨(okOr_eq_error.mp error).2 ▸ other, steady.rest⟩
  refine Action.Ends.reads (fun ticket isTicket => ?_) fun _ => refused nofun
  have found := okOr_eq_ok.mp isTicket
  refine Action.Ends.failIf (fun _ => ⟨nofun, steady.rest⟩) fun accepted => ?_
  simp only [not_or, not_not, Bool.not_eq_true] at accepted
  obtain ⟨state, original, cancel, hash⟩ := accepted
  refine Action.Ends.reads (fun jobs counted => ?_) fun _ => refused nofun
  have counted : jobs = t.activeHashJobs + 1 := checkedAdd_some (okOr_eq_ok.mp counted)
  refine Action.Ends.failIf (fun _ => ⟨nofun, steady.rest⟩) fun room => ?_
  have room : t.activeHashJobs + 1 ≤ t.config.maximumHashJobs.toNat := counted ▸ Nat.not_lt.mp room
  have each := sound.each found
  obtain ⟨buffer, slot, ⟨books, -, -, -, held, leased⟩, queued⟩ := sound.engaged found (by simp [state])
  rw [bufferPhase, state] at queued
  refine Action.Ends.step (Action.reads_ok (by rw [held]; rfl)) ?_
  refine Action.Ends.bind (allocateRead_ends steady id buffer) ?_
  rintro token _ ⟨descriptors, rfl, keeps, length, outstanding, place, generation, rfl, bound⟩
  have books' := books.submit found state original cancel hash held leased queued keeps length outstanding room running
    (.new place generation .original)
  have inflight : validTransition slot.state .readInflight = true := by rw [queued]; rfl
  have sound' := books'.close (by simp) <| by
    intro last same
    cases same
    have spentTicket := each.tokens.spent original cancel hash
    refine ⟨⟨{ each.filed.papers with }, ?_, rfl, cancel, rfl⟩,
      .inr ⟨by rintro ⟨⟩, buffer, moved slot .readInflight, held, leased.setSlot rfl, rfl⟩,
      .inr ⟨buffer, place, generation, held, .inl rfl, ?_, rfl, ?_⟩⟩
    · simpa [submitted, state] using each.filed.idle
    · show Bound descriptors place generation ⟨readBinding id buffer, true, ticket.cancelPending⟩
      rw [cancel]
      exact bound
    · show ticket.cancelToken = if ticket.cancelPending then _ else none
      rw [spentTicket.cancelToken, cancel]
      rfl
  have steady' : Steady stray _ := ⟨sound', fun failed => absurd failed healthy⟩
  refine Action.Ends.of_ok (a := ()) ?_ (steady'.moved
    (show Touches id t _ from ⟨rfl, rfl, rfl, rfl, (touches_insert t id _).tickets_eq⟩) ?_)
  rotate_left
  · rw [found, ExtTreeMap.getElem?_insert_self]
    exact .submitted _ state
  refine (Action.bind_ok (Action.attempt_ok (onCq_ok (trySubmit_original sound length outstanding)))).trans ?_
  refine (Action.bind_ok (Action.attempt_ok (onBuffers_ok (transition_ok (by exact leased) inflight)))).trans ?_
  refine (Action.bind_ok (ticketMut_ok (by exact found) _)).trans ?_
  rw [counted]
  rfl

theorem submitRead_obeys (steady : Steady stray t) : Obeys stray (.submitRead id) (submitRead id) t :=
  (submitRead_ends id steady).mono (fun _ _ follows => follows) fun _ _ => And.right

end Submit

section Copy

theorem Sound.writeBytes (sound : Sound stray t) (found : t.tickets[id]? = some ticket) (used : ticket.state ≠ .planned)
    (held : ticket.buffer = some buffer) (leased : Leased t.buffers buffer slot)
    (state : slot.state = bufferPhase ticket) (bytes : DirectExtentBuffer) :
    Settled stray id (some ticket) t { t with buffers := t.buffers.setSlot buffer { slot with bytes } } := by
  have each := sound.each found
  have books : Books stray t id (some ticket) := found ▸ sound.open id
  refine (books.setBuffer held leased { slot with bytes } ticket.state (Nat.add_comm _ _ ▸ rfl)).settle found
    (inner_buffers id t _) ⟨each.filed, ?_, each.tokens⟩
  exact .inr ⟨used, buffer, { slot with bytes }, held, leased.setSlot rfl, state⟩

theorem copyIntoReadDestination_ends (sound : Sound stray t) (offset : Nat) (source : List UInt8) :
    Action.Ends (copyIntoReadDestination id offset source) t
      (fun _ t' => ∃ ticket buffer slot bytes, t.tickets[id]? = some ticket ∧ ticket.state = .readSubmitted ∧
        ticket.buffer = some buffer ∧ Leased t.buffers buffer slot ∧ slot.state = bufferPhase ticket ∧
        t' = { t with buffers := t.buffers.setSlot buffer { slot with bytes } })
      fun _ t' => t' = t := by
  refine Action.Ends.reads (fun ticket isTicket => ?_) fun _ _ => rfl
  have found := okOr_eq_ok.mp isTicket
  refine Action.Ends.failIf (fun _ => rfl) fun accepted => ?_
  have submitted : ticket.state = .readSubmitted := by
    by_contra other
    exact accepted (.inl other)
  obtain ⟨buffer, slot, ⟨-, -, -, -, held, leased⟩, state⟩ := sound.engaged found (by simp [submitted])
  refine Action.Ends.step (Action.reads_ok (by rw [held]; rfl)) ?_
  refine Action.Ends.reads (fun stop _ => ?_) fun _ _ => rfl
  refine Action.Ends.failIf (fun _ => rfl) fun _ => ?_
  have inflight : slot.state.isActive = true := by rw [state, bufferPhase, submitted]; rfl
  refine Action.Ends.of_ok (onBuffers_ok (a := ()) (Action.updates_ok ?_))
    ⟨ticket, buffer, slot, { slot.bytes with bytes := overwrite offset source slot.bytes.bytes }, found, submitted, held,
      leased, state, rfl⟩
  refine bind_eq_ok.mpr ⟨slot, leased.slot_ok, ?_⟩
  exact if_neg (by rw [inflight]; decide)

theorem copyIntoReadDestination_obeys (steady : Steady stray t) (offset : Nat) (source : List UInt8) :
    Obeys stray (.copyIntoReadDestination id offset source) (copyIntoReadDestination id offset source) t := by
  refine (copyIntoReadDestination_ends steady.sound offset source).mono ?_ ?_
  · rintro _ _ ⟨ticket, buffer, slot, bytes, found, submitted, held, leased, state, rfl⟩
    exact (steady.sound.writeBytes found (by simp [submitted]) held leased state bytes).follows steady found (.same _ _)
  · rintro _ _ rfl
    exact steady.rest

end Copy

end Glmaxx.Proof.Restore
