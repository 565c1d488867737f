import Glmaxx.Proof.Restore.Hashing
import Glmaxx.Proof.Restore.Completion

namespace Glmaxx.Proof.Restore
open Std Library Cache Cache.DirectRestoreTable

variable {stray : Prop}
variable {t t' : DirectRestoreTable} {id : Nat} {ticket : DirectRestoreTicket} {buffer : DirectBufferId}
  {slot : DirectBufferSlot}

section Burden

def hashBurden : DirectHashState → Nat
  | .none | .reserved => 0
  | .queued => 2
  | .running => 1

def burden (ticket : DirectRestoreTicket) : Nat :=
  1 + (if ticket.originalPending then 3 else 0) + (if ticket.cancelPending then 1 else 0) +
    hashBurden ticket.hashState + 2 * ticket.waiters.size

def burdenOf (ticket : Option DirectRestoreTicket) : Nat := ticket.elim 0 burden

/-- A step on behalf of ticket `id` after which less than `bound` is left to do for it. -/
structure Advances (stray : Prop) (id bound : Nat) (t t' : DirectRestoreTable) : Prop where
  sound : Sound stray t'
  touches : Touches id t t'
  hashes_le : t'.activeHashJobs ≤ t.activeHashJobs
  lighter : burdenOf t'.tickets[id]? < bound

theorem Settled.advances {left : Option DirectRestoreTicket} {bound : Nat} (settled : Settled stray id left t t')
    (lighter : burdenOf left < bound) : Advances stray id bound t t' :=
  ⟨settled.sound, settled.inner.touches, settled.inner.hashes_le, settled.found ▸ lighter⟩

theorem Advances.after {bound : Nat} {t'' : DirectRestoreTable} (advances : Advances stray id bound t' t'')
    (first : Inner id t t') : Advances stray id bound t t'' :=
  ⟨advances.sound, first.touches.trans advances.touches, advances.hashes_le.trans first.hashes_le,
    advances.lighter⟩

theorem Steady.advances {bound : Nat} (steady : Steady stray t) (advances : Advances stray id bound t t') : Steady stray t' :=
  steady.touched advances.sound advances.touches advances.hashes_le

end Burden

section Abandon

theorem Books.setState (books : Books stray t id (some ticket)) (state : DirectRestoreState)
    (same : holdsBuffer state = holdsBuffer ticket.state) : Books stray t id (some { ticket with state }) := by
  refine books.update { levels := fun resource => ?_ }
  cases resource with
  | buffers =>
    show _ + usage ticket .buffers = _ + usage { ticket with state } .buffers
    simp only [usage, same]
  | _ => rfl

theorem abandon_ok (books : Books stray t id (some ticket)) (found : t.tickets[id]? = some ticket)
    (papers : Papers t.config ticket) (alone : ticket.waiters.isEmpty = true) (phase : Phase stray ticket)
    (leases : Leases t.buffers ticket) (tokens : Tokens t.descriptors id ticket)
    (busy : ticket.state = .readSubmitted ∨ ticket.state = .dataReady) :
    ∃ t', ticketMut id (fun ticket => { ticket with state := .abandoned }) t = (.ok (), t') ∧
      Settled stray id (some { ticket with state := .abandoned }) t t' := by
  have holds : holdsBuffer .abandoned = holdsBuffer ticket.state := by
    rcases busy with same | same <;> rw [same] <;> rfl
  obtain ⟨t', ran, books', wrote⟩ := ticketMut_books (books.setState .abandoned holds) found
    fun ticket => { ticket with state := .abandoned }
  refine ⟨t', ran, books'.settle wrote.found wrote.inner ⟨⟨?_, ?_, ?_⟩, ?_, ?_⟩⟩
  · exact wrote.inner.touches.config_eq ▸ { papers with }
  · simp [alone]
  · unfold Phase at phase ⊢
    rcases busy with same | same
    · rw [same] at phase
      exact .inl ⟨phase.2.2, .inl phase.1⟩
    · rw [same] at phase
      exact .inr ⟨phase.2.2, phase.1, phase.2.1⟩
  · rcases leases with ⟨planned, _⟩ | ⟨_, buffer, slot, held, leased, state⟩
    · rcases busy with same | same <;> rw [same] at planned <;> cases planned
    · refine .inr ⟨nofun, buffer, slot, held, wrote.buffers_eq ▸ leased, ?_⟩
      rw [state]
      unfold Phase at phase
      unfold bufferPhase
      rcases busy with same | same
      · rw [same] at phase ⊢
        exact (if_pos phase.2.2).symm
      · rw [same] at phase ⊢
        exact (if_neg (by rcases phase.2.2 with hash | hash <;> simp [hash])).symm
  · rw [wrote.inner.descriptors_eq]
    exact tokens

end Abandon

section AsyncCancel

def cancelling (ticket : DirectRestoreTicket) (token : DirectCompletionToken) : DirectRestoreTicket :=
  { ticket with cancelPending := true, cancelToken := some token }

theorem Books.bindCancel (books : Books stray t id (some ticket)) (found : t.tickets[id]? = some ticket)
    (original : ticket.originalPending = true) (cancel : ticket.cancelPending = false) {place generation : Nat}
    {retired : Bool} {binding : DirectDescriptorBinding} (mine : binding.operationGeneration = id)
    (get : t.descriptors.slots[place]? = some ⟨generation, retired, some ⟨binding, true, false⟩⟩)
    (token : DirectCompletionToken) :
    Books stray { t with
      cq := { t.cq with cancel := t.cq.cancel + 1 }
      descriptors := withEntry t.descriptors place generation retired (some ⟨binding, true, true⟩)
      tickets := t.tickets.insert id (cancelling ticket token) } id (some (cancelling ticket token)) := by
  have outstanding := outstanding_withEntry get (some ⟨binding, true, true⟩)
  refine books.update {
    touches := ⟨rfl, rfl, rfl, rfl, (touches_insert t id _).tickets_eq⟩
    ids := fun _ _ => .inl ⟨ticket, found⟩
    few := .inl (size_insert_present found).le
    entries := Bound.keepsEntries get mine _
    levels := fun resource => ?_
    shaped := fun shaped => { shaped with descriptors := (List.length_set ..).trans shaped.descriptors } }
  cases resource with
  | descriptors =>
    have before : usage ticket .descriptors = 1 := by simp [usage, original]
    have after : usage (cancelling ticket token) .descriptors = 1 := by simp [usage, cancelling]
    show _ + usage ticket .descriptors = _ + usage (cancelling ticket token) .descriptors
    rw [before, after]
    exact outstanding
  | cancels =>
    have before : usage ticket .cancels = 0 := by simp [usage, cancel]
    show t.cq.cancel + 1 + usage ticket .cancels = t.cq.cancel + 1
    omega
  | _ => rfl

theorem submitAsyncCancel_advances (sound : Sound stray t) (found : t.tickets[id]? = some ticket)
    (abandoned : ticket.state = .abandoned) (original : ticket.originalPending = true)
    (cancel : ticket.cancelPending = false) :
    ∃ t', submitAsyncCancel id t = (.ok .asyncCancelSubmitted, t') ∧ Advances stray id (burden ticket + 2) t t' ∧
      Dead t'.tickets[id]? := by
  have each := sound.each found
  have books : Books stray t id (some ticket) := found ▸ sound.open id
  have pending : pendingOf ticket .original = true := original
  obtain ⟨buffer, place, generation, held, isToken, bound, originalToken, _⟩ := each.tokens.bound pending
  rw [original, cancel] at bound
  obtain ⟨retired, get, issues⟩ := issueCancel_ok bound rfl rfl
  have inside := (List.getElem?_eq_some_iff.mp get).1
  have sound' := (books.bindCancel found original cancel rfl get (.new place generation .asyncCancel)).close
    (by simp) <| by
    intro last same
    cases same
    refine ⟨⟨{ each.filed.papers with }, each.filed.idle, ?_⟩, each.leases,
      .inr ⟨buffer, place, generation, held, .inr rfl, ⟨bound.inSlot, bound.positive, bound.inGeneration,
        retired, ?_⟩, originalToken, rfl⟩⟩
    · have reserved := (each.filed.phase.original original (by simp [abandoned])).1
      unfold Phase
      rw [show (cancelling ticket _).state = _ from abandoned]
      exact .inl ⟨reserved, .inr rfl⟩
    · rw [show (cancelling ticket _).originalPending = true from original]
      exact List.getElem?_set_self inside
  -- the cancellation counted, the queue still holds at most one of each kind for every descriptor
  have submits : t.cq.trySubmit .asyncCancel = .ok { t.cq with cancel := t.cq.cancel + 1 } := by
    have shaped := sound.shaped
    have sized := sound'.shaped.descriptors
    have originals : t.cq.original ≤ t.config.descriptorCapacity.toNat :=
      (sound'.originals_le.trans List.countP_le_length).trans_eq sized
    have cancels : t.cq.cancel + 1 ≤ t.config.descriptorCapacity.toNat :=
      (sound'.cancels_le.trans List.countP_le_length).trans_eq sized
    have fits := shaped.cqFits
    have counts : checkedAdd 32 t.cq.cancel 1 = some (t.cq.cancel + 1) := if_pos (by omega)
    apply trySubmit_ok shaped
    · exact bind_eq_ok.mpr ⟨_, okOr_eq_ok.mpr counts, rfl⟩
    · exact shaped.fsync
    · exact originals
    · exact cancels
  refine ⟨_, ?_, ⟨sound', ⟨rfl, rfl, rfl, rfl, (touches_insert t id _).tickets_eq⟩, le_rfl, ?_⟩, ?_⟩
  · refine (Action.bind_ok (Action.attempt_ok (onCq_ok submits))).trans ?_
    refine (Action.bind_ok (ticket_ok (by exact found))).trans ?_
    refine (Action.bind_ok (Action.reads_ok (by exact okOr_eq_ok.mpr isToken))).trans ?_
    refine (Action.bind_ok (Action.attempt_ok (onDescriptors_ok (by exact issues)))).trans ?_
    exact Action.bind_ok (ticketMut_ok (by exact found) _)
  · simp only [burdenOf, ExtTreeMap.getElem?_insert_self, Option.elim_some, burden, cancelling, cancel, if_true,
      Bool.false_eq_true, if_false]
    omega
  · rw [ExtTreeMap.getElem?_insert_self]
    exact .state (.inl abandoned)

end AsyncCancel

section Waiter
variable {request : Nat} {waiter : DirectRestoreWaiter}

theorem cancelLast_advances (books : Books stray t id (some ticket)) (found : t.tickets[id]? = some ticket)
    (papers : Papers t.config ticket) (alone : ticket.waiters.isEmpty = true) (phase : Phase stray ticket)
    (leases : Leases t.buffers ticket) (tokens : Tokens t.descriptors id ticket)
    (waited : ¬(ticket.state = .abandoned ∨ ticket.state = .failed)) (supported : Bool) :
    ∃ cancellation t', cancelLast id ticket.buffer supported ticket.state t = (.ok cancellation, t') ∧
      Advances stray id (burden ticket + 2) t t' ∧
      (supported = true → cancellation ≠ .abandonedWithoutAsyncCancel) ∧ Dead t'.tickets[id]? := by
  have gone : burdenOf none < burden ticket + 2 := Nat.succ_pos _
  have stays (state : DirectRestoreState) : burdenOf (some { ticket with state }) < burden ticket + 2 :=
    Nat.lt_add_of_pos_right (by decide)
  have release (holds : holdsBuffer ticket.state = true) (used : ticket.state ≠ .planned)
      (active : (bufferPhase ticket).isActive = true) (frees : validTransition (bufferPhase ticket) .free = true)
      (idle : ticket.originalPending = false ∧ ticket.cancelPending = false ∧ ticket.hashState = .none) :
      ∃ t', releaseTicket id ticket.buffer t = (.ok (), t') ∧ Settled stray id none t t' := by
    obtain ⟨buffer, slot, held, leased, state⟩ := (leases.resolve_left fun planned => used planned.1).2
    exact releaseTicket_ok ⟨books, found, papers, tokens, held, leased⟩ (state ▸ active) holds (state ▸ frees)
      (tokens.spent idle.1 idle.2.1 idle.2.2)
  have abandon := abandon_ok books found papers alone phase leases tokens
  cases state : ticket.state with
  | planned =>
    rw [Phase, state] at phase
    obtain ⟨t', ran, settled⟩ := removeTicket_ok ticket.state found books (tokens.spent phase.1 phase.2.1 phase.2.2)
      (by rw [state]; rfl)
    exact ⟨_, t', Action.bind_ok ran, settled.advances gone, by simp, settled.found ▸ .none⟩
  | bufferReserved | hashVerified =>
    have idle := phase
    rw [Phase, state] at idle
    obtain ⟨t', ran, settled⟩ := release (by rw [state]; rfl) (by simp [state])
      (by rw [bufferPhase, state]; rfl) (by rw [bufferPhase, state]; rfl) idle
    exact ⟨_, t', Action.bind_ok ran, settled.advances gone, by simp, settled.found ▸ .none⟩
  | dataReady =>
    obtain ⟨t', ran, settled⟩ := abandon (.inr state)
    exact ⟨_, t', Action.bind_ok ran, settled.advances (stays .abandoned), by simp, settled.found ▸ .state (.inl rfl)⟩
  | readSubmitted =>
    rw [Phase, state] at phase
    obtain ⟨t₁, ran, settled⟩ := abandon (.inl state)
    have start : cancelLast id ticket.buffer supported .readSubmitted t = _ := Action.bind_ok ran
    rw [start]
    cases supported with
    | false => exact ⟨_, t₁, rfl, settled.advances (stays .abandoned), by simp, settled.found ▸ .state (.inl rfl)⟩
    | true =>
      obtain ⟨t', submits, advances, dead⟩ :=
        submitAsyncCancel_advances settled.sound settled.found rfl phase.1 phase.2.1
      exact ⟨_, t', submits, advances.after settled.inner, by simp, dead⟩
  | abandoned => exact absurd (.inl state) waited
  | failed => exact absurd (.inr state) waited

theorem Papers.leave {config : DirectRestoreConfig} (papers : Papers config ticket)
    (found : ticket.waiters[request]? = some waiter) :
    Papers config { ticket with waiters := ticket.waiters.erase request } := by
  refine { papers with crowd := ?_, waiter := fun other held present => ?_ }
  · have smaller := size_erase_of_getElem? found
    have crowd := papers.crowd
    show (ticket.waiters.erase request).size ≤ _
    omega
  · change (ticket.waiters.erase request)[other]? = _ at present
    rw [ExtTreeMap.getElem?_erase] at present
    split at present
    · cases present
    · exact papers.waiter other held present

theorem cancelWaiter_advances (sound : Sound stray t) (filed : t.requestToTicket[request]? = some id) (supported : Bool) :
    ∃ ticket cancellation t', t.tickets[id]? = some ticket ∧
      cancelWaiter request supported t = (.ok cancellation, t') ∧ Advances stray id (burden ticket) t t' ∧
      (supported = true → cancellation ≠ .abandonedWithoutAsyncCancel) ∧
      (Dead t'.tickets[id]? ∨ t'.tickets[id]? = some { ticket with waiters := ticket.waiters.erase request }) := by
  obtain ⟨ticket, found, waiting⟩ := (sound.requests request id).mp filed
  rw [sound.ledger_eq] at found
  obtain ⟨waiter, held⟩ := Option.isSome_iff_exists.mp (ExtTreeMap.mem_iff_isSome_getElem?.mp waiting)
  have each := sound.each found
  have books : Books stray t id (some ticket) := found ▸ sound.open id
  have waited : ¬(ticket.state = .abandoned ∨ ticket.state = .failed) := by
    intro done
    have empty := ExtTreeMap.isEmpty_iff.mp (each.filed.idle.mpr done)
    rw [empty] at held
    simp at held
  obtain ⟨t₁, writes, books₁, wrote⟩ := ticketMut_books (books.dropRequest held) (by exact found)
    fun ticket => { ticket with waiters := ticket.waiters.erase request }
  have inner : Inner id t t₁ := wrote.inner.after ⟨⟨rfl, rfl, rfl, rfl, fun _ _ => rfl⟩, rfl, rfl, le_rfl⟩
  have papers : Papers t₁.config _ := inner.touches.config_eq ▸ each.filed.papers.leave held
  have leases : Leases t₁.buffers { ticket with waiters := ticket.waiters.erase request } :=
    wrote.buffers_eq ▸ each.leases
  have tokens : Tokens t₁.descriptors id { ticket with waiters := ticket.waiters.erase request } :=
    inner.descriptors_eq ▸ each.tokens
  have smaller := size_erase_of_getElem? held
  have lighter : burden ticket = burden { ticket with waiters := ticket.waiters.erase request } + 2 := by
    simp only [burden]
    omega
  have start : cancelWaiter request supported t =
      (if (ticket.waiters.erase request).isEmpty then cancelLast id ticket.buffer supported ticket.state
        else pure .waiterRemoved) t₁ := by
    refine (Action.bind_ok (Action.reads_ok (by exact okOr_eq_ok.mpr filed))).trans ?_
    refine (Action.bind_ok (ticket_ok found)).trans ?_
    refine (Action.bind_ok (Action.reads_ok (by exact okOr_eq_ok.mpr held))).trans ?_
    refine (Action.bind_ok (unchargeTenant_ok (books.charge_le held) (logicalBytes_pos _))).trans ?_
    refine (Action.bind_ok rfl).trans ?_
    exact (Action.bind_ok writes).trans (Action.bind_ok (ticket_ok wrote.found))
  rw [start]
  by_cases empty : (ticket.waiters.erase request).isEmpty = true
  · obtain ⟨cancellation, t', ran, advances, queued, dead⟩ := cancelLast_advances books₁ wrote.found papers empty each.filed.phase
      leases tokens waited supported
    exact ⟨ticket, cancellation, t', found, by rw [if_pos empty]; exact ran, lighter ▸ advances.after inner, queued,
      .inl dead⟩
  · have settled := books₁.settle wrote.found inner
      ⟨⟨papers, by simpa [waited] using empty, each.filed.phase⟩, leases, tokens⟩
    refine ⟨ticket, .waiterRemoved, t₁, found, by rw [if_neg empty]; rfl, settled.advances ?_, nofun,
      .inr settled.found⟩
    show burden _ < burden ticket
    omega

theorem cancelWaiter_obeys (steady : Steady stray t) (supported : Bool) :
    Obeys stray (.cancelWaiter request supported) (cancelWaiter request supported) t := by
  cases filed : t.requestToTicket[request]? with
  | none =>
    refine Action.Ends.reads (fun id isTicket => ?_) fun _ _ => steady.rest
    rw [filed] at isTicket
    cases isTicket
  | some id =>
    obtain ⟨ticket, cancellation, t', found, ran, advances, _, left⟩ := cancelWaiter_advances steady.sound filed supported
    refine Action.Ends.of_ok ran ((steady.advances advances).moved advances.touches ?_)
    rw [found]
    rcases left with dead | left
    · exact .ends _ dead
    · rw [left]
      exact .left request supported ticket

end Waiter

end Glmaxx.Proof.Restore
