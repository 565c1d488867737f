import Glmaxx.Proof.Restore.Course

namespace Glmaxx.Proof.Restore
open Std Library Cache Cache.DirectRestoreTable

variable {stray : Prop}
variable {t t' : DirectRestoreTable} {id : Nat} {ticket : DirectRestoreTicket} {buffer : DirectBufferId}
  {slot : DirectBufferSlot}

def Working (ticket : DirectRestoreTicket) : Prop := ticket.hashState = .queued ∨ ticket.hashState = .running

theorem Phase.hashable (phase : Phase stray ticket) (working : Working ticket) : DirectRestoreTable.Hashable ticket := by
  unfold Phase at phase
  cases state : ticket.state with
  | dataReady =>
    rw [state] at phase
    exact ⟨.inl state, phase.1, phase.2.1⟩
  | abandoned =>
    rw [state] at phase
    rcases phase with ⟨reserved, _⟩ | ⟨_, reaped⟩
    · simp [Working, reserved] at working
    · exact ⟨.inr state, reaped⟩
  | planned | bufferReserved | readSubmitted | hashVerified | failed =>
    rw [state] at phase
    simp [Working, phase.2.2] at working

theorem phase_of_hashable (hashable : DirectRestoreTable.Hashable ticket) (working : Working ticket) : Phase stray ticket := by
  obtain ⟨state | state, original, cancel⟩ := hashable
  · rw [Phase, state]
    exact ⟨original, cancel, working⟩
  · rw [Phase, state]
    exact .inr ⟨working, original, cancel⟩

theorem bufferPhase_of_hashable (hashable : DirectRestoreTable.Hashable ticket) (working : Working ticket) :
    bufferPhase ticket = .hashingForRead := by
  obtain ⟨state | state, _⟩ := hashable
  · rw [bufferPhase, state]
  · rw [bufferPhase, state]
    exact if_neg (by rcases working with same | same <;> simp [same])

theorem Phase.active (phase : Phase stray ticket) (hash : ticket.hashState ≠ .none) :
    (bufferPhase ticket).isActive = true ∧ holdsBuffer ticket.state = true := by
  unfold Phase at phase
  unfold bufferPhase
  cases state : ticket.state with
  | abandoned =>
    refine ⟨?_, rfl⟩
    dsimp only
    split <;> rfl
  | readSubmitted | dataReady => exact ⟨rfl, rfl⟩
  | planned | bufferReserved | hashVerified | failed =>
    rw [state] at phase
    exact absurd phase.2.2 hash

theorem failHashing_ok (sound : Sound stray t) (found : t.tickets[id]? = some ticket)
    (hash : ticket.hashState ≠ .none) (strays : ticket.originalPending = true → stray) :
    ∃ t', failTicket id t = (.ok (), t') ∧
      Settled stray id (if ticket.originalPending ∨ ticket.cancelPending then some (failedTicket ticket) else none)
        t t' := by
  obtain ⟨active, holds⟩ := (sound.each found).filed.phase.active hash
  have used : ticket.state ≠ .planned := by
    intro planned
    rw [planned] at holds
    cases holds
  obtain ⟨buffer, slot, engaged, state⟩ := sound.engaged found used
  exact failTicket_ok engaged (state ▸ active) holds strays

section Jobs

section
variable (sound : Sound stray t) (found : t.tickets[id]? = some ticket)
include sound found

theorem setHashState_ok (working : Working ticket)
    {next : DirectHashState} (follows : next = .queued ∨ next = .running) :
    ∃ t', setHashState id next t = (.ok (), t') ∧ Settled stray id (some { ticket with hashState := next }) t t' := by
  have each := sound.each found
  have hashable := each.filed.phase.hashable working
  have books : Books stray t id (some ticket) := found ▸ sound.open id
  have counted : usage ticket .hashes = usage { ticket with hashState := next } .hashes := by
    rcases working with same | same <;> rcases follows with rfl | rfl <;> simp [usage, same]
  obtain ⟨t', ran, books', wrote⟩ := ticketMut_books
    (books.setHashes next t.activeHashJobs (congrArg _ counted) le_rfl) found
    fun ticket => { ticket with hashState := next }
  refine ⟨t', ran, books'.settle wrote.found wrote.inner ?_⟩
  have after : DirectRestoreTable.Hashable { ticket with hashState := next } := hashable
  have papers := each.filed.papers
  refine ⟨⟨wrote.inner.touches.config_eq ▸ { papers with }, each.filed.idle,
    phase_of_hashable after follows⟩, ?_, ?_⟩
  · rcases each.leases with ⟨planned, none⟩ | ⟨used, buffer, slot, held, leased, state⟩
    · exact .inl ⟨planned, none⟩
    · refine .inr ⟨used, buffer, slot, held, wrote.buffers_eq ▸ leased, ?_⟩
      rw [state, bufferPhase_of_hashable hashable working, bufferPhase_of_hashable after follows]
  · rw [wrote.inner.descriptors_eq]
    exact each.tokens

theorem hashJob_ok (working : Working ticket) :
    ∃ buffer slot, Engaged stray t id ticket buffer slot ∧ slot.state = .hashingForRead ∧
      hashJob id ticket t = (.ok ⟨id, buffer⟩, t) := by
  have hashable := (sound.each found).filed.phase.hashable working
  have used : ticket.state ≠ .planned := by
    rcases hashable.1 with state | state <;> simp [state]
  obtain ⟨buffer, slot, engaged, state⟩ := sound.engaged found used
  refine ⟨buffer, slot, engaged, state.trans (bufferPhase_of_hashable hashable working), ?_⟩
  refine (Action.bind_ok (Action.failIf_neg (not_not.mpr hashable))).trans ?_
  exact Action.bind_ok (Action.reads_ok (by rw [engaged.held]; rfl))

theorem runningJob_ok (queued : ticket.hashState = .queued) :
    ∃ job t', runningJob id ticket t = (.ok (some job), t') ∧
      Settled stray id (some { ticket with hashState := .running }) t t' := by
  obtain ⟨buffer, _, _, _, job⟩ := hashJob_ok sound found (.inl queued)
  obtain ⟨t', ran, settled⟩ := setHashState_ok sound found (.inl queued) (.inr rfl)
  refine ⟨⟨id, buffer⟩, t', ?_, settled⟩
  refine (Action.bind_ok job).trans ?_
  exact Action.bind_ok ran

/-- Up to `try_send`, a dispatched ticket is marked as running. -/
theorem dispatchChecksum_run (queued : ticket.hashState = .queued) (answer : TrySend) :
    ∃ buffer t', dispatchChecksum id ticket answer t = sendJob ⟨id, buffer⟩ answer t' ∧
      Settled stray id (some { ticket with hashState := .running }) t t' := by
  obtain ⟨buffer, slot, engaged, state, job⟩ := hashJob_ok sound found (.inl queued)
  obtain ⟨t', ran, settled⟩ := setHashState_ok sound found (.inl queued) (.inr rfl)
  refine ⟨buffer, t', ?_, settled⟩
  have hashes : t.buffers.hashBuffer buffer = .ok slot.bytes := by
    refine bind_eq_ok.mpr ⟨slot, engaged.leased.slot_ok, ?_⟩
    exact if_neg (not_not.mpr state)
  refine (Action.bind_ok job).trans ?_
  refine (Action.bind_ok (Action.reads_ok (by rw [hashes]; rfl))).trans ?_
  exact Action.bind_ok ran

end

theorem firstQueued_found {entry : DirectRestoreTicketId × DirectRestoreTicket}
    (first : t.firstQueued = some entry) :
    t.tickets[entry.1]? = some entry.2 ∧ entry.2.hashState = .queued := by
  have member := List.mem_of_find?_eq_some first
  have queued := List.find?_some first
  exact ⟨mem_toList_iff.mp member, by simpa using queued⟩

end Jobs

section Finish

def afterHash (ticket : DirectRestoreTicket) : Option DirectRestoreTicket :=
  if ticket.state = .abandoned then none else some { ticket with state := .hashVerified, hashState := .none }

theorem finishHash_ok (sound : Sound stray t) (found : t.tickets[id]? = some ticket) (working : Working ticket)
    (held : ticket.buffer = some buffer) :
    ∃ t', finishHash id ticket.state buffer t = (.ok (), t') ∧ Settled stray id (afterHash ticket) t t' := by
  have each := sound.each found
  have hashable := each.filed.phase.hashable working
  have papers := each.filed.papers
  obtain ⟨_, slot, ⟨books, -, -, -, same, leased⟩, state, _⟩ := hashJob_ok sound found working
  cases held.symm.trans same
  have holds : holdsBuffer ticket.state = true := by
    rcases hashable.1 with same | same <;> rw [same] <;> rfl
  obtain ⟨t₁, moves, books₁, inner₁, tickets₁, leased₁⟩ := transition_books books held leased
    .hostReady (by rw [state]; rfl) .hashVerified (by rw [state, holds]; rfl)
  have found₁ : t₁.tickets[id]? = some ticket := tickets₁ ▸ found
  obtain ⟨t₂, released, books₂, wrote₂⟩ := releaseHashJob_ok books₁ found₁ rfl
  have inner₂ := inner₁.trans wrote₂.inner
  have leased₂ : Leased t₂.buffers buffer (moved slot .hostReady) := wrote₂.buffers_eq ▸ leased₁
  have start : finishHash id ticket.state buffer t = _ :=
    (Action.bind_ok moves).trans (Action.bind_ok released)
  rw [start]
  unfold afterHash
  by_cases abandoned : ticket.state = .abandoned
  · rw [if_pos abandoned, if_pos abandoned]
    obtain ⟨t₃, freed, books₃, inner₃, tickets₃, _⟩ :=
      transition_books books₂ held leased₂ .free rfl .planned rfl
    have found₃ : t₃.tickets[id]? = some { ticket with hashState := .none } := tickets₃ ▸ wrote₂.found
    have tokens : Tokens t.descriptors id { ticket with hashState := .none } := each.tokens
    obtain ⟨t₄, removes, settled⟩ :=
      removeTicket_ok .planned found₃ books₃ (tokens.spent hashable.2.1 hashable.2.2 rfl) rfl
    exact ⟨t₄, (Action.bind_ok freed).trans removes, settled.after (inner₂.trans inner₃)⟩
  · rw [if_neg abandoned, if_neg abandoned]
    obtain ⟨t₃, marked, books₃, wrote₃⟩ := ticketMut_books books₂ wrote₂.found
      fun ticket => { ticket with state := .hashVerified }
    have inner₃ := inner₂.trans wrote₃.inner
    refine ⟨t₃, marked, books₃.settle wrote₃.found inner₃ ?_⟩
    refine ⟨⟨inner₃.touches.config_eq ▸ { papers with }, ?_,
      hashable.2.1, hashable.2.2, rfl⟩, .inr ⟨nofun, ?_⟩, ?_⟩
    · have ready : ticket.state = .dataReady := hashable.1.resolve_right abandoned
      simpa [ready] using each.filed.idle
    · exact ⟨buffer, moved slot .hostReady, held, wrote₃.buffers_eq ▸ leased₂, rfl⟩
    · rw [inner₃.descriptors_eq]
      exact each.tokens

theorem deliver_ok (sound : Sound stray t) (found : t.tickets[id]? = some ticket)
    (verified : ticket.state = .hashVerified) :
    ∃ t', finishCpuDelivery id t = (.ok ticket.waiters.keys, t') ∧ Settled stray id none t t' := by
  have phase := (sound.each found).filed.phase
  rw [Phase, verified] at phase
  obtain ⟨original, cancel, hash⟩ := phase
  obtain ⟨buffer, slot, engaged, state⟩ := sound.engaged found (by simp [verified])
  have ready : slot.state = .hostReady := by rw [state, bufferPhase, verified]
  obtain ⟨t', ran, settled⟩ := releaseTicket_ok engaged (by rw [ready]; rfl) (by rw [verified]; rfl)
    (by rw [ready]; rfl) (engaged.tokens.spent original cancel hash)
  refine ⟨t', ?_, settled⟩
  refine (Action.bind_ok (ticket_ok found)).trans ?_
  refine (Action.bind_ok (Action.failIf_neg (by simp [verified, original, cancel, hash]))).trans ?_
  exact Action.bind_ok ran

end Finish

end Glmaxx.Proof.Restore
