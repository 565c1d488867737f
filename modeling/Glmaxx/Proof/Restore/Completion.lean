import Glmaxx.Proof.Restore.Reaping

namespace Glmaxx.Proof.Restore
open Std Library Cache Cache.DirectRestoreTable

variable {stray : Prop}
variable {t t' : DirectRestoreTable} {id : Nat} {ticket : DirectRestoreTicket} {buffer : DirectBufferId}
  {slot : DirectBufferSlot} {kind : DirectCompletionKind}

theorem Phase.original (phase : Phase stray ticket) (pending : ticket.originalPending = true)
    (live : ticket.state ≠ .failed) :
    ticket.hashState = .reserved ∧
      (ticket.state = .readSubmitted ∧ ticket.cancelPending = false ∨ ticket.state = .abandoned) := by
  unfold Phase at phase
  cases state : ticket.state <;> simp_all

theorem Phase.live (phase : Phase False ticket) (pending : ticket.originalPending = true) : ticket.state ≠ .failed := by
  intro failed
  rw [Phase, failed] at phase
  exact phase.1 pending

theorem Phase.cancel (phase : Phase stray ticket) (pending : ticket.cancelPending = true) :
    ticket.state = .abandoned ∧ ticket.hashState = .reserved ∨
      ticket.state = .failed ∧ (ticket.originalPending = true → stray) ∧ ticket.hashState = .none := by
  unfold Phase at phase
  cases state : ticket.state <;> simp_all

/-- A completion arrived: it is off the books, and `left` is what it leaves of the ticket. -/
structure Completed (stray : Prop) (kind : DirectCompletionKind) (id : Nat) (ticket : DirectRestoreTicket)
    (left : Option DirectRestoreTicket) (t t' : DirectRestoreTable) : Prop where
  sound : Sound stray t'
  touches : Touches id t t'
  hashes_le : t'.activeHashJobs ≤ t.activeHashJobs
  found : t'.tickets[id]? = left
  reaped : ∃ token, tokenOf ticket kind = some token ∧ Reaped kind token t t'

theorem Settled.completed {left : Option DirectRestoreTicket} {t₁ : DirectRestoreTable}
    {token : DirectCompletionToken} (settled : Settled stray id left t₁ t') (touches : Touches id t t₁)
    (hashes_le : t₁.activeHashJobs ≤ t.activeHashJobs) (isToken : tokenOf ticket kind = some token)
    (reaped : Reaped kind token t t₁) : Completed stray kind id ticket left t t' where
  sound := settled.sound
  touches := touches.trans settled.inner.touches
  hashes_le := settled.inner.hashes_le.trans hashes_le
  found := settled.found
  reaped := ⟨token, isToken, settled.inner.cq_eq ▸ reaped.cq_eq, reaped.counted, reaped.resolved,
    settled.inner.descriptors_eq ▸ reaped.unresolved⟩

section Abandoned
variable (engaged : Engaged stray t id ticket buffer slot) (alone : ticket.waiters.isEmpty = true)
  (abandoned : ticket.state = .abandoned) (reserved : ticket.hashState = .reserved)
  (inflight : slot.state = .readInflight)
include engaged alone abandoned reserved inflight

theorem abandoned_settled (pending : ticket.originalPending = true ∨ ticket.cancelPending = true) :
    Settled stray id (some ticket) t t := by
  refine engaged.books.settle engaged.found (Inner.refl id t) ?_
  refine ⟨⟨engaged.papers, by simp [alone, abandoned], ?_⟩, .inr ⟨by simp [abandoned], ?_⟩, engaged.tokens⟩
  · unfold Phase
    rw [abandoned]
    exact .inl ⟨reserved, pending⟩
  · refine ⟨buffer, slot, engaged.held, engaged.leased, ?_⟩
    rw [inflight, bufferPhase, abandoned]
    exact (if_pos reserved).symm

theorem finishAbandonedIfReaped_ok : ∃ t', finishAbandonedIfReaped id t = (.ok (), t') ∧
      Settled stray id (if ticket.originalPending ∨ ticket.cancelPending then some ticket else none) t t' := by
  have settled := abandoned_settled engaged alone abandoned reserved inflight
  obtain ⟨books, found, -, tokens, held, leased⟩ := engaged
  by_cases pending : ticket.originalPending = true ∨ ticket.cancelPending = true
  · rw [if_pos pending]
    refine ⟨t, ?_, settled pending⟩
    refine (Action.bind_ok (ticket_ok found)).trans ?_
    refine (Action.bind_ok (Action.failIf_neg (by simp [abandoned]))).trans ?_
    rw [if_pos pending]
    rfl
  · have original : ticket.originalPending = false := Bool.not_eq_true _ ▸ fun h => pending (.inl h)
    have cancel : ticket.cancelPending = false := Bool.not_eq_true _ ▸ fun h => pending (.inr h)
    have holds : holdsBuffer ticket.state = true := by rw [abandoned]; rfl
    obtain ⟨t₁, released, books₁, wrote⟩ := releaseHashJob_ok books found rfl
    have leased₁ : Leased t₁.buffers buffer slot := wrote.buffers_eq ▸ leased
    have books₂ := books₁.setBuffer held leased₁ (moved slot .free) .planned (by rw [inflight, holds]; rfl)
    obtain ⟨t₃, removes, removed⟩ := removeTicket_ok .planned (by exact wrote.found) books₂
      ((show Tokens t.descriptors id { ticket with hashState := .none } from tokens).spent original cancel rfl) rfl
    rw [if_neg pending]
    refine ⟨t₃, ?_, (removed.after (inner_buffers id t₁ _)).after wrote.inner⟩
    refine (Action.bind_ok (ticket_ok found)).trans ?_
    refine (Action.bind_ok (Action.failIf_neg (by simp [abandoned]))).trans ?_
    rw [if_neg pending]
    refine (Action.bind_ok (Action.reads_ok (by rw [held]; rfl))).trans ?_
    refine (Action.bind_ok released).trans ?_
    refine (Action.bind_ok (onBuffers_ok (releaseAbandonedRead_ok leased₁ inflight))).trans ?_
    exact removes

end Abandoned

section Original

def afterOriginal (ticket : DirectRestoreTicket) :
    DirectRestoreState → DirectReadCompletion → Option DirectRestoreTicket
  | .readSubmitted, .exact =>
    some { cleared ticket .original with hashState := .queued, state := .dataReady }
  | .abandoned, .exact | .abandoned, .cancelled =>
    if ticket.cancelPending then some (cleared ticket .original) else none
  | _, _ => if ticket.cancelPending then some (failedTicket (cleared ticket .original)) else none

theorem queueHash_ok (engaged : Engaged stray t id ticket buffer slot) (waited : ticket.waiters.isEmpty = false)
    (submitted : ticket.state = .readSubmitted) (reserved : ticket.hashState = .reserved)
    (original : ticket.originalPending = false) (cancel : ticket.cancelPending = false)
    (inflight : slot.state = .readInflight) :
    ∃ t', queueHash id buffer t = (.ok (), t') ∧
      Settled stray id (some { ticket with hashState := .queued, state := .dataReady }) t t' := by
  obtain ⟨books, found, papers, tokens, held, leased⟩ := engaged
  obtain ⟨t₁, moves, books₁, inner, tickets_eq, leased₁⟩ := transition_books books held leased
    .hashingForRead (by rw [inflight]; rfl) .dataReady (by rw [inflight, submitted]; rfl)
  have books₂ := books₁.setHashes .queued t₁.activeHashJobs (by simp [usage, reserved]) le_rfl
  obtain ⟨t₂, marked, books₃, wrote⟩ := ticketMut_books books₂ (show t₁.tickets[id]? = _ from tickets_eq ▸ found)
    fun ticket => { ticket with hashState := .queued, state := .dataReady }
  have within := inner.trans wrote.inner
  refine ⟨t₂, ?_, books₃.settle wrote.found within ?_⟩
  · refine (Action.bind_ok moves).trans ?_
    refine (Action.bind_ok (ticket_ok (tickets_eq ▸ found))).trans ?_
    refine (Action.bind_ok (Action.failIf_neg (by simp [reserved]))).trans ?_
    exact marked
  · refine ⟨⟨?_, by simp [waited], original, cancel, .inl rfl⟩, .inr ⟨by simp, ?_⟩, ?_⟩
    · exact within.touches.config_eq ▸ { papers with }
    · exact ⟨buffer, moved slot .hashingForRead, held, wrote.buffers_eq ▸ leased₁, rfl⟩
    · rw [within.descriptors_eq]
      exact tokens

theorem completeOriginal_ok (sound : Sound stray t) (found : t.tickets[id]? = some ticket)
    (pending : ticket.originalPending = true) (live : ticket.state ≠ .failed) (completion : DirectReadCompletion) :
    ∃ t', completeOriginal id completion t = (.ok (), t') ∧
      Completed stray .original id ticket (afterOriginal ticket ticket.state completion) t t' := by
  obtain ⟨buffer, slot, token, t₀, t₁, isToken, reaps, clears, engaged, phase, touches, hashes_le, reaped⟩ :=
    reapTicket_ok .original sound found pending
  have held : ticket.buffer = some buffer := engaged.held
  have filed := (sound.each found).filed
  obtain ⟨reserved, place⟩ := filed.phase.original pending live
  have inflight : slot.state = .readInflight := by
    rw [phase, bufferPhase]
    rcases place with ⟨submitted, _⟩ | abandoned
    · rw [submitted]
    · rw [abandoned]
      exact if_pos reserved
  have active : slot.state.isActive = true := by rw [inflight]; rfl
  have open_state : ticket.state = .readSubmitted ∨ ticket.state = .abandoned := place.imp_left (·.1)
  have start : completeOriginal id completion t = finishOriginal id buffer ticket.state completion t₁ := by
    refine (Action.bind_ok (ticket_ok found)).trans ?_
    refine (Action.bind_ok (Action.failIf_neg (by simp [pending, open_state]))).trans ?_
    refine (Action.bind_ok (Action.reads_ok (by rw [held]; rfl))).trans ?_
    refine (Action.bind_ok (Action.reads_ok (a := token) ?_)).trans ?_
    · rw [show ticket.originalToken = _ from isToken]
      rfl
    · exact (Action.bind_ok reaps).trans (Action.bind_ok clears)
  have ends {left : Option DirectRestoreTicket} (same : left = afterOriginal ticket ticket.state completion)
      (finishes : ∃ t', finishOriginal id buffer ticket.state completion t₁ = (.ok (), t') ∧ Settled stray id left t₁ t') :
      ∃ t', completeOriginal id completion t = (.ok (), t') ∧
        Completed stray .original id ticket (afterOriginal ticket ticket.state completion) t t' := by
    obtain ⟨t', ran, settled⟩ := finishes
    exact ⟨t', start.trans ran, same ▸ settled.completed touches hashes_le isToken reaped⟩
  rcases place with ⟨submitted, cancel⟩ | abandoned
  · have holds : holdsBuffer ticket.state = true := by rw [submitted]; rfl
    have failing := failTicket_ok engaged active holds nofun
    have waited : ticket.waiters.isEmpty = false := by simpa [submitted] using filed.idle
    rw [submitted] at ends ⊢
    cases completion with
    | exact =>
      exact ends rfl (queueHash_ok engaged waited submitted reserved rfl cancel inflight)
    | cancelled | failed => exact ends (by simp [cleared, afterOriginal]) failing
  · have holds : holdsBuffer ticket.state = true := by rw [abandoned]; rfl
    have failing := failTicket_ok engaged active holds nofun
    have alone : ticket.waiters.isEmpty = true := filed.idle.mpr (.inl abandoned)
    have finishing := finishAbandonedIfReaped_ok engaged alone abandoned reserved inflight
    rw [abandoned] at ends ⊢
    cases completion with
    | exact | cancelled => exact ends (by simp [cleared, afterOriginal]) finishing
    | failed => exact ends (by simp [cleared, afterOriginal]) failing

end Original

section Cancel

theorem completeCancel_ok (sound : Sound stray t) (found : t.tickets[id]? = some ticket)
    (pending : ticket.cancelPending = true) :
    ∃ t', completeCancel id t = (.ok (), t') ∧ Completed stray .asyncCancel id ticket
      (if ticket.originalPending then some (cleared ticket .asyncCancel) else none) t t' := by
  obtain ⟨buffer, slot, token, t₀, t₁, isToken, reaps, clears, engaged, phase, touches, hashes_le, reaped⟩ :=
    reapTicket_ok .asyncCancel sound found pending
  have held : ticket.buffer = some buffer := engaged.held
  have filed := (sound.each found).filed
  have place := filed.phase.cancel pending
  have open_state : ticket.state = .abandoned ∨ ticket.state = .failed := place.imp (·.1) (·.1)
  have alone : ticket.waiters.isEmpty = true := filed.idle.mpr open_state
  have start : completeCancel id t = finishCancel id t₁ := by
    refine (Action.bind_ok (ticket_ok found)).trans ?_
    refine (Action.bind_ok (Action.failIf_neg (by simp [pending, open_state]))).trans ?_
    refine (Action.bind_ok (Action.reads_ok (a := token) ?_)).trans ?_
    · rw [show ticket.cancelToken = _ from isToken]
      rfl
    · refine (Action.bind_ok (Action.reads_ok (by rw [held]; rfl))).trans ?_
      exact (Action.bind_ok reaps).trans (Action.bind_ok clears)
  have ends {left : Option DirectRestoreTicket}
      (finishes : ∃ t', finishCancel id t₁ = (.ok (), t') ∧ Settled stray id left t₁ t') :
      ∃ t', completeCancel id t = (.ok (), t') ∧ Completed stray .asyncCancel id ticket left t t' := by
    obtain ⟨t', ran, settled⟩ := finishes
    exact ⟨t', start.trans ran, settled.completed touches hashes_le isToken reaped⟩
  refine ends ?_
  have reads : finishCancel id t₁ = _ := Action.bind_ok (ticket_ok engaged.found)
  rw [reads]
  rcases place with ⟨abandoned, reserved⟩ | ⟨failed, strays, hash⟩
  · have inflight : slot.state = .readInflight := by
      rw [phase, bufferPhase, abandoned]
      exact if_pos reserved
    by_cases original : ticket.originalPending = true
    · rw [if_pos (by exact original), if_pos original]
      exact ⟨t₁, rfl, abandoned_settled engaged alone abandoned reserved inflight (.inl original)⟩
    · obtain ⟨t', ran, settled⟩ := finishAbandonedIfReaped_ok engaged alone abandoned reserved inflight
      rw [if_neg (by exact original), if_pos (by exact abandoned), if_neg original]
      refine ⟨t', ran, ?_⟩
      rwa [if_neg (by simpa [cleared] using original)] at settled
  · by_cases original : ticket.originalPending = true
    · rw [if_pos (by exact original), if_pos original]
      refine ⟨t₁, rfl, engaged.books.settle engaged.found (Inner.refl id t₁) ?_⟩
      refine ⟨⟨engaged.papers, ?_, ?_⟩, .inr ⟨by simp [cleared, failed], buffer, slot, held, engaged.leased, ?_⟩,
        engaged.tokens⟩
      · exact ⟨fun _ => .inr failed, fun _ => alone⟩
      · rw [Phase, show (cleared ticket .asyncCancel).state = .failed from failed]
        exact ⟨strays, .inl original, hash⟩
      · rw [phase, bufferPhase, bufferPhase, show (cleared ticket .asyncCancel).state = _ from failed, failed]
    · have original := Bool.not_eq_true _ ▸ original
      rw [if_neg (by simp [cleared, original]), if_neg (by simp [cleared, failed]), if_neg (by simp [original])]
      refine removeTicket_ok ticket.state engaged.found engaged.books (engaged.tokens.spent original rfl hash) ?_
      rw [failed]
      rfl

end Cancel

end Glmaxx.Proof.Restore
