import Glmaxx.Proof.Restore.Parts

namespace Glmaxx.Proof.Restore
open Std Library Cache Cache.DirectRestoreTable

variable {stray : Prop}
variable {t t' : DirectRestoreTable} {id : Nat} {ticket actual : DirectRestoreTicket}
  {buffer : DirectBufferId} {slot : DirectBufferSlot}

theorem Sound.balance (sound : Sound stray t) (resource : Resource) :
    total t.tickets (fun _ ticket => usage ticket resource) = level t resource := by
  have balance := sound.levels resource
  rw [sound.absent] at balance
  exact Nat.add_right_cancel balance

theorem Sound.originals_le (sound : Sound stray t) : t.cq.original ≤ t.descriptors.outstandingDescriptors := by
  have originals := sound.balance .originals
  have descriptors := sound.balance .descriptors
  have less : ∀ (_ : Nat) (ticket : DirectRestoreTicket), usage ticket .originals ≤ usage ticket .descriptors := by
    intro _ ticket
    by_cases pending : ticket.originalPending = true <;> simp [usage, pending]
  exact (originals.symm.trans_le (total_mono _ less)).trans_eq descriptors

theorem Sound.cancels_le (sound : Sound stray t) : t.cq.cancel ≤ t.descriptors.outstandingDescriptors := by
  have cancels := sound.balance .cancels
  have descriptors := sound.balance .descriptors
  have less : ∀ (_ : Nat) (ticket : DirectRestoreTicket), usage ticket .cancels ≤ usage ticket .descriptors := by
    intro _ ticket
    by_cases pending : ticket.cancelPending = true <;> simp [usage, pending]
  exact (cancels.symm.trans_le (total_mono _ less)).trans_eq descriptors

theorem trySubmit_ok {kind : DirectCqKind} {next : DirectCqTracker}
    (shaped : Shaped t.config t.buffers t.descriptors t.cq) (bumps : t.cq.bumped kind = .ok next)
    (fsync : next.fsync = 0) (originals : next.original ≤ t.config.descriptorCapacity.toNat)
    (cancels : next.cancel ≤ t.config.descriptorCapacity.toNat) : t.cq.trySubmit kind = .ok next := by
  have entries := shaped.cqEntries
  have capacity := shaped.cqCapacity
  have fits := shaped.cqFits
  have first : checkedAdd 32 next.original next.cancel = some (next.original + next.cancel) := if_pos (by omega)
  have second : checkedAdd 32 (next.original + next.cancel) 0 = some (next.original + next.cancel) :=
    if_pos (by omega)
  refine bind_eq_ok.mpr ⟨next, bumps, ?_⟩
  refine bind_eq_ok.mpr ⟨next.original + next.cancel, okOr_eq_ok.mpr ?_, ?_⟩
  · simp only [first, Option.bind_some, fsync, second]
  · exact if_neg (by simp only [fsync]; omega)

/-- The table is sound again, and `left` is what it holds under `id`. -/
structure Settled (stray : Prop) (id : Nat) (left : Option DirectRestoreTicket) (t t' : DirectRestoreTable) : Prop where
  sound : Sound stray t'
  inner : Inner id t t'
  found : t'.tickets[id]? = left

theorem Settled.after {left : Option DirectRestoreTicket} {t'' : DirectRestoreTable}
    (settled : Settled stray id left t' t'') (first : Inner id t t') : Settled stray id left t t'' :=
  ⟨settled.sound, first.trans settled.inner, settled.found⟩

theorem Books.settle (books : Books stray t' id (some ticket)) (found : t'.tickets[id]? = some ticket)
    (inner : Inner id t t') (each : TicketSound stray t' id ticket) : Settled stray id (some ticket) t t' := by
  refine ⟨books.close found ?_, inner, found⟩
  intro last same
  cases same
  exact each

/-- The books are open at a ticket that leases `buffer`. -/
structure Engaged (stray : Prop) (t : DirectRestoreTable) (id : Nat) (ticket : DirectRestoreTicket)
    (buffer : DirectBufferId) (slot : DirectBufferSlot) : Prop where
  books : Books stray t id (some ticket)
  found : t.tickets[id]? = some ticket
  papers : Papers t.config ticket
  tokens : Tokens t.descriptors id ticket
  held : ticket.buffer = some buffer
  leased : Leased t.buffers buffer slot

theorem Sound.engaged (sound : Sound stray t) (found : t.tickets[id]? = some ticket) (used : ticket.state ≠ .planned) :
    ∃ buffer slot, Engaged stray t id ticket buffer slot ∧ slot.state = bufferPhase ticket := by
  have each := sound.each found
  rcases each.leases with ⟨planned, _⟩ | ⟨_, buffer, slot, held, leased, state⟩
  · exact absurd planned used
  · exact ⟨buffer, slot, ⟨found ▸ sound.open id, found, each.filed.papers, each.tokens, held, leased⟩, state⟩

/-- Between two calls the table is sound, and a pool that has failed has no hash job. -/
structure Steady (stray : Prop) (t : DirectRestoreTable) : Prop where
  sound : Sound stray t
  idle : t.poolFailed = true → t.activeHashJobs = 0

theorem Steady.touched (steady : Steady stray t) (sound : Sound stray t') (touches : Touches id t t')
    (hashes_le : t'.activeHashJobs ≤ t.activeHashJobs) : Steady stray t' := by
  refine ⟨sound, ?_⟩
  intro failed
  unfold poolFailed at failed
  rw [touches.workers_eq] at failed
  have zero := steady.idle failed
  omega

theorem Steady.settled {left : Option DirectRestoreTicket} (steady : Steady stray t) (settled : Settled stray id left t t') :
    Steady stray t' :=
  steady.touched settled.sound settled.inner.touches settled.inner.hashes_le

section Removing

structure Spent (ticket : DirectRestoreTicket) : Prop where
  original : ticket.originalPending = false
  cancel : ticket.cancelPending = false
  originalToken : ticket.originalToken = none
  cancelToken : ticket.cancelToken = none
  hash : ticket.hashState = .none

theorem Tokens.spent (tokens : Tokens t.descriptors id ticket) (original : ticket.originalPending = false)
    (cancel : ticket.cancelPending = false) (hash : ticket.hashState = .none) : Spent ticket := by
  rcases tokens with ⟨_, _, originalToken, cancelToken⟩ | ⟨_, _, _, _, pending, _⟩
  · exact ⟨original, cancel, originalToken, cancelToken, hash⟩
  · simp [original, cancel] at pending

theorem usage_of_spent (spentTicket : Spent ticket) (idle : holdsBuffer ticket.state = false)
    (alone : ticket.waiters = ∅) {resource : Resource} (other : resource ≠ .physical) :
    usage ticket resource = 0 := by
  cases resource with
  | physical => exact absurd rfl other
  | buffers => exact if_neg (by rw [idle]; decide)
  | descriptors => exact if_neg (by rw [spentTicket.original, spentTicket.cancel]; decide)
  | originals => exact if_neg (by rw [spentTicket.original]; decide)
  | cancels => exact if_neg (by rw [spentTicket.cancel]; decide)
  | hashes => exact if_neg (by rw [spentTicket.hash]; decide)
  | requests =>
    show ticket.waiters.size = 0
    rw [alone]
    rfl
  | logical tenant =>
    show charge ticket.waiters tenant = 0
    rw [alone]
    exact total_empty _

theorem Books.forget (books : Books stray t id (some ticket)) (absent : t.tickets[id]? = none)
    (spentTicket : Spent ticket) (idle : holdsBuffer ticket.state = false) (alone : ticket.waiters = ∅) :
    Sound stray { t with physicalBytes := t.physicalBytes - ticket.record.physicalLength } := by
  have drawn : ticket.record.physicalLength ≤ t.physicalBytes := books.spent_le .physical
  have closed : Books stray { t with physicalBytes := t.physicalBytes - ticket.record.physicalLength } id none := by
    refine books.update {
      levels := fun resource => ?_
      bounded := fun _ => .inl (Nat.zero_le _)
      ownRequests := fun request same => same.trans (by simp [alone]) }
    by_cases physical : resource = .physical
    · subst physical
      show t.physicalBytes - ticket.record.physicalLength + ticket.record.physicalLength = t.physicalBytes + 0
      omega
    · have nothing := usage_of_spent spentTicket idle alone physical
      cases resource with
      | physical => exact absurd rfl physical
      | _ => exact congrArg (_ + ·) nothing
  exact closed.close absent fun _ isOwn => by cases isOwn

theorem removeTicket_ok (state : DirectRestoreState) (found : t.tickets[id]? = some actual)
    (books : Books stray t id (some { actual with state })) (spentTicket : Spent actual) (idle : holdsBuffer state = false) :
    ∃ t', removeTicket id t = (.ok (), t') ∧ Settled stray id none t t' := by
  obtain ⟨t₁, ran, books₁, inner, buffers_eq, tickets_eq, physical_eq⟩ :=
    forM_waiters dropWaiter_ok books.eraseTicket (fun _ _ => mem_toList_iff) (keys_nodup actual.waiters)
  have drawn : actual.record.physicalLength ≤ t₁.physicalBytes := books₁.spent_le .physical
  have taken : okOr (checkedSub t₁.physicalBytes actual.record.physicalLength) DirectRestoreError.accounting =
      .ok (t₁.physicalBytes - actual.record.physicalLength) := by
    rw [checkedSub, if_pos drawn]
    rfl
  have absent : t₁.tickets[id]? = none := by simp [tickets_eq]
  have sound := books₁.forget absent { spentTicket with } idle rfl
  refine ⟨_, ?_, sound, inner.after ⟨touches_erase t id, rfl, rfl, le_rfl⟩ |>.trans
    ⟨⟨rfl, rfl, rfl, rfl, fun _ _ => rfl⟩, rfl, rfl, le_rfl⟩, absent⟩
  refine (Action.bind_ok (ticket_ok found)).trans ?_
  refine (Action.bind_ok (Action.failIf_neg (by simp [spentTicket.original, spentTicket.cancel]))).trans ?_
  refine (Action.bind_ok (Action.failIf_neg
    (by simp [spentTicket.originalToken, spentTicket.cancelToken]))).trans ?_
  refine (Action.bind_ok (Action.failIf_neg (by simp [spentTicket.hash]))).trans ?_
  refine (Action.bind_ok rfl).trans ?_
  refine (Action.bind_ok ran).trans ?_
  exact Action.updates_pure (by exact taken)

end Removing

section Buffers

/-- The ticket's buffer moves on, and the books read the ticket in `state`. -/
theorem transition_books (books : Books stray t id (some ticket)) (held : ticket.buffer = some buffer)
    (leased : Leased t.buffers buffer slot) (next : DirectBufferState)
    (valid : validTransition slot.state next = true) (state : DirectRestoreState)
    (balance : (if next.isActive then 1 else 0) + (if holdsBuffer ticket.state then 1 else 0) =
      (if slot.state.isActive then 1 else 0) + if holdsBuffer state then 1 else 0) :
    ∃ t', onBuffers (DirectBufferPool.transition buffer next) t = (.ok (), t') ∧
      Books stray t' id (some { ticket with state }) ∧ Inner id t t' ∧ t'.tickets = t.tickets ∧
      Leased t'.buffers buffer (moved slot next) :=
  ⟨_, onBuffers_ok (transition_ok leased valid), books.setBuffer held leased (moved slot next) state balance,
    inner_buffers id t _, rfl, leased.setSlot rfl⟩

theorem releaseTicket_ok (engaged : Engaged stray t id ticket buffer slot) (active : slot.state.isActive = true)
    (holds : holdsBuffer ticket.state = true) (valid : validTransition slot.state .free = true) (spentTicket : Spent ticket) :
    ∃ t', releaseTicket id ticket.buffer t = (.ok (), t') ∧ Settled stray id none t t' := by
  obtain ⟨t₁, freed, books₁, inner, tickets_eq, _⟩ :=
    transition_books engaged.books engaged.held engaged.leased .free valid .planned (by rw [active, holds]; rfl)
  obtain ⟨t₂, ran, removed⟩ := removeTicket_ok .planned (tickets_eq ▸ engaged.found) books₁ spentTicket rfl
  refine ⟨t₂, ?_, removed.after inner⟩
  refine (Action.bind_ok (Action.reads_ok (by rw [engaged.held]; rfl))).trans ?_
  exact (Action.bind_ok freed).trans ran

def quarantined (slot : DirectBufferSlot) : DirectBufferSlot := { slot with state := .quarantined }

theorem quarantineBuffer_ok (leased : Leased t.buffers buffer slot) (active : slot.state.isActive = true) :
    quarantineBuffer buffer slot.state t =
      (.ok (), { t with buffers := t.buffers.setSlot buffer (quarantined slot) }) := by
  have busy : slot.state ≠ .quarantined := by
    intro same
    rw [same] at active
    cases active
  have fails : validTransition slot.state .failed = true := if_pos ⟨active, rfl⟩
  have again : Leased (t.buffers.setSlot buffer (moved slot .failed)) buffer (moved slot .failed) :=
    leased.setSlot rfl
  unfold quarantineBuffer
  rw [if_pos busy]
  refine (Action.bind_ok (onBuffers_ok (transition_ok leased fails))).trans ?_
  refine (onBuffers_ok (transition_ok (by exact again) rfl)).trans ?_
  unfold DirectBufferPool.setSlot
  rw [List.set_set]
  rfl

end Buffers

section Failing

def failedTicket (ticket : DirectRestoreTicket) : DirectRestoreTicket :=
  { ticket with state := .failed, hashState := .none, waiters := ∅ }

theorem Papers.failed {config : DirectRestoreConfig} (papers : Papers config ticket) :
    Papers config (failedTicket ticket) :=
  { papers with crowd := Nat.zero_le _, waiter := fun _ _ found => by simp [failedTicket] at found }

variable (engaged : Engaged stray t id ticket buffer slot) (active : slot.state.isActive = true)
  (holds : holdsBuffer ticket.state = true)
include engaged active holds

/-- Up to its last step `fail_ticket` leaves the failed ticket in the table. -/
theorem failTicket_run : ∃ t', failTicket id t = removeIfReaped id t' ∧ Books stray t' id (some (failedTicket ticket)) ∧
      t'.tickets[id]? = some (failedTicket ticket) ∧ Inner id t t' ∧
      Leased t'.buffers buffer (quarantined slot) := by
  obtain ⟨books, found, -, -, held, leased⟩ := engaged
  have books₁ := books.setBuffer held leased (quarantined slot) .failed (by rw [active, holds]; rfl)
  obtain ⟨t₂, released, books₂, wrote₂⟩ := releaseHashJob_ok books₁ (show _ = some ticket from found) rfl
  obtain ⟨t₃, cleared, books₃, wrote₃⟩ := clearWaiters_ok books₂ wrote₂.found rfl
  obtain ⟨t₄, marked, books₄, wrote₄⟩ := ticketMut_books books₃ wrote₃.found
    fun ticket => { ticket with state := .failed }
  have wrote := (wrote₂.trans wrote₃).trans wrote₄
  refine ⟨t₄, ?_, books₄, wrote.found, wrote.inner.after (inner_buffers id t _), ?_⟩
  · refine (Action.bind_ok (ticket_ok found)).trans ?_
    refine (Action.bind_ok (Action.reads_ok (by rw [held]; rfl))).trans ?_
    refine (Action.bind_ok (Action.reads_ok (a := slot.state) ?_)).trans ?_
    · rw [DirectBufferPool.state, leased.slot_ok]
      rfl
    refine (Action.bind_ok (quarantineBuffer_ok leased active)).trans ?_
    refine (Action.bind_ok released).trans ?_
    refine (Action.bind_ok cleared).trans ?_
    exact Action.bind_ok marked
  · rw [wrote.buffers_eq]
    exact leased.setSlot rfl

theorem failTicket_ok (strays : ticket.originalPending = true → stray) :
    ∃ t', failTicket id t = (.ok (), t') ∧
      Settled stray id (if ticket.originalPending ∨ ticket.cancelPending then some (failedTicket ticket) else none)
        t t' := by
  obtain ⟨t₁, ran, books₁, found₁, inner, leased₁⟩ := failTicket_run engaged active holds
  rw [ran]
  by_cases pending : ticket.originalPending = true ∨ ticket.cancelPending = true
  · rw [if_pos pending]
    refine ⟨t₁, ?_, books₁.settle found₁ inner ?_⟩
    · refine (Action.bind_ok (ticket_ok found₁)).trans ?_
      rw [if_neg]
      · rfl
      · rintro ⟨original, cancel⟩
        rcases pending with pending | pending
        · cases pending.symm.trans original
        · cases pending.symm.trans cancel
    · refine ⟨⟨inner.touches.config_eq ▸ engaged.papers.failed, ?_, strays, pending, rfl⟩, .inr ⟨nofun, ?_⟩, ?_⟩
      · simp [failedTicket]
      · exact ⟨buffer, _, engaged.held, leased₁, rfl⟩
      · rw [inner.descriptors_eq]
        exact engaged.tokens
  · have original : ticket.originalPending = false := Bool.not_eq_true _ ▸ fun h => pending (.inl h)
    have cancel : ticket.cancelPending = false := Bool.not_eq_true _ ▸ fun h => pending (.inr h)
    have tokens : Tokens t.descriptors id (failedTicket ticket) := engaged.tokens
    obtain ⟨t₂, removes, removed⟩ := removeTicket_ok .failed found₁ books₁ (tokens.spent original cancel rfl) rfl
    rw [if_neg pending]
    refine ⟨t₂, ?_, removed.after inner⟩
    refine (Action.bind_ok (ticket_ok found₁)).trans ?_
    rw [if_pos ⟨original, cancel⟩]
    exact removes

end Failing

end Glmaxx.Proof.Restore
