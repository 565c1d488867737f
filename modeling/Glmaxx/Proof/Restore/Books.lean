import Glmaxx.Proof.Restore.Leases

namespace Glmaxx.Proof.Restore
open Std Library Cache

inductive Resource where
  | buffers
  | descriptors
  | originals
  | cancels
  | hashes
  | physical
  | requests
  | logical (tenant : Nat)
deriving DecidableEq

def charge (waiters : ExtTreeMap Nat DirectRestoreWaiter) (tenant : Nat) : Nat :=
  total waiters fun _ waiter =>
    if waiter.tenantId = tenant then waiter.requiredCapability.logicalBytes else 0

def holdsBuffer : DirectRestoreState → Bool
  | .planned | .failed => false
  | _ => true

def usage (ticket : DirectRestoreTicket) : Resource → Nat
  | .buffers => if holdsBuffer ticket.state then 1 else 0
  | .descriptors => if ticket.originalPending ∨ ticket.cancelPending then 1 else 0
  | .originals => if ticket.originalPending then 1 else 0
  | .cancels => if ticket.cancelPending then 1 else 0
  | .hashes => if ticket.hashState ≠ .none then 1 else 0
  | .physical => ticket.record.physicalLength
  | .requests => ticket.waiters.size
  | .logical tenant => charge ticket.waiters tenant

def spent (ticket : Option DirectRestoreTicket) (resource : Resource) : Nat :=
  ticket.elim 0 (usage · resource)

def level (t : DirectRestoreTable) : Resource → Nat
  | .buffers => t.buffers.activeSlots
  | .descriptors => t.descriptors.outstandingDescriptors
  | .originals => t.cq.original
  | .cancels => t.cq.cancel
  | .hashes => t.activeHashJobs
  | .physical => t.physicalBytes
  | .requests => t.requestToTicket.size
  | .logical tenant => t.tenantLogicalBytes tenant

def limit (config : DirectRestoreConfig) : Resource → Option Nat
  | .hashes => some config.maximumHashJobs.toNat
  | .physical => some config.maximumPhysicalBytes.toNat
  | .logical _ => some config.maximumLogicalBytesPerTenant.toNat
  | _ => none

/-- Where a ticket stands. Only a pool that fails under a read in flight strands it: it is failed while its completion
is still to come. -/
def Phase (stray : Prop) (ticket : DirectRestoreTicket) : Prop :=
  match ticket.state with
  | .planned | .bufferReserved | .hashVerified =>
    ticket.originalPending = false ∧ ticket.cancelPending = false ∧ ticket.hashState = .none
  | .readSubmitted =>
    ticket.originalPending = true ∧ ticket.cancelPending = false ∧ ticket.hashState = .reserved
  | .dataReady =>
    ticket.originalPending = false ∧ ticket.cancelPending = false ∧
      (ticket.hashState = .queued ∨ ticket.hashState = .running)
  | .abandoned =>
    (ticket.hashState = .reserved ∧ (ticket.originalPending = true ∨ ticket.cancelPending = true)) ∨
      ((ticket.hashState = .queued ∨ ticket.hashState = .running) ∧
        ticket.originalPending = false ∧ ticket.cancelPending = false)
  | .failed =>
    (ticket.originalPending = true → stray) ∧ (ticket.originalPending = true ∨ ticket.cancelPending = true) ∧
      ticket.hashState = .none

def bufferPhase (ticket : DirectRestoreTicket) : DirectBufferState :=
  match ticket.state with
  | .planned => .free
  | .bufferReserved => .readQueued
  | .readSubmitted => .readInflight
  | .dataReady => .hashingForRead
  | .hashVerified => .hostReady
  | .abandoned => if ticket.hashState = .reserved then .readInflight else .hashingForRead
  | .failed => .quarantined

structure Papers (config : DirectRestoreConfig) (ticket : DirectRestoreTicket) : Prop where
  record : ticket.record.validate = .ok ()
  epoch : ticket.catalogEpoch ≠ 0
  digest : ticket.catalogRecordSha256 ≠ Bytes32.zero
  crowd : ticket.waiters.size ≤ config.maximumWaitersPerTicket.toNat
  waiter : ∀ (request : Nat) (waiter : DirectRestoreWaiter), ticket.waiters[request]? = some waiter →
    request ≠ 0 ∧ waiter.tenantId ≠ 0 ∧
      capabilitySatisfies ticket.record.capability waiter.requiredCapability = true

structure Filed (stray : Prop) (config : DirectRestoreConfig) (ticket : DirectRestoreTicket) : Prop where
  papers : Papers config ticket
  idle : ticket.waiters.isEmpty = true ↔ ticket.state = .abandoned ∨ ticket.state = .failed
  phase : Phase stray ticket

def Leases (buffers : DirectBufferPool) (ticket : DirectRestoreTicket) : Prop :=
  (ticket.state = .planned ∧ ticket.buffer = none) ∨
    ticket.state ≠ .planned ∧ ∃ buffer slot, ticket.buffer = some buffer ∧ Leased buffers buffer slot ∧
      slot.state = bufferPhase ticket

def Tokens (descriptors : DirectDescriptorTable) (id : Nat) (ticket : DirectRestoreTicket) : Prop :=
  (ticket.originalPending = false ∧ ticket.cancelPending = false ∧ ticket.originalToken = none ∧
    ticket.cancelToken = none) ∨
  ∃ buffer slot generation, ticket.buffer = some buffer ∧
    (ticket.originalPending = true ∨ ticket.cancelPending = true) ∧
    Bound descriptors slot generation
      ⟨DirectRestoreTable.readBinding id buffer, ticket.originalPending, ticket.cancelPending⟩ ∧
    ticket.originalToken = (if ticket.originalPending then some (.new slot generation .original) else none) ∧
    ticket.cancelToken = if ticket.cancelPending then some (.new slot generation .asyncCancel) else none

structure TicketSound (stray : Prop) (t : DirectRestoreTable) (id : Nat) (ticket : DirectRestoreTicket) : Prop where
  filed : Filed stray t.config ticket
  leases : Leases t.buffers ticket
  tokens : Tokens t.descriptors id ticket

structure Shaped (config : DirectRestoreConfig) (buffers : DirectBufferPool)
    (descriptors : DirectDescriptorTable) (cq : DirectCqTracker) : Prop where
  slots : buffers.slots.length < 2 ^ 32
  descriptors : descriptors.slots.length = config.descriptorCapacity.toNat
  capacity : config.descriptorCapacity.toNat ≤ 2 ^ 31
  cqCapacity : cq.descriptorCapacity = config.descriptorCapacity.toNat
  cqEntries : cq.cqEntries = config.descriptorCapacity.toNat * 2
  cqFits : config.descriptorCapacity.toNat * 2 < 2 ^ 32
  fsync : cq.fsync = 0
  waiters : 0 < config.maximumWaitersPerTicket.toNat

def Quiet (workers : Option DirectChecksumWorkers) (retired : Bool) (activeHashJobs : Nat) : Prop :=
  retired = true → workers = none ∧ activeHashJobs = 0

def ledger (t : DirectRestoreTable) (id : Nat) (own : Option DirectRestoreTicket) (j : Nat) :
    Option DirectRestoreTicket :=
  if j = id then own else t.tickets[j]?

/-- The books balance when ticket `id` is read as `own`; every other ticket is sound. -/
structure Books (stray : Prop) (t : DirectRestoreTable) (id : Nat) (own : Option DirectRestoreTicket) : Prop where
  others : ∀ (j : Nat) (ticket : DirectRestoreTicket), j ≠ id → t.tickets[j]? = some ticket →
    TicketSound stray t j ticket
  distinct : ∀ (i j : Nat) (a b : DirectRestoreTicket) (p q : DirectBufferId), ledger t id own i = some a →
    ledger t id own j = some b → a.buffer = some p → b.buffer = some q → p.slot = q.slot → i = j
  levels : ∀ resource, total t.tickets (fun _ ticket => usage ticket resource) + spent own resource =
    level t resource + spent t.tickets[id]? resource
  requests : ∀ request j : Nat, t.requestToTicket[request]? = some j ↔
    ∃ ticket, ledger t id own j = some ticket ∧ request ∈ ticket.waiters
  charged : ∀ tenant : Nat, t.logicalByTenant[tenant]? ≠ some 0
  bounded : ∀ resource bound, limit t.config resource = some bound → level t resource ≤ bound
  ids : ∀ (j : Nat) (ticket : DirectRestoreTicket), t.tickets[j]? = some ticket → 0 < j ∧ j < t.nextTicket
  positive : 0 < t.nextTicket
  few : t.tickets.size ≤ t.config.maximumTickets.toNat
  shaped : Shaped t.config t.buffers t.descriptors t.cq
  quiet : Quiet t.checksumWorkers t.checksumWorkersRetired t.activeHashJobs

def Sound (stray : Prop) (t : DirectRestoreTable) : Prop := Books stray t 0 none

variable {stray : Prop}
variable {t t' : DirectRestoreTable} {id : Nat} {own own' : Option DirectRestoreTicket}
  {ticket : DirectRestoreTicket}

theorem Books.absent (books : Books stray t id own) : t.tickets[0]? = none := by
  cases found : t.tickets[0]? with
  | none => rfl
  | some ticket => exact absurd (books.ids 0 ticket found).1 (Nat.lt_irrefl 0)

theorem ledger_self (t : DirectRestoreTable) (id j : Nat) : ledger t id t.tickets[id]? j = t.tickets[j]? := by
  unfold ledger
  split
  next same => rw [same]
  next => rfl

theorem Sound.ledger_eq (sound : Sound stray t) (j : Nat) : ledger t 0 none j = t.tickets[j]? := by
  rw [← sound.absent]
  exact ledger_self t 0 j

theorem Sound.open (sound : Sound stray t) (id : Nat) : Books stray t id t.tickets[id]? := by
  refine { (show Books stray t 0 none from sound) with
    others := fun j ticket _ found => sound.others j ticket (sound.ids j ticket found).1.ne' found
    distinct := fun i j a b p q foundI foundJ heldI heldJ same => ?_
    levels := fun resource => ?_
    requests := fun request j => ?_ }
  · rw [ledger_self, ← sound.ledger_eq] at foundI foundJ
    exact sound.distinct i j a b p q foundI foundJ heldI heldJ same
  · have balance := sound.levels resource
    rw [sound.absent] at balance
    rw [Nat.add_right_cancel balance]
  · rw [ledger_self, ← sound.ledger_eq]
    exact sound.requests request j

theorem Sound.each (sound : Sound stray t) (found : t.tickets[id]? = some ticket) : TicketSound stray t id ticket :=
  sound.others id ticket (sound.ids id ticket found).1.ne' found

theorem Books.close (books : Books stray t id own) (same : t.tickets[id]? = own)
    (sound : ∀ ticket, own = some ticket → TicketSound stray t id ticket) : Sound stray t := by
  subst same
  have ledger_eq (j : Nat) : ledger t 0 none j = t.tickets[j]? := by
    rw [← books.absent]
    exact ledger_self t 0 j
  refine { books with
    others := fun j ticket _ found => ?_
    distinct := fun i j a b p q foundI foundJ => ?_
    levels := fun resource => ?_
    requests := fun request j => ?_ }
  · by_cases here : j = id
    · subst here
      exact sound ticket found
    · exact books.others j ticket here found
  · rw [ledger_eq, ← ledger_self t id] at foundI foundJ
    exact books.distinct i j a b p q foundI foundJ
  · rw [books.absent, Nat.add_right_cancel (books.levels resource)]
  · rw [ledger_eq, ← ledger_self t id]
    exact books.requests request j

structure Touches (id : Nat) (t t' : DirectRestoreTable) : Prop where
  config_eq : t'.config = t.config
  nextTicket_eq : t'.nextTicket = t.nextTicket
  workers_eq : t'.checksumWorkers = t.checksumWorkers
  retired_eq : t'.checksumWorkersRetired = t.checksumWorkersRetired
  tickets_eq : ∀ j : Nat, j ≠ id → t'.tickets[j]? = t.tickets[j]?

theorem Touches.refl (id : Nat) (t : DirectRestoreTable) : Touches id t t :=
  ⟨rfl, rfl, rfl, rfl, fun _ _ => rfl⟩

theorem Touches.trans {t'' : DirectRestoreTable} (first : Touches id t t') (second : Touches id t' t'') :
    Touches id t t'' :=
  ⟨second.config_eq.trans first.config_eq, second.nextTicket_eq.trans first.nextTicket_eq,
    second.workers_eq.trans first.workers_eq, second.retired_eq.trans first.retired_eq,
    fun j other => (second.tickets_eq j other).trans (first.tickets_eq j other)⟩

def KeepsSlots (own : Option DirectRestoreTicket) (buffers buffers' : DirectBufferPool) : Prop :=
  ∀ (i : Nat) (slot : DirectBufferSlot), buffers.slots[i]? = some slot → slot.state ≠ .free →
    (∀ ticket buffer, own = some ticket → ticket.buffer = some buffer → buffer.slot ≠ i) →
    buffers'.slots[i]? = some slot

def KeepsEntries (id : Nat) (descriptors descriptors' : DirectDescriptorTable) : Prop :=
  ∀ (i : Nat) (slot : DirectDescriptorSlot) (entry : DirectDescriptorEntry),
    descriptors.slots[i]? = some slot → slot.entry = some entry → entry.binding.operationGeneration ≠ id →
    descriptors'.slots[i]? = some slot

theorem bufferPhase_ne_free (used : ticket.state ≠ .planned) : bufferPhase ticket ≠ .free := by
  unfold bufferPhase
  cases state : ticket.state with
  | planned => exact absurd state used
  | abandoned =>
    dsimp only
    split <;> decide
  | bufferReserved | readSubmitted | dataReady | hashVerified | failed => nofun

theorem TicketSound.keeps {j : Nat} (sound : TicketSound stray t j ticket) (other : j ≠ id)
    (config_eq : t'.config = t.config) (slots : KeepsSlots own t.buffers t'.buffers)
    (entries : KeepsEntries id t.descriptors t'.descriptors)
    (apart : ∀ mine p q, own = some mine → mine.buffer = some p → ticket.buffer = some q → p.slot ≠ q.slot) :
    TicketSound stray t' j ticket := by
  refine ⟨config_eq ▸ sound.filed, ?_, ?_⟩
  · rcases sound.leases with planned | ⟨used, buffer, slot, held, ⟨positive, get, same⟩, state⟩
    · exact .inl planned
    · have busy : slot.state ≠ .free := state ▸ bufferPhase_ne_free used
      have kept := slots buffer.slot slot get busy fun mine p isOwn holds => apart mine p buffer isOwn holds held
      exact .inr ⟨used, buffer, slot, held, ⟨positive, kept, same⟩, state⟩
  · rcases sound.tokens with none | ⟨buffer, slot, generation, held, pending, bound, tokens⟩
    · exact .inl none
    · obtain ⟨retired, get⟩ := bound.get
      exact .inr ⟨buffer, slot, generation, held, pending, ⟨bound.inSlot, bound.positive, bound.inGeneration,
        retired, entries _ _ _ get rfl other⟩, tokens⟩

theorem Touches.ledger_eq (touches : Touches id t t') {j : Nat} (other : j ≠ id) :
    ledger t' id own' j = ledger t id own j := by
  unfold ledger
  rw [if_neg other, if_neg other, touches.tickets_eq j other]

theorem ledger_own : ledger t id own id = own := if_pos rfl

/-- A step on behalf of ticket `id`, read as `own` before it and as `own'` after it, that draws on the resources by what
the ticket now uses of them. What such a step leaves alone is not to be said. -/
structure Revises (t t' : DirectRestoreTable) (id : Nat) (own own' : Option DirectRestoreTicket) : Prop where
  touches : Touches id t t' := by exact ⟨rfl, rfl, rfl, rfl, fun _ _ => rfl⟩
  ids : ∀ ticket, t'.tickets[id]? = some ticket →
      (∃ old, t.tickets[id]? = some old) ∨ 0 < id ∧ id < t.nextTicket := by
    exact fun ticket found => .inl ⟨ticket, found⟩
  few : t'.tickets.size ≤ t.tickets.size ∨ t'.tickets.size ≤ t.config.maximumTickets.toNat := by exact .inl le_rfl
  slots : KeepsSlots own t.buffers t'.buffers := by exact fun _ _ get _ _ => get
  entries : KeepsEntries id t.descriptors t'.descriptors := by exact fun _ _ _ get _ _ => get
  levels : ∀ resource, level t' resource + spent own resource = level t resource + spent own' resource := by
    exact fun _ => rfl
  bounded : ∀ resource, spent own' resource ≤ spent own resource ∨
      ∀ bound, limit t.config resource = some bound → level t' resource ≤ bound := by
    intro resource
    cases resource <;> first | exact .inl le_rfl | exact .inr fun _ none => by cases none
  requests : ∀ request j : Nat, j ≠ id →
      (t'.requestToTicket[request]? = some j ↔ t.requestToTicket[request]? = some j) := by
    exact fun _ _ _ => Iff.rfl
  ownRequests : ∀ request : Nat,
      (t.requestToTicket[request]? = some id ↔ ∃ ticket, own = some ticket ∧ request ∈ ticket.waiters) →
      (t'.requestToTicket[request]? = some id ↔ ∃ ticket, own' = some ticket ∧ request ∈ ticket.waiters) := by
    exact fun _ same => same.trans (by simp <;> rfl)
  lease : ∀ ticket buffer, own' = some ticket → ticket.buffer = some buffer →
      (∃ old, own = some old ∧ old.buffer = some buffer) ∨
        ∃ slot, t.buffers.slots[buffer.slot]? = some slot ∧ slot.state = .free := by
    intro ticket buffer isOwn held
    first | exact .inl ⟨ticket, isOwn, held⟩ | (cases isOwn <;> exact .inl ⟨_, rfl, held⟩)
  charged : ∀ tenant : Nat, t'.logicalByTenant[tenant]? = some 0 → t.logicalByTenant[tenant]? = some 0 := by
    exact fun _ zero => zero
  shaped : Shaped t.config t.buffers t.descriptors t.cq → Shaped t.config t'.buffers t'.descriptors t'.cq := by
    exact fun shaped => shaped
  quiet : t.checksumWorkersRetired = true → t'.activeHashJobs ≤ t.activeHashJobs := by exact fun _ => le_rfl

theorem Books.update (books : Books stray t id own) (revises : Revises t t' id own own') : Books stray t' id own' := by
  obtain ⟨touches, ids, few, slots, entries, levels, bounded, requests, ownRequests, lease, charged, shaped, quiet⟩ := revises
  -- a buffer that ticket `id` leases is not that of another ticket
  have apart : ∀ (j : Nat) (mine other : DirectRestoreTicket) (p q : DirectBufferId), j ≠ id →
      own' = some mine → t.tickets[j]? = some other → mine.buffer = some p → other.buffer = some q →
      p.slot ≠ q.slot := by
    intro j mine other p q different isOwn found heldP heldQ same
    rcases lease mine p isOwn heldP with ⟨old, wasOwn, heldOld⟩ | ⟨slot, get, free⟩
    · refine different (books.distinct j id other old q p ?_ ?_ heldQ heldOld same.symm)
      · rw [ledger, if_neg different, found]
      · rw [ledger_own, wasOwn]
    · rcases (books.others j other different found).leases with ⟨_, none⟩ | ⟨used, buffer, busy, held, leased, state⟩
      · rw [none] at heldQ
        cases heldQ
      · rw [held] at heldQ
        cases heldQ
        rw [same, leased.2.1] at get
        cases get
        exact bufferPhase_ne_free used (state ▸ free)
  refine ⟨?_, ?_, ?_, ?_, fun tenant zero => books.charged tenant (charged tenant zero), ?_, ?_, ?_, ?_,
    touches.config_eq ▸ shaped books.shaped, ?_⟩
  · intro j ticket other found
    rw [touches.tickets_eq j other] at found
    refine (books.others j ticket other found).keeps other touches.config_eq slots entries ?_
    intro mine p q isOwn heldP heldQ same
    refine other (books.distinct j id ticket mine q p ?_ ?_ heldQ heldP same.symm)
    · rw [ledger, if_neg other, found]
    · rw [ledger_own, isOwn]
  · intro i j a b p q foundI foundJ heldI heldJ same
    by_cases hereI : i = id
    · by_cases hereJ : j = id
      · rw [hereI, hereJ]
      · rw [hereI, ledger_own] at foundI
        rw [ledger, if_neg hereJ, touches.tickets_eq j hereJ] at foundJ
        exact absurd same (apart j a b p q hereJ foundI foundJ heldI heldJ)
    · by_cases hereJ : j = id
      · rw [hereJ, ledger_own] at foundJ
        rw [ledger, if_neg hereI, touches.tickets_eq i hereI] at foundI
        exact absurd same.symm (apart i b a q p hereI foundJ foundI heldJ heldI)
      · rw [touches.ledger_eq hereI] at foundI
        rw [touches.ledger_eq hereJ] at foundJ
        exact books.distinct i j a b p q foundI foundJ heldI heldJ same
  · intro resource
    have agree : total t'.tickets (fun _ ticket => usage ticket resource) + spent t.tickets[id]? resource =
        total t.tickets (fun _ ticket => usage ticket resource) + spent t'.tickets[id]? resource :=
      total_agree (fun _ ticket => usage ticket resource) id touches.tickets_eq
    have before := books.levels resource
    have after := levels resource
    omega
  · intro request j
    by_cases here : j = id
    · subst here
      rw [ledger_own]
      exact ownRequests request (by rw [books.requests, ledger_own])
    · rw [requests request j here, touches.ledger_eq here]
      exact books.requests request j
  · intro resource bound limited
    rw [touches.config_eq] at limited
    rcases bounded resource with less | within
    · have before := books.bounded resource bound limited
      have balance := levels resource
      omega
    · exact within bound limited
  · intro j ticket found
    by_cases here : j = id
    · subst here
      rw [touches.nextTicket_eq]
      rcases ids ticket found with ⟨old, before⟩ | new
      · exact books.ids j old before
      · exact new
    · rw [touches.tickets_eq j here] at found
      rw [touches.nextTicket_eq]
      exact books.ids j ticket found
  · rw [touches.nextTicket_eq]
    exact books.positive
  · rw [touches.config_eq]
    exact few.elim books.few.trans' fun within => within
  · rw [touches.workers_eq, touches.retired_eq]
    intro gone
    obtain ⟨none, zero⟩ := books.quiet gone
    exact ⟨none, Nat.le_zero.mp (zero ▸ quiet gone)⟩

end Glmaxx.Proof.Restore
