import Glmaxx.Proof.Restore.Books

namespace Glmaxx.Proof.Restore
open Std Library Cache Cache.DirectRestoreTable

variable {α : Type} {t'' : DirectRestoreTable}

variable {stray : Prop}
variable {t t' : DirectRestoreTable} {id : Nat} {own : Option DirectRestoreTicket}
  {ticket actual : DirectRestoreTicket}

theorem ticket_ok (found : t.tickets[id]? = some ticket) : DirectRestoreTable.ticket id t = (.ok ticket, t) :=
  Action.reads_ok (by rw [found]; rfl)

theorem ticketMut_ok (found : t.tickets[id]? = some ticket) (f : DirectRestoreTicket → DirectRestoreTicket) :
    ticketMut id f t = (.ok (), { t with tickets := t.tickets.insert id (f ticket) }) :=
  Action.updates_ok (bind_eq_ok.mpr ⟨ticket, by rw [found]; rfl, rfl⟩)

theorem onBuffers_ok {x : Action DirectBufferPool DirectBufferStateError α} {a : α}
    {buffers : DirectBufferPool} (ran : x t.buffers = (.ok a, buffers)) :
    onBuffers x t = (.ok a, { t with buffers }) :=
  Action.within_ok ran

theorem onDescriptors_ok {x : Action DirectDescriptorTable DirectDescriptorError α} {a : α}
    {descriptors : DirectDescriptorTable} (ran : x t.descriptors = (.ok a, descriptors)) :
    onDescriptors x t = (.ok a, { t with descriptors }) :=
  Action.within_ok ran

theorem onCq_ok {f : DirectCqTracker → Except DirectRestoreError DirectCqTracker} {cq : DirectCqTracker}
    (ran : f t.cq = .ok cq) : onCq f t = (.ok (), { t with cq }) :=
  Action.updates_pure (by exact ran)

/-- A step on behalf of ticket `id` that submits nothing and reaps nothing. -/
structure Inner (id : Nat) (t t' : DirectRestoreTable) : Prop where
  touches : Touches id t t'
  descriptors_eq : t'.descriptors = t.descriptors
  cq_eq : t'.cq = t.cq
  hashes_le : t'.activeHashJobs ≤ t.activeHashJobs

theorem Inner.refl (id : Nat) (t : DirectRestoreTable) : Inner id t t := ⟨Touches.refl id t, rfl, rfl, le_rfl⟩

theorem Inner.trans (first : Inner id t t') (second : Inner id t' t'') : Inner id t t'' :=
  ⟨first.touches.trans second.touches, second.descriptors_eq.trans first.descriptors_eq,
    second.cq_eq.trans first.cq_eq, second.hashes_le.trans first.hashes_le⟩

theorem Inner.after (second : Inner id t' t'') (first : Inner id t t') : Inner id t t'' :=
  first.trans second

theorem inner_buffers (id : Nat) (t : DirectRestoreTable) (buffers : DirectBufferPool) :
    Inner id t { t with buffers } :=
  ⟨⟨rfl, rfl, rfl, rfl, fun _ _ => rfl⟩, rfl, rfl, le_rfl⟩

/-- Such a step that leaves the buffers alone and `ticket` in the table. -/
structure Wrote (id : Nat) (t t' : DirectRestoreTable) (ticket : DirectRestoreTicket) : Prop where
  inner : Inner id t t'
  buffers_eq : t'.buffers = t.buffers
  found : t'.tickets[id]? = some ticket

theorem Wrote.trans {first second : DirectRestoreTicket} (one : Wrote id t t' first)
    (two : Wrote id t' t'' second) : Wrote id t t'' second :=
  ⟨one.inner.trans two.inner, two.buffers_eq.trans one.buffers_eq, two.found⟩

theorem touches_insert (t : DirectRestoreTable) (id : Nat) (new : DirectRestoreTicket) :
    Touches id t { t with tickets := t.tickets.insert id new } :=
  ⟨rfl, rfl, rfl, rfl, fun _ other => getElem?_insert_ne other⟩

theorem touches_erase (t : DirectRestoreTable) (id : Nat) :
    Touches id t { t with tickets := t.tickets.erase id } :=
  ⟨rfl, rfl, rfl, rfl, fun j other => by
    show (t.tickets.erase id)[j]? = _
    rw [ExtTreeMap.getElem?_erase, if_neg (by simpa using other.symm)]⟩

theorem Books.ownRequests (books : Books stray t id own) (request : Nat) :
    t.requestToTicket[request]? = some id ↔ ∃ ticket, own = some ticket ∧ request ∈ ticket.waiters := by
  rw [books.requests, ledger_own]

theorem size_insert_present {new : DirectRestoreTicket} (found : t.tickets[id]? = some ticket) :
    (t.tickets.insert id new).size = t.tickets.size := by
  have inside : t.tickets.contains id = true := by
    rw [ExtTreeMap.contains_eq_isSome_getElem?, found]
    rfl
  rw [ExtTreeMap.size_insert, if_pos inside]

section
variable (books : Books stray t id own)
include books

theorem Books.setTicket (found : t.tickets[id]? = some ticket)
    (new : DirectRestoreTicket) : Books stray { t with tickets := t.tickets.insert id new } id own :=
  books.update {
    touches := touches_insert t id new
    ids := fun _ _ => .inl ⟨ticket, found⟩
    few := .inl (size_insert_present found).le }

theorem ticketMut_books (found : t.tickets[id]? = some actual) (f : DirectRestoreTicket → DirectRestoreTicket) :
    ∃ t', ticketMut id f t = (.ok (), t') ∧ Books stray t' id own ∧ Wrote id t t' (f actual) :=
  ⟨_, ticketMut_ok found f, books.setTicket found (f actual), ⟨touches_insert t id _, rfl, rfl, le_rfl⟩, rfl, by simp⟩

theorem Books.eraseTicket : Books stray { t with tickets := t.tickets.erase id } id own :=
  books.update {
    touches := touches_erase t id
    ids := fun _ found => by simp at found
    few := .inl ExtTreeMap.size_erase_le }

/-- A resource that one ticket draws on holds at least what it draws. -/
theorem Books.spent_le (resource : Resource) : spent own resource ≤ level t resource := by
  have balance := books.levels resource
  have share : spent t.tickets[id]? resource ≤ total t.tickets fun _ ticket => usage ticket resource := by
    cases found : t.tickets[id]? with
    | none => exact Nat.zero_le _
    | some ticket => exact le_total (fun _ ticket => usage ticket resource) found
  omega

end

section Buffer
variable {buffer : DirectBufferId} {slot : DirectBufferSlot}

theorem Books.setBuffer (books : Books stray t id (some ticket)) (held : ticket.buffer = some buffer)
    (leased : Leased t.buffers buffer slot) (slot' : DirectBufferSlot) (state : DirectRestoreState)
    (balance : (if slot'.state.isActive then 1 else 0) + (if holdsBuffer ticket.state then 1 else 0) =
      (if slot.state.isActive then 1 else 0) + if holdsBuffer state then 1 else 0) :
    Books stray { t with buffers := t.buffers.setSlot buffer slot' } id (some { ticket with state }) := by
  have active := activeSlots_setSlot leased slot'
  refine books.update {
    slots := fun _ _ get _ apart => (setSlot_of_ne t.buffers slot' (apart ticket buffer rfl held).symm).trans get
    levels := fun resource => ?_
    shaped := fun shaped => { shaped with slots := (List.length_set ..).trans_lt shaped.slots } }
  cases resource with
  | buffers =>
    show (t.buffers.setSlot buffer slot').activeSlots + usage ticket .buffers =
      t.buffers.activeSlots + usage { ticket with state } .buffers
    simp only [usage]
    omega
  | _ => rfl

end Buffer

section Hash

theorem Books.setHashes (books : Books stray t id (some ticket)) (hashState : DirectHashState) (jobs : Nat)
    (balance : jobs + usage ticket .hashes = t.activeHashJobs + usage { ticket with hashState } .hashes)
    (fewer : jobs ≤ t.activeHashJobs) :
    Books stray { t with activeHashJobs := jobs } id (some { ticket with hashState }) := by
  refine books.update { levels := fun resource => ?_, bounded := fun resource => .inl ?_, quiet := fun _ => fewer }
  · cases resource with
    | hashes => exact balance
    | _ => rfl
  · cases resource with
    | hashes =>
      show usage { ticket with hashState } .hashes ≤ usage ticket .hashes
      omega
    | _ => exact le_rfl

theorem releaseHashJob_ok (books : Books stray t id (some ticket)) (found : t.tickets[id]? = some actual)
    (same : actual.hashState = ticket.hashState) :
    ∃ t', releaseHashJob id t = (.ok (), t') ∧ Books stray t' id (some { ticket with hashState := .none }) ∧
      Wrote id t t' { actual with hashState := .none } := by
  by_cases idle : actual.hashState = .none
  · have own : ({ ticket with hashState := .none } : DirectRestoreTicket) = ticket := by rw [← idle, same]
    have kept : ({ actual with hashState := .none } : DirectRestoreTicket) = actual := by rw [← idle]
    refine ⟨t, ?_, own ▸ books, Inner.refl id t, rfl, kept ▸ found⟩
    exact (Action.bind_ok (ticket_ok found)).trans (by rw [if_pos idle]; rfl)
  · have used : usage ticket .hashes = 1 := if_pos (same ▸ idle)
    have some_job : 1 ≤ t.activeHashJobs := used ▸ books.spent_le .hashes
    have counted : okOr (checkedSub t.activeHashJobs 1) DirectRestoreError.accounting =
        .ok (t.activeHashJobs - 1) := by rw [checkedSub, if_pos some_job]; rfl
    have free : usage { ticket with hashState := .none } .hashes = 0 := rfl
    have fewer := books.setHashes .none (t.activeHashJobs - 1) (by omega) (Nat.sub_le _ _)
    obtain ⟨t', ran, books', wrote⟩ := ticketMut_books fewer (by exact found)
      fun ticket => { ticket with hashState := .none }
    refine ⟨t', ?_, books', wrote.inner.after ⟨⟨rfl, rfl, rfl, rfl, fun _ _ => rfl⟩, rfl, rfl, Nat.sub_le _ _⟩,
      wrote.buffers_eq, wrote.found⟩
    refine (Action.bind_ok (ticket_ok found)).trans ?_
    rw [if_neg idle]
    exact (Action.bind_ok (Action.updates_pure (by exact counted))).trans ran

end Hash

section Waiters
variable {request tenant bytes : Nat} {waiter : DirectRestoreWaiter} {logical : ExtTreeMap Nat Nat}

theorem logicalBytes_pos (capability : DirectTierCapability) : 0 < capability.logicalBytes := by
  cases capability <;> decide

def uncharged (logical : ExtTreeMap Nat Nat) (tenant bytes : Nat) : ExtTreeMap Nat Nat :=
  if logical[tenant]?.getD 0 - bytes = 0 then logical.erase tenant
  else logical.insert tenant (logical[tenant]?.getD 0 - bytes)

theorem unchargeTenant_ok (enough : bytes ≤ t.tenantLogicalBytes tenant) (some_bytes : 0 < bytes) :
    unchargeTenant tenant bytes t =
      (.ok (), { t with logicalByTenant := uncharged t.logicalByTenant tenant bytes }) := by
  unfold tenantLogicalBytes at enough
  cases found : t.logicalByTenant[tenant]? with
  | none =>
    rw [found] at enough
    exact absurd some_bytes (Nat.not_lt.mpr enough)
  | some held =>
    rw [found] at enough
    have taken : checkedSub held bytes = some (held - bytes) := if_pos enough
    refine Action.updates_ok (bind_eq_ok.mpr ⟨held, by rw [found]; rfl, ?_⟩)
    refine bind_eq_ok.mpr ⟨held - bytes, by rw [taken]; rfl, ?_⟩
    unfold uncharged
    rw [found]
    rfl

theorem getD_uncharged (key : Nat) : (uncharged logical tenant bytes)[key]?.getD 0 =
    logical[key]?.getD 0 - if tenant = key then bytes else 0 := by
  unfold uncharged
  by_cases here : tenant = key
  · subst here
    split
    next zero => simpa using zero.symm
    next => simp
  · split <;> simp [ExtTreeMap.getElem?_erase, ExtTreeMap.getElem?_insert, here]

theorem uncharged_ne_zero (nonzero : ∀ key : Nat, logical[key]? ≠ some 0) (key : Nat) :
    (uncharged logical tenant bytes)[key]? ≠ some 0 := by
  unfold uncharged
  by_cases here : tenant = key
  · subst here
    split
    next => simp
    next positive => simpa using positive
  · split <;> simpa [ExtTreeMap.getElem?_erase, ExtTreeMap.getElem?_insert, here] using nonzero key

theorem charge_erase {waiters : ExtTreeMap Nat DirectRestoreWaiter} (found : waiters[request]? = some waiter)
    (key : Nat) : charge waiters key = charge (waiters.erase request) key +
      if waiter.tenantId = key then waiter.requiredCapability.logicalBytes else 0 := by
  unfold charge
  rw [← total_erase _ found]
  omega

section
variable (books : Books stray t id (some ticket)) (found : ticket.waiters[request]? = some waiter)
include books found

theorem Books.charge_le : waiter.requiredCapability.logicalBytes ≤ t.tenantLogicalBytes waiter.tenantId := by
  have drawn := books.spent_le (.logical waiter.tenantId)
  have split := charge_erase found waiter.tenantId
  rw [if_pos rfl] at split
  change charge ticket.waiters waiter.tenantId ≤ t.tenantLogicalBytes waiter.tenantId at drawn
  omega

theorem Books.dropRequest : Books stray { t with
      requestToTicket := t.requestToTicket.erase request
      logicalByTenant := uncharged t.logicalByTenant waiter.tenantId waiter.requiredCapability.logicalBytes } id
      (some { ticket with waiters := ticket.waiters.erase request }) := by
  have waiting : request ∈ ticket.waiters := by
    rw [ExtTreeMap.mem_iff_isSome_getElem?, found]
    rfl
  have filed : t.requestToTicket[request]? = some id := (books.ownRequests request).mpr ⟨ticket, rfl, waiting⟩
  have leaves := size_erase_of_getElem? found
  have forgets := size_erase_of_getElem? filed
  refine books.update {
    levels := fun resource => ?_
    bounded := fun resource => .inl ?_
    requests := fun other j different => ?_
    ownRequests := fun other same => ?_
    charged := fun _ zero => absurd zero (uncharged_ne_zero books.charged _) }
  · cases resource with
    | requests =>
      show (t.requestToTicket.erase request).size + ticket.waiters.size =
        t.requestToTicket.size + (ticket.waiters.erase request).size
      omega
    | logical key =>
      show (uncharged t.logicalByTenant waiter.tenantId waiter.requiredCapability.logicalBytes)[key]?.getD 0 +
        charge ticket.waiters key = t.logicalByTenant[key]?.getD 0 + charge (ticket.waiters.erase request) key
      have enough := books.charge_le found
      unfold tenantLogicalBytes at enough
      rw [getD_uncharged, charge_erase found key]
      split
      next here =>
        subst here
        omega
      next => omega
    | _ => rfl
  · cases resource with
    | requests =>
      show (ticket.waiters.erase request).size ≤ ticket.waiters.size
      omega
    | logical key =>
      show charge (ticket.waiters.erase request) key ≤ charge ticket.waiters key
      rw [charge_erase found key]
      exact Nat.le_add_right _ _
    | _ => exact le_rfl
  · show (t.requestToTicket.erase request)[other]? = _ ↔ _
    rw [ExtTreeMap.getElem?_erase]
    by_cases here : request = other
    · subst here
      rw [filed]
      simpa using fun same => different same.symm
    · simp [here]
  · show (t.requestToTicket.erase request)[other]? = _ ↔ _
    rw [ExtTreeMap.getElem?_erase]
    by_cases here : request = other
    · subst here
      simp
    · rw [if_neg (by simpa using here), same]
      simp [ExtTreeMap.mem_erase, here]

end

theorem forM_waiters {body : Nat × DirectRestoreWaiter → Restore Unit}
    (single : ∀ (t : DirectRestoreTable) (request : Nat) (waiter : DirectRestoreWaiter),
      waiter.requiredCapability.logicalBytes ≤ t.tenantLogicalBytes waiter.tenantId →
      body (request, waiter) t = (.ok (), { t with
        requestToTicket := t.requestToTicket.erase request
        logicalByTenant := uncharged t.logicalByTenant waiter.tenantId waiter.requiredCapability.logicalBytes }))
    {waiters : List (Nat × DirectRestoreWaiter)} (books : Books stray t id (some ticket))
    (listed : ∀ (request : Nat) (waiter : DirectRestoreWaiter),
      (request, waiter) ∈ waiters ↔ ticket.waiters[request]? = some waiter)
    (distinct : (waiters.map (·.1)).Nodup) :
    ∃ t', waiters.forM body t = (.ok (), t') ∧ Books stray t' id (some { ticket with waiters := ∅ }) ∧
      Inner id t t' ∧ t'.buffers = t.buffers ∧ t'.tickets = t.tickets ∧ t'.physicalBytes = t.physicalBytes := by
  induction waiters generalizing t ticket with
  | nil =>
    have empty : ticket.waiters = ∅ := by
      apply ExtTreeMap.ext_getElem?
      intro request
      cases found : ticket.waiters[request]? with
      | none => simp
      | some waiter => cases (listed request waiter).mpr found
    refine ⟨t, rfl, ?_, Inner.refl id t, rfl, rfl, rfl⟩
    rw [← empty]
    exact books
  | cons entry rest ih =>
    obtain ⟨request, waiter⟩ := entry
    obtain ⟨fresh, distinct⟩ := List.nodup_cons.mp distinct
    have found := (listed request waiter).mp (List.mem_cons_self ..)
    have left : ∀ (other : Nat) (held : DirectRestoreWaiter),
        (other, held) ∈ rest ↔ (ticket.waiters.erase request)[other]? = some held := by
      intro other held
      rw [ExtTreeMap.getElem?_erase]
      by_cases here : request = other
      · subst here
        have gone : (request, held) ∉ rest := fun member => fresh (List.mem_map_of_mem (f := (·.1)) member)
        simp [gone]
      · have different : ¬other = request := fun back => here back.symm
        simp [← listed other held, here, different]
    obtain ⟨t', ran, after, inner, buffers_eq, tickets_eq, physical_eq⟩ :=
      ih (books.dropRequest found) left distinct
    refine ⟨t', ?_, after, inner.after ⟨⟨rfl, rfl, rfl, rfl, fun _ _ => rfl⟩, rfl, rfl, le_rfl⟩, buffers_eq,
      tickets_eq, physical_eq⟩
    exact (Action.bind_ok (single t request waiter (books.charge_le found))).trans ran

section
variable (t : DirectRestoreTable) (request : Nat) (waiter : DirectRestoreWaiter)
  (enough : waiter.requiredCapability.logicalBytes ≤ t.tenantLogicalBytes waiter.tenantId)
include enough

theorem clearWaiter_ok : clearWaiter (request, waiter) t = (.ok (), { t with
      requestToTicket := t.requestToTicket.erase request
      logicalByTenant := uncharged t.logicalByTenant waiter.tenantId waiter.requiredCapability.logicalBytes }) :=
  Action.bind_ok (unchargeTenant_ok enough (logicalBytes_pos _))

theorem dropWaiter_ok : dropWaiter (request, waiter) t = (.ok (), { t with
      requestToTicket := t.requestToTicket.erase request
      logicalByTenant := uncharged t.logicalByTenant waiter.tenantId waiter.requiredCapability.logicalBytes }) :=
  unchargeTenant_ok enough (logicalBytes_pos _)

end

theorem clearWaiters_ok (books : Books stray t id (some ticket)) (found : t.tickets[id]? = some actual)
    (same : actual.waiters = ticket.waiters) :
    ∃ t', clearWaiters id t = (.ok (), t') ∧ Books stray t' id (some { ticket with waiters := ∅ }) ∧
      Wrote id t t' { actual with waiters := ∅ } := by
  obtain ⟨t₁, cleared, books₁, inner₁, buffers_eq, tickets_eq, _⟩ := forM_waiters clearWaiter_ok books
    (fun _ _ => mem_toList_iff) (keys_nodup ticket.waiters)
  obtain ⟨t₂, ran, books₂, wrote⟩ := ticketMut_books books₁ (tickets_eq ▸ found)
    fun ticket => { ticket with waiters := ∅ }
  refine ⟨t₂, ?_, books₂, inner₁.trans wrote.inner, wrote.buffers_eq.trans buffers_eq, wrote.found⟩
  refine (Action.bind_ok (ticket_ok found)).trans ?_
  rw [same]
  exact (Action.bind_ok cleared).trans ran

end Waiters

end Glmaxx.Proof.Restore
