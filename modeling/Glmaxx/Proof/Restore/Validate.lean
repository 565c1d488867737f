import Glmaxx.Proof.Restore.Admission
import Glmaxx.Proof.Restore.Completion
import Glmaxx.Proof.Restore.Submission

namespace Glmaxx.Proof.Restore
open Std Library Cache Cache.DirectRestoreTable

variable {t : DirectRestoreTable} {id : Nat} {ticket : DirectRestoreTicket}

theorem okOr_checkedAdd {width a b : Nat} (fits : a + b < 2 ^ width) :
    okOr (checkedAdd width a b) DirectRestoreError.overflow = .ok (a + b) :=
  okOr_eq_ok.mpr (if_pos fits)

section Waiters

def charges (waiters : List (Nat × DirectRestoreWaiter)) (tenant : Nat) : Nat :=
  (waiters.map fun (_, waiter) =>
    if waiter.tenantId = tenant then waiter.requiredCapability.logicalBytes else 0).sum

structure Adds (logical logical' : ExtTreeMap Nat Nat) (more : Nat → Nat) : Prop where
  sum : ∀ tenant : Nat, logical'[tenant]?.getD 0 = logical[tenant]?.getD 0 + more tenant
  nonzero : (∀ tenant : Nat, logical[tenant]? ≠ some 0) → ∀ tenant : Nat, logical'[tenant]? ≠ some 0

theorem validateWaiters_ok (id : Nat) (capability : DirectTierCapability) (waiters : List (Nat × DirectRestoreWaiter))
    (logical : ExtTreeMap Nat Nat)
    (fine : ∀ request waiter, (request, waiter) ∈ waiters → request ≠ 0 ∧ waiter.tenantId ≠ 0 ∧
      capabilitySatisfies capability waiter.requiredCapability = true ∧ t.requestToTicket[request]? = some id)
    (fits : ∀ tenant : Nat, logical[tenant]?.getD 0 + charges waiters tenant < 2 ^ 64) :
    ∃ logical', validateWaiters t id capability waiters logical = .ok logical' ∧
      Adds logical logical' (charges waiters) := by
  induction waiters generalizing logical with
  | nil => exact ⟨logical, rfl, fun _ => rfl, fun nonzero => nonzero⟩
  | cons entry rest ih =>
    obtain ⟨request, waiter⟩ := entry
    obtain ⟨requested, tenant, capable, filed⟩ := fine request waiter (List.mem_cons_self ..)
    have head (tenant : Nat) : charges ((request, waiter) :: rest) tenant =
        (if waiter.tenantId = tenant then waiter.requiredCapability.logicalBytes else 0) + charges rest tenant := rfl
    have here := fits waiter.tenantId
    rw [head, if_pos rfl] at here
    obtain ⟨logical', ran, adds⟩ := ih (debited logical waiter.tenantId waiter.requiredCapability.logicalBytes)
      (fun request waiter member => fine request waiter (List.mem_cons_of_mem _ member))
      (by
        intro tenant
        have bound := fits tenant
        rw [head] at bound
        rw [getD_debited]
        omega)
    refine ⟨logical', ?_, ?_, ?_⟩
    · unfold validateWaiters
      rw [if_neg (by simp [requested, tenant, capable, filed])]
      exact bind_eq_ok.mpr ⟨_, okOr_checkedAdd (by omega), ran⟩
    · intro tenant
      rw [adds.sum, getD_debited, head]
      omega
    · intro nonzero
      exact adds.nonzero (debited_ne_zero nonzero (logicalBytes_pos _))

end Waiters

section Tokens

theorem validateTokens_ok (tokens : Tokens t.descriptors id ticket) {cqes : Nat}
    (fits : cqes + usage ticket .originals + usage ticket .cancels < 2 ^ 32) :
    (ticket.originalPending = ticket.originalToken.isSome ∧ ticket.cancelPending = ticket.cancelToken.isSome) ∧
      validateTokens t (ticket.buffer.map (readBinding id))
        [ticket.originalToken, ticket.cancelToken].reduceOption cqes =
        .ok (cqes + usage ticket .originals + usage ticket .cancels) := by
  simp only [usage] at fits ⊢
  rcases tokens with ⟨original, cancel, originalToken, cancelToken⟩ |
    ⟨buffer, place, generation, held, _, bound, originalToken, cancelToken⟩
  · rw [original, cancel, originalToken, cancelToken]
    exact ⟨⟨rfl, rfl⟩, rfl⟩
  · have step (kind : DirectCompletionKind) {rest : List DirectCompletionToken} {cqes : Nat}
        (pending : pendingOf ticket kind = true) (small : cqes + 1 < 2 ^ 32) :
        validateTokens t (some (readBinding id buffer)) (.new place generation kind :: rest) cqes =
          validateTokens t (some (readBinding id buffer)) rest (cqes + 1) := by
      have resolved : t.descriptors.resolve (.new place generation kind) = _ :=
        resolve_ok bound (by cases kind <;> exact pending)
      conv_lhs => unfold validateTokens
      rw [resolved]
      show (if _ ≠ _ then _ else _) = _
      rw [if_neg (not_not.mpr rfl)]
      show (okOr _ _ >>= _) = _
      rw [okOr_checkedAdd small]
      rfl
    rw [originalToken, cancelToken, held, Option.map_some]
    cases original : ticket.originalPending <;> cases cancel : ticket.cancelPending <;>
      simp only [original, cancel, if_true, if_false, Bool.false_eq_true, List.reduceOption_cons_of_some,
        List.reduceOption_cons_of_none, List.reduceOption_nil, Option.isSome_some, Option.isSome_none,
        true_and] at fits ⊢
    · rfl
    · rw [step .asyncCancel cancel (by omega)]
      rfl
    · rw [step .original original (by omega)]
      rfl
    · rw [step .original original (by omega), step .asyncCancel cancel (by omega)]
      rfl

end Tokens

section Ticket

theorem bufferState_matches (each : TicketSound False t id ticket) :
    ∃ bufferState, t.bufferStateOf ticket.buffer = .ok bufferState ∧ stateMatches ticket bufferState = true ∧
      (if bufferState.any (·.isActive) then 1 else 0) = usage ticket .buffers := by
  have phase := each.filed.phase
  have idle := each.filed.idle
  unfold Phase at phase
  unfold stateMatches usage
  rcases each.leases with ⟨planned, none⟩ | ⟨used, buffer, slot, held, leased, state⟩
  · rw [planned] at phase
    refine ⟨.none, by rw [none]; rfl, ?_, ?_⟩
    · rw [planned]
      simpa using phase
    · rw [planned]
      rfl
  · refine ⟨some slot.state, ?_, ?_, ?_⟩
    · rw [held, bufferStateOf, DirectBufferPool.state, leased.slot_ok]
      rfl
    · unfold bufferPhase at state
      cases isState : ticket.state <;> rw [isState] at phase state idle <;> simp_all
      rcases phase with ⟨reserved, _⟩ | ⟨working, _⟩
      · simp [reserved]
      · rcases working with hash | hash <;> simp [hash]
    · rw [state]
      unfold bufferPhase
      cases isState : ticket.state with
      | planned => exact absurd isState used
      | abandoned =>
        dsimp only
        split <;> rfl
      | bufferReserved | readSubmitted | dataReady | hashVerified | failed => rfl

theorem expectedHashJobs_ok {hashJobs : Nat} (fits : hashJobs + usage ticket .hashes < 2 ^ 32) :
    expectedHashJobs ticket.hashState hashJobs = .ok (hashJobs + usage ticket .hashes) := by
  unfold expectedHashJobs usage at *
  by_cases none : ticket.hashState = .none
  · simp [none]
  · rw [if_pos none] at fits ⊢
    rw [if_pos none]
    exact okOr_checkedAdd fits

def Expected.plus (expected : Expected) (logical : ExtTreeMap Nat Nat) (used : Resource → Nat) : Expected where
  logical := logical
  descriptors := expected.descriptors + used .descriptors
  cqes := expected.cqes + used .originals + used .cancels
  activeBuffers := expected.activeBuffers + used .buffers
  hashJobs := expected.hashJobs + used .hashes

structure Expected.Fits (expected : Expected) (used : Resource → Nat) : Prop where
  logical : ∀ tenant : Nat, expected.logical[tenant]?.getD 0 + used (.logical tenant) < 2 ^ 64
  cqes : expected.cqes + used .originals + used .cancels < 2 ^ 32
  hashJobs : expected.hashJobs + used .hashes < 2 ^ 32

theorem validateTicket_ok (each : TicketSound False t id ticket)
    (filed : ∀ request : Nat, request ∈ ticket.waiters → t.requestToTicket[request]? = some id)
    (expected : Expected) (fits : Expected.Fits expected (usage ticket)) :
    ∃ logical, t.validateTicket id ticket expected = .ok (Expected.plus expected logical (usage ticket)) ∧
      Adds expected.logical logical fun tenant => usage ticket (.logical tenant) := by
  have papers := each.filed.papers
  have idle : ¬(ticket.waiters.isEmpty = true ∧ ¬(ticket.state = .abandoned ∨ ticket.state = .failed)) :=
    fun ⟨empty, waited⟩ => waited (each.filed.idle.mp empty)
  obtain ⟨logical, waiters, adds⟩ := validateWaiters_ok (t := t) id ticket.record.capability
    ticket.waiters.toList expected.logical
    (by
      intro request waiter member
      have found := mem_toList_iff.mp member
      obtain ⟨requested, tenant, capable⟩ := papers.waiter request waiter found
      refine ⟨requested, tenant, capable, filed request ?_⟩
      rw [ExtTreeMap.mem_iff_isSome_getElem?, found]
      rfl)
    fits.logical
  obtain ⟨⟨original, cancel⟩, tokens⟩ := validateTokens_ok each.tokens fits.cqes
  obtain ⟨bufferState, states, matching, active⟩ := bufferState_matches each
  refine ⟨logical, ?_, adds⟩
  unfold validateTicket
  refine bind_eq_ok.mpr ⟨(), by rw [validateRecord, papers.record], ?_⟩
  rw [if_neg (by simp [papers.epoch, papers.digest, Nat.not_lt.mpr papers.crowd]; simpa using idle)]
  refine bind_eq_ok.mpr ⟨logical, waiters, ?_⟩
  rw [if_neg (by rw [← original, ← cancel]; simp)]
  refine bind_eq_ok.mpr ⟨_, tokens, ?_⟩
  refine bind_eq_ok.mpr ⟨_, expectedHashJobs_ok fits.hashJobs, ?_⟩
  refine bind_eq_ok.mpr ⟨bufferState, states, ?_⟩
  rw [if_neg (by simp [matching]), active]
  rfl

end Ticket

section Loop

def usages (tickets : List (DirectRestoreTicketId × DirectRestoreTicket)) (resource : Resource) : Nat :=
  (tickets.map fun entry => usage entry.2 resource).sum

theorem sumPhysical_ok (tickets : List (DirectRestoreTicketId × DirectRestoreTicket)) (start : Nat)
    (fits : start + usages tickets .physical < 2 ^ 64) :
    sumPhysical tickets start = .ok (start + usages tickets .physical) := by
  induction tickets generalizing start with
  | nil => rfl
  | cons entry rest ih =>
    have head : usages (entry :: rest) .physical = entry.2.record.physicalLength + usages rest .physical := rfl
    rw [head] at fits ⊢
    refine bind_eq_ok.mpr ⟨_, okOr_checkedAdd (by omega), ?_⟩
    rw [ih _ (by omega), Nat.add_assoc]

theorem validateTickets_ok (tickets : List (DirectRestoreTicketId × DirectRestoreTicket)) (expected : Expected)
    (each : ∀ entry ∈ tickets, TicketSound False t entry.1 entry.2)
    (filed : ∀ entry ∈ tickets, ∀ request : Nat, request ∈ entry.2.waiters →
      t.requestToTicket[request]? = some entry.1)
    (fits : Expected.Fits expected (usages tickets)) :
    ∃ logical, t.validateTickets tickets expected = .ok (Expected.plus expected logical (usages tickets)) ∧
      Adds expected.logical logical fun tenant => usages tickets (.logical tenant) := by
  induction tickets generalizing expected with
  | nil => exact ⟨expected.logical, rfl, fun _ => rfl, fun nonzero => nonzero⟩
  | cons entry rest ih =>
    have head (resource : Resource) :
        usages (entry :: rest) resource = usage entry.2 resource + usages rest resource := rfl
    obtain ⟨fitsLogical, fitsCqes, fitsHashJobs⟩ := fits
    simp only [head] at fitsLogical fitsCqes fitsHashJobs
    obtain ⟨logical₁, ran₁, adds₁⟩ := validateTicket_ok (each entry (List.mem_cons_self ..))
      (filed entry (List.mem_cons_self ..)) expected
      ⟨fun tenant => by have bound := fitsLogical tenant; omega, by omega, by omega⟩
    obtain ⟨logical, ran, adds⟩ := ih (Expected.plus expected logical₁ (usage entry.2))
      (fun other member => each other (List.mem_cons_of_mem _ member))
      (fun other member => filed other (List.mem_cons_of_mem _ member))
      ⟨fun tenant => by
          have bound := fitsLogical tenant
          have sum := adds₁.sum tenant
          show logical₁[tenant]?.getD 0 + _ < _
          omega,
        by simp only [Expected.plus]; omega, by simp only [Expected.plus]; omega⟩
    refine ⟨logical, bind_eq_ok.mpr ⟨_, ran₁, ran.trans ?_⟩, ?_, fun nonzero => adds.nonzero (adds₁.nonzero nonzero)⟩
    · simp only [Expected.plus, head, Except.ok.injEq, Expected.mk.injEq, true_and]
      omega
    · intro tenant
      have first := adds₁.sum tenant
      have second : logical[tenant]?.getD 0 = logical₁[tenant]?.getD 0 + _ := adds.sum tenant
      rw [head]
      omega

end Loop

theorem validateInvariants_ok (sound : Sound False t) : t.validateInvariants = .ok () := by
  have each : ∀ entry ∈ t.tickets.toList, TicketSound False t entry.1 entry.2 :=
    fun entry member => sound.each (mem_toList_iff.mp member)
  have filed : ∀ entry ∈ t.tickets.toList, ∀ request : Nat, request ∈ entry.2.waiters →
      t.requestToTicket[request]? = some entry.1 := by
    intro entry member request waiting
    refine (sound.requests request entry.1).mpr ⟨entry.2, ?_, waiting⟩
    rw [sound.ledger_eq]
    exact mem_toList_iff.mp member
  have balance (resource : Resource) : usages t.tickets.toList resource = level t resource :=
    sound.balance resource
  have physical : t.physicalBytes ≤ t.config.maximumPhysicalBytes.toNat := sound.bounded .physical _ rfl
  have hashes : t.activeHashJobs ≤ t.config.maximumHashJobs.toNat := sound.bounded .hashes _ rfl
  have logicalBound (tenant : Nat) : t.tenantLogicalBytes tenant ≤ t.config.maximumLogicalBytesPerTenant.toNat :=
    sound.bounded (.logical tenant) _ rfl
  have shaped := sound.shaped
  have originals := sound.originals_le
  have cancels := sound.cancels_le
  have outstanding : t.descriptors.outstandingDescriptors ≤ t.descriptors.slots.length := List.countP_le_length
  have sized := shaped.descriptors
  have cqFits := shaped.cqFits
  have small := t.config.maximumPhysicalBytes.toNat_lt
  have smallHashes := t.config.maximumHashJobs.toNat_lt
  have smallLogical := t.config.maximumLogicalBytesPerTenant.toNat_lt
  have crowd : t.requestToTicket.size ≤ t.tickets.size * t.config.maximumWaitersPerTicket.toNat := by
    have requests : t.requestToTicket.size = total t.tickets fun _ ticket => usage ticket .requests :=
      (sound.balance .requests).symm
    rw [requests]
    exact total_le_size_mul _ fun id ticket found => (sound.each found).filed.papers.crowd
  have product : t.tickets.size * t.config.maximumWaitersPerTicket.toNat < 2 ^ 64 := by
    have tickets := sound.few
    have fewTickets := t.config.maximumTickets.toNat_lt
    have fewWaiters := t.config.maximumWaitersPerTicket.toNat_lt
    calc t.tickets.size * t.config.maximumWaitersPerTicket.toNat
        ≤ (2 ^ 32 - 1) * (2 ^ 32 - 1) := Nat.mul_le_mul (by omega) (by omega)
      _ < 2 ^ 64 := by norm_num
  have fits : Expected.Fits ⟨∅, 0, 0, 0, 0⟩ (usages t.tickets.toList) := by
    refine ⟨fun tenant => ?_, ?_, ?_⟩
    · have bound := logicalBound tenant
      rw [balance]
      simp only [ExtTreeMap.getElem?_empty, Option.getD_none, level]
      omega
    · rw [balance, balance]
      simp only [level]
      omega
    · rw [balance]
      simp only [level]
      omega
  obtain ⟨logical, ran, adds⟩ := validateTickets_ok t.tickets.toList ⟨∅, 0, 0, 0, 0⟩ each filed fits
  have same : logical = t.logicalByTenant := by
    apply ExtTreeMap.ext_getElem?
    intro tenant
    have sum : logical[tenant]?.getD 0 = t.logicalByTenant[tenant]?.getD 0 := by
      have sum := adds.sum tenant
      rw [balance] at sum
      simpa [level, tenantLogicalBytes] using sum
    have first := adds.nonzero (by simp) tenant
    have second := sound.charged tenant
    cases one : logical[tenant]? <;> cases two : t.logicalByTenant[tenant]? <;> simp_all
  have values : ∀ bytes ∈ t.logicalByTenant.values, bytes ≤ t.config.maximumLogicalBytesPerTenant.toNat := by
    intro bytes member
    rw [values_eq_map_toList] at member
    obtain ⟨⟨tenant, _⟩, binding, rfl⟩ := List.mem_map.mp member
    have bound := logicalBound tenant
    rw [tenantLogicalBytes, mem_toList_iff.mp binding] at bound
    exact bound
  subst same
  unfold validateInvariants
  rw [if_neg (by
    rintro ⟨retired, left⟩
    obtain ⟨none, zero⟩ := sound.quiet retired
    simp [none, zero] at left)]
  refine bind_eq_ok.mpr ⟨_, okOr_eq_ok.mpr (if_pos product), ?_⟩
  refine bind_eq_ok.mpr ⟨_, sumPhysical_ok t.tickets.toList 0 (by rw [balance]; simp only [level]; omega), ?_⟩
  rw [balance, Nat.zero_add, if_neg (by simp [level, Nat.not_lt.mpr physical, Nat.not_lt.mpr sound.few,
    Nat.not_lt.mpr crowd])]
  refine bind_eq_ok.mpr ⟨_, ran, if_neg ?_⟩
  have requests : t.requestToTicket.size = (t.tickets.toList.map fun entry => entry.2.waiters.size).sum :=
    (balance .requests).symm
  simp only [Expected.plus, balance, level, Nat.zero_add, ← requests, DirectCqTracker.outstanding, shaped.fsync]
  simp only [ne_eq, not_true_eq_false, false_or, gt_iff_lt, Nat.not_lt.mpr hashes, or_false, List.any_eq_true,
    decide_eq_true_eq, Nat.add_zero]
  rintro ⟨bytes, member, more⟩
  exact absurd (values bytes member) (Nat.not_le.mpr more)

end Glmaxx.Proof.Restore
