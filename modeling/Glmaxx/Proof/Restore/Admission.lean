import Glmaxx.Proof.Restore.Course

namespace Glmaxx.Proof.Restore
open Std Library Cache Cache.DirectRestoreTable

variable {stray : Prop}
variable {t t' : DirectRestoreTable} {id request tenant bytes : Nat} {ticket : DirectRestoreTicket}
  {waiter : DirectRestoreWaiter} {logical : ExtTreeMap Nat Nat}

section Charge

def debited (logical : ExtTreeMap Nat Nat) (tenant bytes : Nat) : ExtTreeMap Nat Nat :=
  logical.insert tenant (logical[tenant]?.getD 0 + bytes)

theorem validateTenantCharge_ok {result : Unit} (ok : (do
      let next ← okOr (checkedAdd 64 (t.tenantLogicalBytes tenant) bytes) DirectRestoreError.overflow
      if next > t.config.maximumLogicalBytesPerTenant.toNat then
        throw .tenantCapacity : Except DirectRestoreError Unit) = .ok result) :
    checkedAdd 64 (t.tenantLogicalBytes tenant) bytes = some (t.tenantLogicalBytes tenant + bytes) ∧
      t.tenantLogicalBytes tenant + bytes ≤ t.config.maximumLogicalBytesPerTenant.toNat := by
  obtain ⟨next, sum, ok⟩ := bind_eq_ok.mp ok
  have sum := okOr_eq_ok.mp sum
  cases checkedAdd_some sum
  refine ⟨sum, ?_⟩
  by_contra excess
  rw [if_pos (Nat.not_le.mp excess)] at ok
  cases ok

theorem chargeTenant_ok
    (sum : checkedAdd 64 (t.tenantLogicalBytes tenant) bytes = some (t.tenantLogicalBytes tenant + bytes))
    (room : t.tenantLogicalBytes tenant + bytes ≤ t.config.maximumLogicalBytesPerTenant.toNat) :
    chargeTenant tenant bytes t =
      (.ok (), { t with logicalByTenant := debited t.logicalByTenant tenant bytes }) := by
  refine (Action.bind_ok (Action.reads_ok (a := ()) ?_)).trans ?_
  · exact bind_eq_ok.mpr ⟨_, okOr_eq_ok.mpr sum, if_neg (Nat.not_lt.mpr room)⟩
  · refine (Action.bind_ok rfl).trans ?_
    refine Action.updates_ok (bind_eq_ok.mpr ⟨t.tenantLogicalBytes tenant + bytes, okOr_eq_ok.mpr ?_, ?_⟩)
    · simpa [tenantLogicalBytes] using sum
    · show Except.ok ((), _) = _
      rw [insert_insert_same]
      rfl

theorem getD_debited (key : Nat) : (debited logical tenant bytes)[key]?.getD 0 =
    logical[key]?.getD 0 + if tenant = key then bytes else 0 := by
  unfold debited
  rw [ExtTreeMap.getElem?_insert]
  by_cases here : tenant = key
  · subst here
    simp
  · simp [here]

theorem debited_ne_zero (nonzero : ∀ key : Nat, logical[key]? ≠ some 0) (some_bytes : 0 < bytes) (key : Nat) :
    (debited logical tenant bytes)[key]? ≠ some 0 := by
  unfold debited
  rw [ExtTreeMap.getElem?_insert]
  split
  · simp
    omega
  · exact nonzero key

theorem charge_insert {waiters : ExtTreeMap Nat DirectRestoreWaiter} (absent : waiters[request]? = none)
    (key : Nat) : charge (waiters.insert request waiter) key =
      (if waiter.tenantId = key then waiter.requiredCapability.logicalBytes else 0) + charge waiters key :=
  total_insert_new _ waiter absent

theorem Books.fresh (books : Books stray t id (some ticket)) (absent : t.requestToTicket[request]? = none) :
    ticket.waiters[request]? = none := by
  cases found : ticket.waiters[request]? with
  | none => rfl
  | some other =>
    have waiting : request ∈ ticket.waiters := by
      rw [ExtTreeMap.mem_iff_isSome_getElem?, found]
      rfl
    have filed := (books.ownRequests request).mpr ⟨ticket, rfl, waiting⟩
    rw [absent] at filed
    cases filed

theorem Books.addRequest (books : Books stray t id (some ticket)) (waiter : DirectRestoreWaiter) (absent : t.requestToTicket[request]? = none)
    (room : t.tenantLogicalBytes waiter.tenantId + waiter.requiredCapability.logicalBytes ≤
      t.config.maximumLogicalBytesPerTenant.toNat) :
    Books stray { t with
      requestToTicket := t.requestToTicket.insert request id
      logicalByTenant := debited t.logicalByTenant waiter.tenantId waiter.requiredCapability.logicalBytes } id
      (some { ticket with waiters := ticket.waiters.insert request waiter }) := by
  have new := books.fresh absent
  have grows : (ticket.waiters.insert request waiter).size = ticket.waiters.size + 1 := by
    rw [size_eq_total, total_insert_new _ _ new, ← size_eq_total]
    omega
  have files : (t.requestToTicket.insert request id).size = t.requestToTicket.size + 1 := by
    rw [size_eq_total, total_insert_new _ _ absent, ← size_eq_total]
    omega
  refine books.update {
    levels := fun resource => ?_
    bounded := fun resource => ?_
    requests := fun other j different => ?_
    ownRequests := fun other same => ?_
    charged := fun _ zero => absurd zero (debited_ne_zero books.charged (logicalBytes_pos _) _) }
  · cases resource with
    | requests =>
      show (t.requestToTicket.insert request id).size + ticket.waiters.size =
        t.requestToTicket.size + (ticket.waiters.insert request waiter).size
      omega
    | logical key =>
      show (debited t.logicalByTenant waiter.tenantId waiter.requiredCapability.logicalBytes)[key]?.getD 0 +
        charge ticket.waiters key = t.logicalByTenant[key]?.getD 0 +
          charge (ticket.waiters.insert request waiter) key
      rw [getD_debited, charge_insert new key]
      omega
    | _ => rfl
  · cases resource with
    | requests => exact .inr fun _ none => by cases none
    | logical key =>
      by_cases here : waiter.tenantId = key
      · subst here
        refine .inr fun bound limited => ?_
        cases limited
        show (debited _ _ _)[_]?.getD 0 ≤ _
        rw [getD_debited, if_pos rfl]
        exact room
      · refine .inl ?_
        show charge (ticket.waiters.insert request waiter) key ≤ charge ticket.waiters key
        rw [charge_insert new key, if_neg here, Nat.zero_add]
    | _ => exact .inl le_rfl
  · show (t.requestToTicket.insert request id)[other]? = _ ↔ _
    rw [ExtTreeMap.getElem?_insert]
    by_cases here : request = other
    · subst here
      simpa [absent] using different.symm
    · simp [here]
  · show (t.requestToTicket.insert request id)[other]? = _ ↔ _
    rw [ExtTreeMap.getElem?_insert]
    by_cases here : request = other
    · subst here
      simp
    · rw [if_neg (by simpa using here), same]
      simp [ExtTreeMap.mem_insert, here]

end Charge

section Plan
variable {config : DirectRestoreConfig} {demand : DirectRestoreRequest} {record : DirectExtentRecord}
  {catalogEpoch : Nat} {catalogRecordSha256 : Bytes32}

theorem Papers.join (papers : Papers config ticket) (absent : ticket.waiters[demand.requestId]? = none)
    (crowd : ticket.waiters.size < config.maximumWaitersPerTicket.toNat) (requested : demand.requestId ≠ 0)
    (tenant : demand.tenantId ≠ 0)
    (capable : capabilitySatisfies ticket.record.capability demand.requiredCapability = true) :
    Papers config { ticket with waiters := ticket.waiters.insert demand.requestId (waiterOf demand) } where
  record := papers.record
  epoch := papers.epoch
  digest := papers.digest
  crowd := by
    show (ticket.waiters.insert demand.requestId (waiterOf demand)).size ≤ _
    rw [size_eq_total, total_insert_new _ _ absent, ← size_eq_total]
    omega
  waiter request waiter found := by
    change (ticket.waiters.insert demand.requestId (waiterOf demand))[request]? = _ at found
    rw [ExtTreeMap.getElem?_insert] at found
    split at found
    next here =>
      cases found
      exact ⟨Std.compare_eq_iff_eq.mp here ▸ requested, tenant, capable⟩
    next => exact papers.waiter request waiter found

theorem compatibleTicket_found
    (first : t.compatibleTicket record catalogEpoch catalogRecordSha256 demand.requiredCapability = some id) :
    ∃ ticket, t.tickets[id]? = some ticket ∧ ticket.record = record ∧
      capabilitySatisfies ticket.record.capability demand.requiredCapability = true ∧
      ¬(ticket.state = .abandoned ∨ ticket.state = .failed) := by
  obtain ⟨⟨_, ticket⟩, isFirst, rfl⟩ := Option.map_eq_some_iff.mp first
  have member := List.mem_of_find?_eq_some isFirst
  have accepted := List.find?_some isFirst
  simp only [decide_eq_true_eq] at accepted
  exact ⟨ticket, mem_toList_iff.mp member, accepted.1, accepted.2.2.2⟩

/-- What `plan` has checked of a request before it looks for a ticket. -/
structure Admissible (t : DirectRestoreTable) (demand : DirectRestoreRequest) : Prop where
  requested : demand.requestId ≠ 0
  tenant : demand.tenantId ≠ 0
  absent : t.requestToTicket[demand.requestId]? = none
  sum : checkedAdd 64 (t.tenantLogicalBytes demand.tenantId) demand.requiredCapability.logicalBytes =
    some (t.tenantLogicalBytes demand.tenantId + demand.requiredCapability.logicalBytes)
  room : t.tenantLogicalBytes demand.tenantId + demand.requiredCapability.logicalBytes ≤
    t.config.maximumLogicalBytesPerTenant.toNat

inductive Admitted (stray : Prop) (demand : DirectRestoreRequest) (record : DirectExtentRecord)
    (t : DirectRestoreTable) : DirectRestoreAdmission → DirectRestoreTable → Prop where
  | joined {id : Nat} {ticket : DirectRestoreTicket} {t' : DirectRestoreTable} (found : t.tickets[id]? = some ticket)
      (isRecord : ticket.record = record) (waited : ¬(ticket.state = .abandoned ∨ ticket.state = .failed))
      (settled : Settled stray id
        (some { ticket with waiters := ticket.waiters.insert demand.requestId (waiterOf demand) }) t t') :
      Admitted stray demand record t (.joined id) t'
  | created {new : DirectRestoreTicket} {t' : DirectRestoreTable} (steady : Steady stray t')
      (absent : t.tickets[t.nextTicket]? = none) (tickets_eq : t'.tickets = t.tickets.insert t.nextTicket new)
      (later : t.nextTicket ≤ t'.nextTicket) (isRecord : new.record = record) (state : new.state = .planned)
      (waiters : new.waiters = (∅ : ExtTreeMap Nat DirectRestoreWaiter).insert demand.requestId (waiterOf demand)) :
      Admitted stray demand record t (.created t.nextTicket) t'

theorem joinTicket_ends (steady : Steady stray t) (admissible : Admissible t demand)
    (first : t.compatibleTicket record catalogEpoch catalogRecordSha256 demand.requiredCapability = some id) :
    Action.Ends (joinTicket demand id) t (Admitted stray demand record t) fun _ t' => t' = t := by
  have sound := steady.sound
  obtain ⟨ticket, found, isRecord, capable, waited⟩ := compatibleTicket_found first
  have each := sound.each found
  have books : Books stray t id (some ticket) := found ▸ sound.open id
  refine Action.Ends.step rfl ?_
  refine Action.Ends.step (ticket_ok found) ?_
  refine Action.Ends.failIf (fun _ => rfl) fun crowd => ?_
  have joined := (books.addRequest (waiterOf demand) admissible.absent admissible.room).setTicket
    (by exact found) { ticket with waiters := ticket.waiters.insert demand.requestId (waiterOf demand) }
  have settled := joined.settle (t := t) (by simp)
    ⟨⟨rfl, rfl, rfl, rfl, (touches_insert t id _).tickets_eq⟩, rfl, rfl, le_rfl⟩ <| by
    refine ⟨⟨each.filed.papers.join (books.fresh admissible.absent) (Nat.not_le.mp crowd) admissible.requested
      admissible.tenant capable, ?_, each.filed.phase⟩, each.leases, each.tokens⟩
    simpa using waited
  refine Action.Ends.of_ok ?_ (Admitted.joined found isRecord waited settled)
  refine (Action.bind_ok (chargeTenant_ok admissible.sum admissible.room)).trans ?_
  exact Action.bind_ok (ticketMut_ok (by exact found) _)

theorem Sound.bump (sound : Sound stray t) : Sound stray { t with nextTicket := t.nextTicket + 1 } :=
  { (show Books stray t 0 none from sound) with
    others := fun j ticket other found => { sound.others j ticket other found with }
    ids := fun j ticket found => (sound.ids j ticket found).imp_right Nat.lt_succ_of_lt
    positive := Nat.succ_pos _ }

theorem Books.openTicket (books : Books stray t id none) (absent : t.tickets[id]? = none)
    (below : 0 < id ∧ id < t.nextTicket) (few : t.tickets.size + 1 ≤ t.config.maximumTickets.toNat)
    (spentTicket : Spent ticket) (idle : holdsBuffer ticket.state = false) (alone : ticket.waiters = ∅)
    (unleased : ticket.buffer = none)
    (room : t.physicalBytes + ticket.record.physicalLength ≤ t.config.maximumPhysicalBytes.toNat)
    (actual : DirectRestoreTicket) :
    Books stray { t with
      tickets := t.tickets.insert id actual
      physicalBytes := t.physicalBytes + ticket.record.physicalLength } id (some ticket) := by
  have grows : (t.tickets.insert id actual).size = t.tickets.size + 1 := by
    rw [size_eq_total, total_insert_new _ _ absent, ← size_eq_total]
    omega
  refine books.update {
    touches := ⟨rfl, rfl, rfl, rfl, (touches_insert t id actual).tickets_eq⟩
    ids := fun _ _ => .inr below
    few := .inr (grows.trans_le few)
    levels := fun resource => ?_
    bounded := fun resource => ?_
    ownRequests := fun request same => same.trans (by simp [alone])
    lease := fun new _ isOwn holds => ?_ }
  · by_cases physical : resource = .physical
    · subst physical
      rfl
    · have nothing := usage_of_spent spentTicket idle alone physical
      cases resource with
      | physical => exact absurd rfl physical
      | _ => exact (congrArg (_ + ·) nothing).symm
  · by_cases physical : resource = .physical
    · subst physical
      refine .inr fun bound limited => ?_
      cases limited
      exact room
    · exact .inl (usage_of_spent spentTicket idle alone physical).le
  · cases isOwn
    rw [unleased] at holds
    cases holds

theorem createTicket_ends (steady : Steady stray t) (admissible : Admissible t demand)
    (valid : record.validate = .ok ()) (epoch : catalogEpoch ≠ 0) (digest : catalogRecordSha256 ≠ Bytes32.zero)
    (capable : capabilitySatisfies record.capability demand.requiredCapability = true) :
    Action.Ends (createTicket demand record catalogEpoch catalogRecordSha256) t (Admitted stray demand record t)
      fun _ t' => t' = t := by
  have sound := steady.sound
  refine Action.Ends.step rfl ?_
  refine Action.Ends.failIf (fun _ => rfl) fun few => ?_
  refine Action.Ends.reads (fun physical sum => ?_) fun _ _ => rfl
  cases checkedAdd_some (okOr_eq_ok.mp sum)
  refine Action.Ends.failIf (fun _ => rfl) fun room => ?_
  refine Action.Ends.reads (fun next sum => ?_) fun _ _ => rfl
  cases checkedAdd_some (okOr_eq_ok.mp sum)
  have unused : t.tickets[t.nextTicket]? = none := by
    cases found : t.tickets[t.nextTicket]? with
    | none => rfl
    | some ticket => exact absurd (sound.ids _ ticket found).2 (Nat.lt_irrefl _)
  let blank : DirectRestoreTicket :=
    { record, catalogEpoch, catalogRecordSha256, state := .planned, buffer := none, waiters := ∅,
      originalPending := false, cancelPending := false, originalToken := none, cancelToken := none,
      hashState := .none }
  let ticket : DirectRestoreTicket :=
    { blank with waiters := (∅ : ExtTreeMap Nat DirectRestoreWaiter).insert demand.requestId (waiterOf demand) }
  have bumped : Books stray { t with nextTicket := t.nextTicket + 1 } t.nextTicket none := by
    rw [← unused]
    exact sound.bump.open t.nextTicket
  have papers : Papers t.config blank := ⟨valid, epoch, digest, Nat.zero_le _, by simp [blank]⟩
  have opened : Books stray _ t.nextTicket (some blank) := bumped.openTicket (by exact unused)
    ⟨sound.positive, Nat.lt_succ_self _⟩ (Nat.not_le.mp few) ⟨rfl, rfl, rfl, rfl, rfl⟩ rfl rfl rfl
    (Nat.not_lt.mp room) ticket
  have sound' := (opened.addRequest (waiterOf demand) admissible.absent admissible.room).close
    (by simp [ticket, blank]) <| by
    intro last same
    cases same
    refine ⟨⟨papers.join (by simp [blank]) sound.shaped.waiters admissible.requested admissible.tenant capable,
      by simp, rfl, rfl, rfl⟩, .inl ⟨rfl, rfl⟩, .inl ⟨rfl, rfl, rfl, rfl⟩⟩
  refine Action.Ends.of_ok ?_
    (Admitted.created ⟨sound', steady.idle⟩ unused rfl (Nat.le_succ _) rfl rfl rfl)
  refine (Action.bind_ok rfl).trans ?_
  refine (Action.bind_ok (chargeTenant_ok (by exact admissible.sum) (by exact admissible.room))).trans ?_
  rfl

theorem plan_ends (steady : Steady stray t) : Action.Ends (plan demand record catalogEpoch catalogRecordSha256) t
      (fun admission t' => capabilitySatisfies record.capability demand.requiredCapability = true ∧
        Admitted stray demand record t admission t')
      fun _ t' => t' = t := by
  refine Action.Ends.reads (fun _ valid => ?_) fun _ _ => rfl
  refine Action.Ends.reads (fun _ recorded => ?_) fun _ _ => rfl
  refine Action.Ends.failIf (fun _ => rfl) fun catalog => ?_
  refine Action.Ends.failIf (fun _ => rfl) fun capable => ?_
  have capable : capabilitySatisfies record.capability demand.requiredCapability = true := by simpa using capable
  refine Action.Ends.step rfl ?_
  refine Action.Ends.failIf (fun _ => rfl) fun absent => ?_
  refine Action.Ends.reads (fun _ charges => ?_) fun _ _ => rfl
  obtain ⟨sum, room⟩ := validateTenantCharge_ok charges
  have named : ¬(demand.requestId = 0 ∨ demand.tenantId = 0) := by
    intro unnamed
    unfold validateRestoreRequest at valid
    rw [if_pos unnamed] at valid
    cases valid
  have recorded : record.validate = .ok () := by
    unfold validateRecord at recorded
    split at recorded
    next same => exact same
    next => cases recorded
  have unfiled : t.requestToTicket[demand.requestId]? = none := by
    rwa [ExtTreeMap.mem_iff_isSome_getElem?, Option.not_isSome_iff_eq_none] at absent
  have admissible : Admissible t demand :=
    ⟨fun zero => named (.inl zero), fun zero => named (.inr zero), unfiled, sum, room⟩
  cases first : t.compatibleTicket record catalogEpoch catalogRecordSha256 demand.requiredCapability with
  | some id => exact (joinTicket_ends steady admissible first).mono (fun _ _ => .intro capable) fun _ _ same => same
  | none =>
    exact (createTicket_ends steady admissible recorded (fun zero => catalog (.inl zero))
      (fun zero => catalog (.inr zero)) capable).mono (fun _ _ => .intro capable) fun _ _ same => same

theorem plan_follows (steady : Steady stray t) :
    Follows stray (.plan demand record catalogEpoch catalogRecordSha256) t
      (plan demand record catalogEpoch catalogRecordSha256 t).2 := by
  have ends : Action.Ends (plan demand record catalogEpoch catalogRecordSha256) t _ _ := plan_ends steady
  unfold Action.Ends at ends
  split at ends
  next admission t' ran =>
    obtain ⟨capable, admitted⟩ := ends
    have reply : (plan demand record catalogEpoch catalogRecordSha256 t).1 = .ok admission := by rw [ran]
    rw [ran]
    cases admitted with
    | joined found isRecord waited settled => exact settled.follows steady found (.joined reply capable isRecord waited)
    | created steady' absent tickets_eq later isRecord state waiters =>
      refine ⟨steady', fun id => ?_, later⟩
      by_cases fresh : id = t.nextTicket
      · subst fresh
        rw [absent, tickets_eq, ExtTreeMap.getElem?_insert_self]
        exact .created reply rfl capable isRecord state waiters
      · rw [tickets_eq, getElem?_insert_ne fresh]
        exact .same _ _
  next e t' ran =>
    rw [ran, ends]
    exact steady.rest

end Plan

end Glmaxx.Proof.Restore
