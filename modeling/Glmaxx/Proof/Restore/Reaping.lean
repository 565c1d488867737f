import Glmaxx.Proof.Restore.Course

namespace Glmaxx.Proof.Restore
open Std Library Cache Cache.DirectRestoreTable

variable {descriptors : DirectDescriptorTable} {place generation : Nat} {retired : Bool}
  {entry : DirectDescriptorEntry}

variable {stray : Prop}
variable {t t' : DirectRestoreTable} {id : Nat} {ticket actual : DirectRestoreTicket}
  {buffer : DirectBufferId} {slot : DirectBufferSlot} {kind : DirectCompletionKind}

def pendingOf (ticket : DirectRestoreTicket) : DirectCompletionKind → Bool
  | .original => ticket.originalPending
  | .asyncCancel => ticket.cancelPending

def tokenOf (ticket : DirectRestoreTicket) : DirectCompletionKind → Option DirectCompletionToken
  | .original => ticket.originalToken
  | .asyncCancel => ticket.cancelToken

def cqKind : DirectCompletionKind → DirectCqKind
  | .original => .original
  | .asyncCancel => .asyncCancel

def cleared (ticket : DirectRestoreTicket) : DirectCompletionKind → DirectRestoreTicket
  | .original => { ticket with originalPending := false, originalToken := none }
  | .asyncCancel => { ticket with cancelPending := false, cancelToken := none }

/-- The completion is accounted for: its bit and its place in the queue are given back. -/
structure Reaped (kind : DirectCompletionKind) (token : DirectCompletionToken) (t t' : DirectRestoreTable) :
    Prop where
  cq_eq : t'.cq = t.cq.decremented (cqKind kind)
  counted : 0 < t.cq.count (cqKind kind)
  resolved : ∃ binding, t.descriptors.resolve token = .ok binding
  unresolved : ∀ binding, t'.descriptors.resolve token ≠ .ok binding

theorem Bound.keepsEntries (get : descriptors.slots[place]? = some ⟨generation, retired, some entry⟩)
    (mine : entry.binding.operationGeneration = id) (entry' : Option DirectDescriptorEntry) :
    KeepsEntries id descriptors (withEntry descriptors place generation retired entry') := by
  intro i other held getI isHeld foreign
  have different : place ≠ i := by
    rintro rfl
    rw [get] at getI
    cases getI
    cases isHeld
    exact foreign mine
  exact (List.getElem?_set_ne different).trans getI

theorem Tokens.bound (tokens : Tokens t.descriptors id ticket) (pending : pendingOf ticket kind = true) :
    ∃ buffer place generation, ticket.buffer = some buffer ∧
      tokenOf ticket kind = some (.new place generation kind) ∧
      Bound t.descriptors place generation ⟨readBinding id buffer, ticket.originalPending, ticket.cancelPending⟩ ∧
      ticket.originalToken = (if ticket.originalPending then some (.new place generation .original) else none) ∧
      ticket.cancelToken = if ticket.cancelPending then some (.new place generation .asyncCancel) else none := by
  rcases tokens with ⟨original, cancel, _⟩ | ⟨buffer, place, generation, held, _, bound, originalToken, cancelToken⟩
  · cases kind <;> simp [pendingOf, original, cancel] at pending
  · refine ⟨buffer, place, generation, held, ?_, bound, originalToken, cancelToken⟩
    cases kind with
    | original => exact originalToken.trans (if_pos pending)
    | asyncCancel => exact cancelToken.trans (if_pos pending)

theorem tokens_cleared (held : ticket.buffer = some buffer) (bound : Bound t.descriptors place generation
      ⟨readBinding id buffer, ticket.originalPending, ticket.cancelPending⟩)
    (originalToken : ticket.originalToken =
      if ticket.originalPending then some (.new place generation .original) else none)
    (cancelToken : ticket.cancelToken =
      if ticket.cancelPending then some (.new place generation .asyncCancel) else none)
    (get : descriptors.slots[place]? = some ⟨generation, retired,
      reaped ⟨readBinding id buffer, ticket.originalPending, ticket.cancelPending⟩ kind⟩) :
    Tokens descriptors id (cleared ticket kind) := by
  cases kind with
  | original =>
    by_cases cancel : ticket.cancelPending = true
    · refine .inr ⟨buffer, place, generation, held, .inr cancel, ⟨bound.inSlot, bound.positive,
        bound.inGeneration, retired, ?_⟩, rfl, cancelToken⟩
      rw [get, reaped, if_neg (by simp [DirectDescriptorEntry.clear, cancel])]
      rfl
    · rw [if_neg cancel] at cancelToken
      exact .inl ⟨rfl, Bool.not_eq_true _ ▸ cancel, rfl, cancelToken⟩
  | asyncCancel =>
    by_cases original : ticket.originalPending = true
    · refine .inr ⟨buffer, place, generation, held, .inl original, ⟨bound.inSlot, bound.positive,
        bound.inGeneration, retired, ?_⟩, originalToken, rfl⟩
      rw [get, reaped, if_neg (by simp [DirectDescriptorEntry.clear, original])]
      rfl
    · rw [if_neg original] at originalToken
      exact .inl ⟨Bool.not_eq_true _ ▸ original, rfl, originalToken, rfl⟩

theorem resolve_reaped (inSlot : place < 2 ^ 31)
    (get : descriptors.slots[place]? = some ⟨generation, retired, reaped entry kind⟩)
    (binding : DirectDescriptorBinding) : descriptors.resolve (.new place generation kind) ≠ .ok binding := by
  intro resolved
  obtain ⟨slot, found, resolved⟩ := bind_eq_ok.mp resolved
  obtain ⟨left, isLeft, resolved⟩ := bind_eq_ok.mp resolved
  rw [token_kind kind inSlot] at resolved
  have same : slot = ⟨generation, retired, reaped entry kind⟩ := by
    unfold DirectDescriptorTable.slot at found
    rw [token_slot kind inSlot, get] at found
    split at found
    · cases found
    · change (if _ then _ else _) = _ at found
      split at found
      · cases found
      · cases found
        rfl
  subst same
  unfold reaped at isLeft
  split at isLeft
  · cases isLeft
  · cases isLeft
    rw [if_pos (by cases kind <;> rfl)] at resolved
    cases resolved

theorem outstanding_withEntry (get : descriptors.slots[place]? = some ⟨generation, retired, some entry⟩)
    (entry' : Option DirectDescriptorEntry) :
    (withEntry descriptors place generation retired entry').outstandingDescriptors + 1 =
      descriptors.outstandingDescriptors + if entry'.isSome then 1 else 0 :=
  countP_set_of_get (fun slot : DirectDescriptorSlot => slot.entry.isSome) ⟨generation, retired, entry'⟩ get

theorem Books.reap (books : Books stray t id (some ticket))
    {binding : DirectDescriptorBinding} (mine : binding.operationGeneration = id)
    (get : t.descriptors.slots[place]? =
      some ⟨generation, retired, some ⟨binding, ticket.originalPending, ticket.cancelPending⟩⟩)
    (pending : pendingOf ticket kind = true) (counted : t.cq.count (cqKind kind) ≠ 0) :
    Books stray { t with
      descriptors := withEntry t.descriptors place generation retired
        (reaped ⟨binding, ticket.originalPending, ticket.cancelPending⟩ kind)
      cq := t.cq.decremented (cqKind kind) } id (some (cleared ticket kind)) := by
  have outstanding := outstanding_withEntry get
    (reaped ⟨binding, ticket.originalPending, ticket.cancelPending⟩ kind)
  refine books.update {
    entries := Bound.keepsEntries get mine _
    levels := fun resource => ?_
    bounded := fun resource => ?_
    ownRequests := fun request same => same.trans (by cases kind <;> simp [cleared])
    lease := fun new _ isOwn holds => .inl ⟨ticket, rfl, ?_⟩
    shaped := fun shaped => { shaped with
      descriptors := (List.length_set ..).trans shaped.descriptors
      cqCapacity := by cases kind <;> exact shaped.cqCapacity
      cqEntries := by cases kind <;> exact shaped.cqEntries
      fsync := by cases kind <;> exact shaped.fsync } }
  · cases resource with
    | descriptors =>
      have used : usage ticket .descriptors = 1 := by
        cases kind
        · exact if_pos (.inl pending)
        · exact if_pos (.inr pending)
      have left : usage (cleared ticket kind) .descriptors =
          if (reaped ⟨binding, ticket.originalPending, ticket.cancelPending⟩ kind).isSome then 1 else 0 := by
        cases kind with
        | original =>
          cases cancel : ticket.cancelPending <;>
            simp [usage, cleared, reaped, DirectDescriptorEntry.clear, cancel]
        | asyncCancel =>
          cases original : ticket.originalPending <;>
            simp [usage, cleared, reaped, DirectDescriptorEntry.clear, original]
      show _ + usage ticket .descriptors = _ + usage (cleared ticket kind) .descriptors
      rw [used, left]
      exact outstanding
    | originals =>
      cases kind with
      | original =>
        have used : usage ticket .originals = 1 := if_pos pending
        have positive : t.cq.original ≠ 0 := counted
        show t.cq.original - 1 + usage ticket .originals = t.cq.original + 0
        omega
      | asyncCancel => rfl
    | cancels =>
      cases kind with
      | original => rfl
      | asyncCancel =>
        have used : usage ticket .cancels = 1 := if_pos pending
        have positive : t.cq.cancel ≠ 0 := counted
        show t.cq.cancel - 1 + usage ticket .cancels = t.cq.cancel + 0
        omega
    | _ => cases kind <;> rfl
  · cases resource with
    | descriptors | originals | cancels => exact .inr fun _ none => by cases none
    | _ => exact .inl (by cases kind <;> exact le_rfl)
  · cases isOwn
    cases kind <;> exact holds

theorem reap_ok (books : Books stray t id (some ticket)) (tokens : Tokens t.descriptors id ticket)
    (pending : pendingOf ticket kind = true) :
    ∃ buffer token t', ticket.buffer = some buffer ∧ tokenOf ticket kind = some token ∧
      reap id buffer token (cqKind kind) t = (.ok (), t') ∧ Books stray t' id (some (cleared ticket kind)) ∧
      Tokens t'.descriptors id (cleared ticket kind) ∧ Touches id t t' ∧ t'.buffers = t.buffers ∧
      t'.tickets = t.tickets ∧ t'.activeHashJobs = t.activeHashJobs ∧ Reaped kind token t t' := by
  obtain ⟨buffer, place, generation, held, isToken, bound, originalToken, cancelToken⟩ := tokens.bound pending
  have isPending : (DirectDescriptorEntry.mk (readBinding id buffer) ticket.originalPending
      ticket.cancelPending).pending kind = true := by
    cases kind <;> exact pending
  have counted : t.cq.count (cqKind kind) ≠ 0 := by
    have drawn := books.spent_le (match kind with | .original => .originals | .asyncCancel => .cancels)
    cases kind with
    | original =>
      have one : spent (some ticket) .originals = 1 := if_pos pending
      change spent (some ticket) .originals ≤ t.cq.original at drawn
      show t.cq.original ≠ 0
      omega
    | asyncCancel =>
      have one : spent (some ticket) .cancels = 1 := if_pos pending
      change spent (some ticket) .cancels ≤ t.cq.cancel at drawn
      show t.cq.cancel ≠ 0
      omega
  have resolved := resolve_ok bound isPending
  obtain ⟨retired, get, completed⟩ := complete_ok bound isPending
  have inside := (List.getElem?_eq_some_iff.mp get).1
  have gone : (withEntry t.descriptors place generation retired
      (reaped ⟨readBinding id buffer, ticket.originalPending, ticket.cancelPending⟩ kind)).slots[place]? =
      some ⟨generation, retired, _⟩ := List.getElem?_set_self inside
  have checked : t.cq.validateCompletion (cqKind kind) = .ok () := if_neg counted
  refine ⟨buffer, _, { t with descriptors := _, cq := t.cq.decremented (cqKind kind) }, held, isToken, ?_, ?_,
    tokens_cleared held bound originalToken cancelToken gone, ⟨rfl, rfl, rfl, rfl, fun _ _ => rfl⟩, rfl, rfl, rfl,
    rfl, Nat.pos_of_ne_zero counted, ⟨_, resolved⟩, resolve_reaped bound.inSlot gone⟩
  · refine (Action.bind_ok (Action.reads_ok (by rw [resolved]; rfl))).trans ?_
    refine (Action.bind_ok (Action.failIf_neg (by simp))).trans ?_
    refine (Action.bind_ok (Action.reads_ok (by exact checked))).trans ?_
    refine (Action.bind_ok (onDescriptors_ok completed)).trans ?_
    exact onCq_ok (bind_eq_ok.mpr ⟨(), checked, rfl⟩)
  · exact books.reap rfl get pending counted

theorem Papers.cleared {config : DirectRestoreConfig} (papers : Papers config ticket) :
    Papers config (cleared ticket kind) := by
  cases kind <;> exact { papers with }

theorem reapTicket_ok (kind : DirectCompletionKind) (sound : Sound stray t) (found : t.tickets[id]? = some ticket)
    (pending : pendingOf ticket kind = true) :
    ∃ buffer slot token t₀ t₁, tokenOf ticket kind = some token ∧
      reap id buffer token (cqKind kind) t = (.ok (), t₀) ∧ ticketMut id (cleared · kind) t₀ = (.ok (), t₁) ∧
      Engaged stray t₁ id (cleared ticket kind) buffer slot ∧ slot.state = bufferPhase ticket ∧ Touches id t t₁ ∧
      t₁.activeHashJobs ≤ t.activeHashJobs ∧ Reaped kind token t t₁ := by
  have used : ticket.state ≠ .planned := by
    intro planned
    have phase := (sound.each found).filed.phase
    rw [Phase, planned] at phase
    cases kind with
    | original => exact Bool.false_ne_true (phase.1.symm.trans pending)
    | asyncCancel => exact Bool.false_ne_true (phase.2.1.symm.trans pending)
  obtain ⟨buffer, slot, ⟨books, -, papers, tokens, held, leased⟩, phase⟩ := sound.engaged found used
  obtain ⟨_, token, t₀, same, isToken, ran, books₀, tokens₀, touches₀, buffers₀, tickets₀, hashes₀, reaped⟩ :=
    reap_ok books tokens pending
  cases held.symm.trans same
  obtain ⟨t₁, wrote, books₁, ⟨touches₁, descriptors₁, cq₁, hashes₁⟩, buffers₁, found₁⟩ :=
    ticketMut_books books₀ (tickets₀ ▸ found) (cleared · kind)
  have touches := touches₀.trans touches₁
  refine ⟨buffer, slot, token, t₀, t₁, isToken, ran, wrote, ⟨books₁, found₁, touches.config_eq ▸ papers.cleared,
    descriptors₁ ▸ tokens₀, ?_, ?_⟩, phase, touches, hashes₀ ▸ hashes₁, { reaped with
      cq_eq := cq₁ ▸ reaped.cq_eq
      unresolved := descriptors₁ ▸ reaped.unresolved }⟩
  · cases kind <;> exact held
  · rw [buffers₁, buffers₀]
    exact leased

end Glmaxx.Proof.Restore
