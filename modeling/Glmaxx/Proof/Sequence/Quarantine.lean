import Glmaxx.Proof.Sequence.Runs

namespace Glmaxx.Proof.Sequence
open Std Library Cache Cache.SequencePageTable

variable {k generation id : Nat} {call : TableCall} {rank : Fin 4}

variable {t : SequencePageTable}

def stateAt (start : SequencePageTable) (calls : List TableCall) (k : Nat) : SequencePageTable :=
  start.run (calls.take k)

theorem stateAt_succ {start : SequencePageTable} {calls : List TableCall} (get : calls[k]? = some call) :
    stateAt start calls (k + 1) = ((stateAt start calls k).call call).2 :=
  foldl_take_succ (fun (table : SequencePageTable) call => (table.call call).2) get

theorem call_bound (bound : t.quarantineGeneration = some generation)
    (other : call ≠ .acknowledgeReuseQuarantine generation) :
    (t.call call).1 = .error .transaction ∧ (t.call call).2 = t := by
  have refused : t.requireUnboundQuarantine = .error .transaction := by
    simp [SequencePageTable.requireUnboundQuarantine, bound]
  cases call with
  | bindReuseQuarantine g =>
    simp [SequencePageTable.call, SequencePageTable.bindReuseQuarantine, bound, Except.map]
  | acknowledgeReuseQuarantine g =>
    have different : generation ≠ g := fun same => other (by rw [same])
    simp [SequencePageTable.call, SequencePageTable.acknowledgeReuseQuarantine, bound, different, Except.map]
  | admitWithPrefix id mtp prefixPages =>
    simp [SequencePageTable.call, SequencePageTable.admitWithPrefix, refused]
  | appendCommitted id tokenCount =>
    simp [SequencePageTable.call, SequencePageTable.appendCommitted, refused]
  | forkSequence source destination =>
    simp [SequencePageTable.call, SequencePageTable.forkSequence, refused]
  | beginTentative id requested =>
    simp [SequencePageTable.call, SequencePageTable.beginTentative, refused]
  | commitTentative id committed =>
    simp [SequencePageTable.call, SequencePageTable.commitTentative, refused]
  | rollbackTentative id =>
    simp [SequencePageTable.call, SequencePageTable.rollbackTentative, refused]
  | removeSequence id =>
    simp [SequencePageTable.call, SequencePageTable.removeSequence, refused]

theorem call_acknowledge (bound : t.quarantineGeneration = some generation) :
    (t.call (.acknowledgeReuseQuarantine generation)).1 = .ok () ∧
      (t.call (.acknowledgeReuseQuarantine generation)).2.quarantineGeneration = none := by
  simp [SequencePageTable.call, SequencePageTable.acknowledgeReuseQuarantine, bound, Except.map]

/-- Only a successful `bind_reuse_quarantine` binds a generation. -/
theorem call_binds (valid : Valid t) (before : t.quarantineGeneration ≠ some generation)
    (after : (t.call call).2.quarantineGeneration = some generation) :
    call = .bindReuseQuarantine generation ∧ (t.bindReuseQuarantine generation).1 = .ok true := by
  rcases call_kind call with pages | ⟨g, rfl⟩ | ⟨g, rfl⟩
  · rw [(call_served valid pages).moves.generation_eq] at after
    exact absurd after before
  · simp only [SequencePageTable.call, SequencePageTable.bindReuseQuarantine] at after ⊢
    repeat' split at after
    · exact absurd after before
    · exact absurd after before
    next allowed nonempty =>
      obtain rfl : g = generation := by simpa using after
      simp [allowed, nonempty]
  · simp only [SequencePageTable.call, SequencePageTable.acknowledgeReuseQuarantine] at after
    split at after
    · exact absurd after before
    · cases after

/-- An id space of the table: which ids of a rank are free, and which are in use. -/
structure IdSpace where
  free : SequencePageTable → Fin 4 → Finset Nat
  Used : SequencePageTable → Fin 4 → Nat → Prop
  exclusive : ∀ t, Valid t → ∀ rank id, Used t rank id → id ∉ free t rank
  shrinks : ∀ t t', Moves t t' → ∀ rank, free t' rank ⊆ free t rank
  source : ∀ t t', Moves t t' → ∀ rank id, Used t' rank id → Used t rank id ∨ id ∈ free t rank
  bind_eq : ∀ t generation, free (t.bindReuseQuarantine generation).2 = free t ∧
    Used (t.bindReuseQuarantine generation).2 = Used t
  acknowledge_used : ∀ t generation, Used (t.acknowledgeReuseQuarantine generation).2 = Used t

def targetIds : IdSpace where
  free t := t.freeTarget
  Used t rank id := (⟨rank, id⟩ : PhysicalPageId) ∈ t.physical
  exclusive t valid rank id used := (valid.holding.pool.target_used ⟨rank, id⟩ used).1
  shrinks _ _ moves := moves.freeTarget_subset
  source _ _ moves rank id used := moves.target_source ⟨rank, id⟩ used
  bind_eq t generation := by
    unfold SequencePageTable.bindReuseQuarantine
    repeat' split
    all_goals exact ⟨rfl, rfl⟩
  acknowledge_used t generation := by
    unfold SequencePageTable.acknowledgeReuseQuarantine
    split <;> rfl

def draftIds : IdSpace where
  free t := t.freeDraft
  Used := holdsDraft
  exclusive t valid rank draft used := (valid.holding.pool.draft_used rank draft used).1
  shrinks _ _ moves := moves.freeDraft_subset
  source _ _ moves := moves.draft_source
  bind_eq t generation := by
    unfold SequencePageTable.bindReuseQuarantine
    repeat' split
    all_goals exact ⟨rfl, rfl⟩
  acknowledge_used t generation := by
    unfold SequencePageTable.acknowledgeReuseQuarantine
    split <;> rfl

section Reuse
variable {config : PageTableConfig} {start : SequencePageTable} {calls : List TableCall}

/-- Between steps `i` and `j` a generation was bound and acknowledged, and every call in between was
refused. -/
def Acknowledged (start : SequencePageTable) (calls : List TableCall) (i j : Nat) : Prop :=
  ∃ b a generation, i < b ∧ b < a ∧ a < j ∧
    calls[b]? = some (.bindReuseQuarantine generation) ∧
    ((stateAt start calls b).bindReuseQuarantine generation).1 = .ok true ∧
    calls[a]? = some (.acknowledgeReuseQuarantine generation) ∧
    ((stateAt start calls a).call (.acknowledgeReuseQuarantine generation)).1 = .ok () ∧
    ∀ k call, b < k → k < a → calls[k]? = some call →
      ((stateAt start calls k).call call).1 = .error .transaction ∧
      stateAt start calls (k + 1) = stateAt start calls k

def ReusedAcknowledged (start : SequencePageTable) (calls : List TableCall)
    (used : SequencePageTable → Prop) : Prop :=
  ∀ i j, i < j → used (stateAt start calls i) → ¬used (stateAt start calls (i + 1)) →
    ¬used (stateAt start calls j) → used (stateAt start calls (j + 1)) → Acknowledged start calls i j

theorem stateAt_valid (accepted : SequencePageTable.new config = .ok start) (k : Nat) :
    Valid (stateAt start calls k) :=
  (run_valid accepted (calls.take k)).1

theorem stateAt_changes (start : SequencePageTable) (calls : List TableCall) (k : Nat)
    (changes : stateAt start calls (k + 1) ≠ stateAt start calls k) :
    ∃ call, calls[k]? = some call ∧
      stateAt start calls (k + 1) = ((stateAt start calls k).call call).2 := by
  cases get : calls[k]? with
  | some call => exact ⟨call, rfl, stateAt_succ get⟩
  | none =>
    refine absurd ?_ changes
    have short : calls.length ≤ k := List.getElem?_eq_none_iff.mp get
    simp only [stateAt, List.take_of_length_le short, List.take_of_length_le (Nat.le_succ_of_le short)]

section
variable (space : IdSpace) (accepted : SequencePageTable.new config = .ok start)
include space accepted

theorem IdSpace.use_step (changes : ¬(space.Used (stateAt start calls k) rank id ↔
      space.Used (stateAt start calls (k + 1)) rank id)) :
    Moves (stateAt start calls k) (stateAt start calls (k + 1)) ∧
      (stateAt start calls k).quarantineGeneration = none := by
  obtain ⟨call, get, step⟩ := stateAt_changes start calls k fun same =>
    changes (by rw [same])
  rw [step] at changes ⊢
  rcases call_kind call with pages | ⟨generation, rfl⟩ | ⟨generation, rfl⟩
  · refine ⟨(call_served (stateAt_valid accepted k) pages).moves, ?_⟩
    cases bound : (stateAt start calls k).quarantineGeneration with
    | none => rfl
    | some generation =>
      refine absurd ?_ changes
      rw [(call_bound bound (by rintro rfl; exact pages)).2]
  · refine absurd ?_ changes
    simp only [SequencePageTable.call, (space.bind_eq _ generation).2]
  · refine absurd ?_ changes
    simp only [SequencePageTable.call, space.acknowledge_used]

theorem IdSpace.free_step (before : id ∉ space.free (stateAt start calls k) rank)
    (after : id ∈ space.free (stateAt start calls (k + 1)) rank) :
    ∃ generation, calls[k]? = some (.acknowledgeReuseQuarantine generation) ∧
      (stateAt start calls k).quarantineGeneration = some generation := by
  obtain ⟨call, get, step⟩ := stateAt_changes start calls k fun same =>
    before (same ▸ after)
  rw [step] at after
  rcases call_kind call with pages | ⟨generation, rfl⟩ | ⟨generation, rfl⟩
  · exact absurd (space.shrinks _ _ (call_served (stateAt_valid accepted k) pages).moves rank after) before
  · simp only [SequencePageTable.call, (space.bind_eq _ generation).1] at after
    exact absurd after before
  · refine ⟨generation, get, ?_⟩
    by_contra other
    simp only [SequencePageTable.call, SequencePageTable.acknowledgeReuseQuarantine, ne_eq, other,
      not_false_eq_true, if_true] at after
    exact before after

theorem IdSpace.reused_acknowledged (rank : Fin 4) (id : Nat) :
    ReusedAcknowledged start calls fun t => space.Used t rank id := by
  intro i j ordered usedBefore retired unused reused
  obtain ⟨movesI, unboundI⟩ := space.use_step accepted (k := i) fun same => retired (same.mp usedBefore)
  obtain ⟨movesJ, _⟩ := space.use_step accepted (k := j) fun same => unused (same.mpr reused)
  have takenI : id ∉ space.free (stateAt start calls (i + 1)) rank := fun free =>
    space.exclusive _ (stateAt_valid accepted i) rank id usedBefore (space.shrinks _ _ movesI rank free)
  have freeJ : id ∈ space.free (stateAt start calls j) rank :=
    (space.source _ _ movesJ rank id reused).resolve_left unused
  -- the id is freed at some step after `i`, which is the acknowledgement
  obtain ⟨a, afterI, beforeJ, taken, since⟩ := exists_last_start
    (fun k => id ∈ space.free (stateAt start calls k) rank)
    (Nat.succ_le_of_lt ordered) takenI freeJ
  obtain ⟨generation, getA, boundA⟩ := space.free_step accepted taken (since (a + 1) (by omega) (by omega))
  -- and its generation was bound after `i`, where none was
  have unbound : (stateAt start calls (i + 1)).quarantineGeneration ≠ some generation := by
    rw [movesI.generation_eq, unboundI]
    simp
  obtain ⟨b, lower, upper, free, bound⟩ := exists_last_start
    (fun k => (stateAt start calls k).quarantineGeneration = some generation) afterI unbound boundA
  have boundNext := bound (b + 1) (by omega) (by omega)
  obtain ⟨call, getB, stepB⟩ := stateAt_changes start calls b fun same =>
    free (same ▸ boundNext)
  rw [stepB] at boundNext
  obtain ⟨rfl, bindOk⟩ := call_binds (stateAt_valid accepted b) free boundNext
  refine ⟨b, a, generation, by omega, upper, beforeJ, getB, bindOk, getA, (call_acknowledge boundA).1, ?_⟩
  intro k call afterB beforeA get
  have here := bound k afterB (by omega)
  have next := bound (k + 1) (by omega) (by omega)
  have other : call ≠ .acknowledgeReuseQuarantine generation := by
    rintro rfl
    rw [stateAt_succ get, (call_acknowledge here).2] at next
    cases next
  obtain ⟨refused, unchanged⟩ := call_bound here other
  exact ⟨refused, by rw [stateAt_succ get, unchanged]⟩

end

theorem run_reuses_after_acknowledgement (config : PageTableConfig) (start : SequencePageTable)
    (accepted : SequencePageTable.new config = .ok start) (calls : List TableCall) (rank : Fin 4)
    (id : Nat) :
    ReusedAcknowledged start calls (fun t => (⟨rank, id⟩ : PhysicalPageId) ∈ t.physical) ∧
    ReusedAcknowledged start calls (fun t => ∃ (p : PhysicalPageId) (page : PhysicalPage),
      t.physical[p]? = some page ∧ p.ownerRank = rank ∧ page.draftLocalPageId = some id) :=
  ⟨targetIds.reused_acknowledged accepted rank id, draftIds.reused_acknowledged accepted rank id⟩

theorem removed_page_reused_after_acknowledgement : ∃ start, SequencePageTable.new ⟨1, 1⟩ = .ok start ∧
    Acknowledged start [.admitWithPrefix 1 true [], .appendCommitted 1 1, .removeSequence 1,
      .bindReuseQuarantine 9, .acknowledgeReuseQuarantine 9, .admitWithPrefix 2 true [],
      .appendCommitted 2 1] 2 6 :=
  ⟨_, rfl, (run_reuses_after_acknowledgement ⟨1, 1⟩ _ rfl _ 0 0).1 2 6 (by decide) (by rfl)
    (by decide) (by decide) (by rfl)⟩

end Reuse

end Glmaxx.Proof.Sequence
