import Glmaxx.Cache.DirectRestore

namespace Glmaxx.Proof.Restore
open Std Library Cache

variable {slot' : DirectBufferSlot} {usage : DirectBufferUse} {i : Nat} {slots : List DirectBufferSlot}
  {binding : DirectDescriptorBinding}

section Token
variable {slot generation : Nat} (kind : DirectCompletionKind)

section
variable (inSlot : slot < 2 ^ 31)
include inSlot

theorem token_userData : (DirectCompletionToken.new slot generation kind).userData =
      generation * 2 ^ 32 + slot * 2 + DirectCompletionToken.role kind := by
  have role : DirectCompletionToken.role kind < 2 ^ 1 := by cases kind <;> decide
  have low : slot <<< 1 < 2 ^ 32 := by
    rw [Nat.shiftLeft_eq]
    omega
  have split : generation <<< 32 ||| slot <<< 1 = (generation * 2 ^ 31 + slot) <<< 1 := by
    rw [← Nat.shiftLeft_add_eq_or_of_lt low, Nat.shiftLeft_eq, Nat.shiftLeft_eq, Nat.shiftLeft_eq]
    omega
  show generation <<< 32 ||| slot <<< 1 ||| DirectCompletionToken.role kind = _
  rw [split, ← Nat.shiftLeft_add_eq_or_of_lt role, Nat.shiftLeft_eq]
  omega

theorem token_slot : (DirectCompletionToken.new slot generation kind).slot = slot := by
  have role : DirectCompletionToken.role kind < 2 := by cases kind <;> decide
  have mask : DirectCompletionToken.slotMask = 2 ^ 31 - 1 := rfl
  unfold DirectCompletionToken.slot
  rw [token_userData kind inSlot, Nat.shiftRight_eq_div_pow, mask, Nat.and_two_pow_sub_one_eq_mod]
  omega

theorem token_generation (inGeneration : generation < 2 ^ 32) :
    (DirectCompletionToken.new slot generation kind).generation = generation := by
  have role : DirectCompletionToken.role kind < 2 := by cases kind <;> decide
  unfold DirectCompletionToken.generation
  rw [token_userData kind inSlot, Nat.shiftRight_eq_div_pow]
  omega

theorem token_kind : (DirectCompletionToken.new slot generation kind).kind = kind := by
  have bit : (generation * 2 ^ 32 + slot * 2 + DirectCompletionToken.role kind) &&& 1 =
      DirectCompletionToken.role kind := by
    rw [Nat.and_one_is_mod]
    cases kind <;> simp only [DirectCompletionToken.role, DirectCompletionToken.cancelBit] <;> omega
  unfold DirectCompletionToken.kind
  rw [token_userData kind inSlot, DirectCompletionToken.cancelBit, bit]
  cases kind <;> rfl

end

end Token

section Buffers
variable {pool : DirectBufferPool} {id : DirectBufferId} {slot : DirectBufferSlot}

def Leased (pool : DirectBufferPool) (id : DirectBufferId) (slot : DirectBufferSlot) : Prop :=
  id.generation ≠ 0 ∧ pool.slots[id.slot]? = some slot ∧ slot.generation = id.generation

theorem Leased.slot_ok (leased : Leased pool id slot) : pool.slot id = .ok slot := by
  obtain ⟨positive, get, generation⟩ := leased
  unfold DirectBufferPool.slot
  have valid : id.isValid = true := decide_eq_true positive
  rw [if_neg (by rw [valid]; decide), get]
  exact if_neg (fun differs => differs generation)

theorem slot_leased (found : pool.slot id = .ok slot) : Leased pool id slot := by
  unfold DirectBufferPool.slot at found
  by_cases invalid : id.isValid = false
  · rw [if_pos invalid] at found
    cases found
  rw [if_neg invalid] at found
  obtain ⟨slot', get, found⟩ := bind_eq_ok.mp found
  by_cases stale : slot'.generation ≠ id.generation
  · rw [if_pos stale] at found
    cases found
  rw [if_neg stale] at found
  cases found
  exact ⟨of_decide_eq_true (Bool.eq_true_of_not_eq_false invalid), okOr_eq_ok.mp get, not_not.mp stale⟩

theorem Leased.setSlot (leased : Leased pool id slot)
    (generation : slot'.generation = slot.generation) : Leased (pool.setSlot id slot') id slot' := by
  obtain ⟨positive, get, same⟩ := leased
  have inside := (List.getElem?_eq_some_iff.mp get).1
  exact ⟨positive, List.getElem?_set_self inside, generation.trans same⟩

def moved (slot : DirectBufferSlot) (next : DirectBufferState) : DirectBufferSlot :=
  { slot with state := next, bytes := if next = .free then slot.bytes.zeroed else slot.bytes }

theorem transition_ok {next : DirectBufferState} (leased : Leased pool id slot)
    (valid : validTransition slot.state next = true) :
    DirectBufferPool.transition id next pool = (.ok (), pool.setSlot id (moved slot next)) := by
  refine Action.updates_ok (bind_eq_ok.mpr ⟨slot, leased.slot_ok, ?_⟩)
  exact if_neg (by rw [valid]; decide)

theorem releaseAbandonedRead_ok (leased : Leased pool id slot) (state : slot.state = .readInflight) :
    DirectBufferPool.releaseAbandonedRead id pool = (.ok (), pool.setSlot id (moved slot .free)) := by
  refine Action.updates_ok (bind_eq_ok.mpr ⟨slot, leased.slot_ok, ?_⟩)
  exact if_neg (fun differs => differs state)

theorem activeSlots_setSlot (leased : Leased pool id slot) (slot' : DirectBufferSlot) :
    (pool.setSlot id slot').activeSlots + (if slot.state.isActive then 1 else 0) =
      pool.activeSlots + if slot'.state.isActive then 1 else 0 :=
  countP_set_of_get (fun slot : DirectBufferSlot => slot.state.isActive) slot' leased.2.1

theorem setSlot_of_ne (pool : DirectBufferPool) (slot' : DirectBufferSlot) {j : Nat} (other : j ≠ id.slot) :
    (pool.setSlot id slot').slots[j]? = pool.slots[j]? :=
  List.getElem?_set_ne fun same => other same.symm

/-- A slot that the search of `reserve` goes past: as it was, or retired because its generations are used up. -/
def Passed (slot slot' : DirectBufferSlot) : Prop :=
  slot' = slot ∨ slot.state = .free ∧ slot' = { slot with state := .retired }

def HasRoom (slot : DirectBufferSlot) : Prop := slot.state = .free ∧ slot.generation < 2 ^ 64 - 1

def taken (usage : DirectBufferUse) (slot : DirectBufferSlot) : DirectBufferSlot :=
  ⟨slot.generation + 1, usage.firstState, slot.bytes.zeroed⟩

theorem visit_cases (usage : DirectBufferUse) (i : Nat) (slot : DirectBufferSlot) :
    (¬HasRoom slot ∧ ∃ slot', DirectBufferPool.visit usage i slot = .skip slot' ∧ Passed slot slot' ∧ ¬HasRoom slot') ∨
      HasRoom slot ∧ DirectBufferPool.visit usage i slot = .take (taken usage slot) (slot.generation + 1) := by
  unfold DirectBufferPool.visit
  by_cases free : slot.state = .free
  · rw [if_neg (not_not.mpr free)]
    by_cases small : slot.generation + 1 < 2 ^ 64
    · have counted : checkedAdd 64 slot.generation 1 = some (slot.generation + 1) := if_pos small
      rw [counted]
      exact .inr ⟨⟨free, by omega⟩, if_neg (Nat.succ_ne_zero _)⟩
    · have counted : checkedAdd 64 slot.generation 1 = none := if_neg small
      rw [counted]
      exact .inl ⟨fun room => small (by have := room.2; omega), _, rfl, .inr ⟨free, rfl⟩, fun room => nomatch room.1⟩
  · rw [if_pos free]
    exact .inl ⟨fun room => free room.1, slot, rfl, .inl rfl, fun room => free room.1⟩

theorem visit_skip {slot : DirectBufferSlot} (skipped : DirectBufferPool.visit usage i slot = .skip slot') :
    Passed slot slot' ∧ ¬HasRoom slot ∧ ¬HasRoom slot' := by
  rcases visit_cases usage i slot with ⟨full, other, skipped', passed, full'⟩ | ⟨_, taken⟩
  · rw [skipped'] at skipped
    cases skipped
    exact ⟨passed, full, full'⟩
  · rw [taken] at skipped
    cases skipped

theorem visit_take {generation : Nat} {slot : DirectBufferSlot}
    (took : DirectBufferPool.visit usage i slot = .take slot' generation) :
    HasRoom slot ∧ slot' = taken usage slot ∧ generation = slot.generation + 1 := by
  rcases visit_cases usage i slot with ⟨_, other, skipped, _⟩ | ⟨room, took'⟩
  · rw [skipped] at took
    cases took
  · rw [took'] at took
    cases took
    exact ⟨room, rfl, rfl⟩

structure Reserved (pool pool' : DirectBufferPool) : Prop where
  length_eq : pool'.slots.length = pool.slots.length
  keeps : ∀ (i : Nat) (slot : DirectBufferSlot), pool.slots[i]? = some slot → slot.state ≠ .free →
    pool'.slots[i]? = some slot

theorem Passed.trans {a b c : DirectBufferSlot} (first : Passed a b) (second : Passed b c) : Passed a c := by
  rcases first with rfl | ⟨free, rfl⟩
  · exact second
  · rcases second with rfl | ⟨free', _⟩
    · exact .inr ⟨free, rfl⟩
    · cases free'

theorem reserved_of_passed (next : Nat)
    (passed : List.Forall₂ Passed pool.slots slots) : Reserved pool ⟨slots, next⟩ := by
  refine ⟨passed.length_eq.symm, ?_⟩
  intro i slot get used
  obtain ⟨slot', get', rfl | ⟨free, _⟩⟩ := forall₂_getElem? passed get
  · exact get'
  · exact absurd free used

theorem activeSlots_of_passed (next : Nat) (passed : List.Forall₂ Passed pool.slots slots) :
    DirectBufferPool.activeSlots ⟨slots, next⟩ = pool.activeSlots := by
  refine forall₂_countP (R := Passed) ?_ passed
  rintro slot slot' (rfl | ⟨free, rfl⟩)
  · rfl
  · rw [free]
    rfl

/-- The search passes over slots and takes one with room, if there is any. -/
theorem reserve_cases (usage : DirectBufferUse) (pool : DirectBufferPool) :
    ∃ slots, List.Forall₂ Passed pool.slots slots ∧
      ((DirectBufferPool.reserve usage pool = (.error .capacity, { pool with slots }) ∧
        ∀ slot ∈ pool.slots, ¬HasRoom slot) ∨
      ∃ i slot next, pool.slots[i]? = some slot ∧ slots[i]? = some slot ∧ HasRoom slot ∧
        DirectBufferPool.reserve usage pool =
          (okOr ((narrow 32 i).map fun index => ⟨index, slot.generation + 1⟩) .capacity,
            ⟨slots.set i (taken usage slot), next⟩)) := by
  obtain ⟨slots, passed, outcome⟩ := scanRing_spec (R := Passed) (fun _ => .inl rfl)
    (fun _ _ _ => Passed.trans)
    (fun _ _ _ (skipped : DirectBufferPool.visit usage _ _ = _) => (visit_skip skipped).1)
    pool.nextSearch pool.slots.length 0 pool.slots
  refine ⟨slots, passed, ?_⟩
  unfold DirectBufferPool.reserve
  split at outcome
  next slots' scanned =>
    subst outcome
    rw [scanned]
    exact .inl ⟨rfl, scanRing_none (fun _ _ _ skipped => (visit_skip skipped).2) scanned⟩
  next i generation slots' scanned =>
    obtain ⟨slot, slot', get, took, rfl⟩ := outcome
    obtain ⟨room, rfl, rfl⟩ := visit_take took
    have inside := (List.getElem?_eq_some_iff.mp get).1
    have getOld := List.getElem?_eq_getElem (passed.length_eq.symm ▸ inside)
    obtain ⟨other, get', rfl | ⟨_, rfl⟩⟩ := forall₂_getElem? passed getOld
    · rw [get] at get'
      cases get'
      rw [scanned]
      exact .inr ⟨i, _, _, getOld, get, room, rfl⟩
    · rw [get] at get'
      cases get'
      cases room.1

theorem reserve_ends (usage : DirectBufferUse) (small : pool.slots.length < 2 ^ 32) :
    Action.Ends (DirectBufferPool.reserve usage) pool
      (fun id pool' => Reserved pool pool' ∧ pool'.activeSlots = pool.activeSlots + 1 ∧
        (∃ slot, Leased pool' id slot ∧ slot.state = usage.firstState) ∧
        ∃ slot, pool.slots[id.slot]? = some slot ∧ slot.state = .free)
      (fun _ pool' => Reserved pool pool' ∧ pool'.activeSlots = pool.activeSlots) := by
  obtain ⟨slots, passed, ⟨ran, _⟩ | ⟨i, slot, next, getOld, get, room, ran⟩⟩ := reserve_cases usage pool
  · exact Action.Ends.of_error ran ⟨reserved_of_passed _ passed, activeSlots_of_passed _ passed⟩
  have inside := (List.getElem?_eq_some_iff.mp get).1
  have length_eq := passed.length_eq
  have fits : narrow 32 i = some i := if_pos (by omega)
  rw [fits] at ran
  refine Action.Ends.of_ok ran ⟨⟨?_, ?_⟩, ?_, ⟨taken usage slot, ⟨Nat.succ_ne_zero _, ?_, rfl⟩, rfl⟩, slot, getOld, room.1⟩
  · rw [List.length_set]
    exact length_eq.symm
  · intro j other getJ used
    have kept := (reserved_of_passed 0 passed).keeps j other getJ used
    rw [List.getElem?_set]
    split
    next here =>
      subst here
      rw [getOld] at getJ
      cases getJ
      exact absurd room.1 used
    next => exact kept
  · have count := countP_set_of_get (fun slot => slot.state.isActive) (taken usage slot) get
    have same := activeSlots_of_passed 0 passed
    unfold DirectBufferPool.activeSlots at same ⊢
    have active : (taken usage slot).state.isActive = true := by cases usage <;> rfl
    have idle : slot.state.isActive = false := by rw [room.1]; rfl
    rw [active, idle] at count
    exact count.trans (congrArg (· + 1) same)
  · exact List.getElem?_set_self inside

end Buffers

section Descriptors
variable {table : DirectDescriptorTable} {slot generation : Nat} {retired : Bool} {entry : DirectDescriptorEntry}

/-- The descriptor under `slot` was allocated in this generation and still has a completion to come. -/
structure Bound (table : DirectDescriptorTable) (slot generation : Nat) (entry : DirectDescriptorEntry) :
    Prop where
  inSlot : slot < 2 ^ 31
  positive : generation ≠ 0
  inGeneration : generation < 2 ^ 32
  get : ∃ retired, table.slots[slot]? = some ⟨generation, retired, some entry⟩

section
variable (bound : Bound table slot generation entry)
include bound

theorem Bound.slot_ok (kind : DirectCompletionKind) :
    ∃ retired, table.slots[slot]? = some ⟨generation, retired, some entry⟩ ∧
      table.slot (.new slot generation kind) = .ok ⟨generation, retired, some entry⟩ := by
  obtain ⟨retired, get⟩ := bound.get
  refine ⟨retired, get, ?_⟩
  unfold DirectDescriptorTable.slot
  rw [token_generation kind bound.inSlot bound.inGeneration, token_slot kind bound.inSlot,
    if_neg bound.positive, get]
  exact if_neg (fun differs => differs rfl)

theorem resolve_ok {kind : DirectCompletionKind} (pending : entry.pending kind = true) :
    table.resolve (.new slot generation kind) = .ok entry.binding := by
  obtain ⟨retired, _, found⟩ := bound.slot_ok kind
  refine bind_eq_ok.mpr ⟨_, found, ?_⟩
  refine bind_eq_ok.mpr ⟨entry, rfl, ?_⟩
  rw [token_kind kind bound.inSlot]
  exact if_neg (by rw [pending]; decide)

def reaped (entry : DirectDescriptorEntry) (kind : DirectCompletionKind) : Option DirectDescriptorEntry :=
  if (entry.clear kind).originalPending = false ∧ (entry.clear kind).cancelPending = false then none
  else some (entry.clear kind)

def withEntry (table : DirectDescriptorTable) (slot generation : Nat) (retired : Bool)
    (entry : Option DirectDescriptorEntry) : DirectDescriptorTable :=
  { table with slots := table.slots.set slot ⟨generation, retired, entry⟩ }

theorem complete_ok {kind : DirectCompletionKind} (pending : entry.pending kind = true) :
    ∃ retired, table.slots[slot]? = some ⟨generation, retired, some entry⟩ ∧
      DirectDescriptorTable.complete (.new slot generation kind) table =
        (.ok entry.binding, withEntry table slot generation retired (reaped entry kind)) := by
  obtain ⟨retired, get, found⟩ := bound.slot_ok kind
  refine ⟨retired, get, Action.updates_ok (bind_eq_ok.mpr ⟨_, found, ?_⟩)⟩
  refine bind_eq_ok.mpr ⟨entry, rfl, ?_⟩
  rw [token_kind kind bound.inSlot, if_neg (by rw [pending]; decide)]
  show Except.ok (entry.binding, DirectDescriptorTable.setSlot _ _ _) = _
  unfold DirectDescriptorTable.setSlot
  rw [token_slot kind bound.inSlot]
  rfl

theorem issueCancel_ok (original : entry.originalPending = true) (cancel : entry.cancelPending = false) :
    ∃ retired, table.slots[slot]? = some ⟨generation, retired, some entry⟩ ∧
      DirectDescriptorTable.issueCancel (.new slot generation .original) table =
        (.ok (.new slot generation .asyncCancel),
          withEntry table slot generation retired (some { entry with cancelPending := true })) := by
  obtain ⟨retired, get, found⟩ := bound.slot_ok .original
  have kind : (DirectCompletionToken.new slot generation .original).kind = .original :=
    token_kind .original bound.inSlot
  refine ⟨retired, get, Action.updates_ok ?_⟩
  rw [if_neg (fun differs => differs kind)]
  refine bind_eq_ok.mpr ⟨_, found, ?_⟩
  refine bind_eq_ok.mpr ⟨entry, rfl, ?_⟩
  rw [if_neg (by simp [original, cancel])]
  unfold DirectDescriptorTable.setSlot
  rw [token_slot .original bound.inSlot, token_generation .original bound.inSlot bound.inGeneration]
  rfl

end

def Keeps (table table' : DirectDescriptorTable) : Prop :=
  ∀ (i : Nat) (slot : DirectDescriptorSlot), table.slots[i]? = some slot → slot.entry.isSome →
    table'.slots[i]? = some slot

def Skipped (slot slot' : DirectDescriptorSlot) : Prop :=
  slot' = slot ∨ slot.entry = none ∧ slot'.entry = none

theorem descriptor_skip {slot slot' : DirectDescriptorSlot}
    (skipped : DirectDescriptorTable.visit binding i slot = .skip slot') : Skipped slot slot' := by
  unfold DirectDescriptorTable.visit at skipped
  split at skipped
  · cases skipped
    exact .inl rfl
  next unused =>
    have vacant : slot.entry = none := by simpa using (not_or.mp unused).2
    split at skipped
    · cases skipped
      exact .inr ⟨vacant, vacant⟩
    · split at skipped
      · cases skipped
        exact .inr ⟨vacant, vacant⟩
      · cases skipped

theorem descriptor_take {generation : Nat} {slot slot' : DirectDescriptorSlot}
    (taken : DirectDescriptorTable.visit binding i slot = .take slot' generation) :
    slot.entry = none ∧ slot' = ⟨generation, slot.retired, some ⟨binding, true, false⟩⟩ ∧
      generation ≠ 0 ∧ generation < 2 ^ 32 := by
  unfold DirectDescriptorTable.visit at taken
  split at taken
  · cases taken
  next unused =>
    have vacant : slot.entry = none := by simpa using (not_or.mp unused).2
    split at taken
    · cases taken
    next next counted =>
      split at taken
      · cases taken
      next positive =>
        cases taken
        unfold checkedAdd at counted
        split at counted
        next small =>
          cases counted
          exact ⟨vacant, rfl, positive, small⟩
        next => cases counted

theorem Skipped.trans {a b c : DirectDescriptorSlot} (first : Skipped a b) (second : Skipped b c) :
    Skipped a c := by
  rcases first with rfl | ⟨before, after⟩
  · exact second
  · rcases second with rfl | ⟨_, last⟩
    · exact .inr ⟨before, after⟩
    · exact .inr ⟨before, last⟩

theorem keeps_of_skipped {slots : List DirectDescriptorSlot} (next : Nat)
    (skipped : List.Forall₂ Skipped table.slots slots) : Keeps table ⟨slots, next⟩ := by
  intro i slot get used
  obtain ⟨slot', get', rfl | ⟨vacant, _⟩⟩ := forall₂_getElem? skipped get
  · exact get'
  · simp [vacant] at used

theorem outstanding_of_skipped {slots : List DirectDescriptorSlot} (next : Nat)
    (skipped : List.Forall₂ Skipped table.slots slots) :
    DirectDescriptorTable.outstandingDescriptors ⟨slots, next⟩ = table.outstandingDescriptors := by
  refine forall₂_countP (R := Skipped) ?_ skipped
  rintro slot slot' (rfl | ⟨before, after⟩)
  · rfl
  · rw [before, after]

theorem allocate_ends (binding : DirectDescriptorBinding) (small : table.slots.length ≤ 2 ^ 31) :
    Action.Ends (DirectDescriptorTable.allocate binding) table
      (fun token table' => Keeps table table' ∧ table'.slots.length = table.slots.length ∧
        table'.outstandingDescriptors = table.outstandingDescriptors + 1 ∧
        ∃ slot generation, token = .new slot generation .original ∧
          Bound table' slot generation ⟨binding, true, false⟩)
      (fun _ table' => Keeps table table' ∧ table'.slots.length = table.slots.length ∧
        table'.outstandingDescriptors = table.outstandingDescriptors) := by
  obtain ⟨slots, skipped, outcome⟩ := scanRing_spec (R := Skipped) (fun _ => .inl rfl)
    (fun _ _ _ => Skipped.trans)
    (fun _ _ _ (skipped : DirectDescriptorTable.visit binding _ _ = _) => descriptor_skip skipped)
    table.nextSearch table.slots.length 0 table.slots
  have length_eq := skipped.length_eq
  unfold Action.Ends DirectDescriptorTable.allocate
  by_cases identity : binding.buffer.isValid = false ∨ binding.operationGeneration = 0
  · rw [if_pos identity]
    exact ⟨fun _ _ get _ => get, rfl, rfl⟩
  rw [if_neg identity]
  split at outcome
  next slots' scanned =>
    subst outcome
    rw [scanned]
    exact ⟨keeps_of_skipped _ skipped, length_eq.symm, outstanding_of_skipped _ skipped⟩
  next i generation slots' scanned =>
    obtain ⟨slot, slot', get, taken, rfl⟩ := outcome
    obtain ⟨vacant, rfl, positive, inGeneration⟩ := descriptor_take taken
    have inside := (List.getElem?_eq_some_iff.mp get).1
    have fits : narrow 32 i = some i := if_pos (by omega)
    rw [scanned]
    dsimp only
    rw [fits]
    refine ⟨?_, ?_, ?_, i, generation, rfl, by omega, positive, inGeneration, slot.retired,
      List.getElem?_set_self inside⟩
    · intro j other getJ used
      have kept := keeps_of_skipped 0 skipped j other getJ used
      rw [List.getElem?_set]
      split
      next here =>
        subst here
        rw [get] at kept
        cases kept
        simp [vacant] at used
      next => exact kept
    · rw [List.length_set]
      exact length_eq.symm
    · have count := countP_set_of_get (fun slot : DirectDescriptorSlot => slot.entry.isSome)
        ⟨generation, slot.retired, some ⟨binding, true, false⟩⟩ get
      have same := outstanding_of_skipped 0 skipped
      rw [vacant] at count
      exact count.trans (congrArg (· + 1) same)

end Descriptors

end Glmaxx.Proof.Restore
