import Glmaxx.Proof.Residency.Eviction
import Glmaxx.Proof.Residency.Registration

/-!
# What a rank's manager owes

Seen from the coordinator a page of a rank is its record, the number of its pins and the restore it waits for.
Which tier its bytes are in is the manager's own business: evictions do not show.
-/

namespace Glmaxx.Proof.Prefix
open Std Library Cache Cache.ResidencyManager Proof.Residency

variable {m m' : ResidencyManager} {key : Bytes32} {entry entry' : ResidentEntry} {counter : Counter}

structure Lease where
  record : TierRecord
  pins : Nat
  restore : Option PendingRestoreIdentity

def leaseOf (entry : ResidentEntry) : Lease := ⟨entry.record, entry.pinCount, entry.pendingRestore⟩

def lease (m : ResidencyManager) (key : Bytes32) : Option Lease := m.entries[key]?.map leaseOf

theorem lease_eq (found : m.entries[key]? = some entry) : lease m key = some (leaseOf entry) := by
  rw [lease, found]
  rfl

/-- The manager did `steps` things, after which its pages are leased as `leases` says. -/
structure Shifts (steps : Nat) (leases : Bytes32 → Option Lease) (m m' : ResidencyManager) : Prop where
  sound : Sound m'
  leases_eq : lease m' = leases
  generation_le : m'.stateGeneration ≤ m.stateGeneration + steps

def Room (counter : Counter) (bound : Nat) : Prop := ∀ n, n < bound → counter.add n 1 = some (n + 1)

theorem room_u64 : Room .u64 (2 ^ 64 - 1) := by
  intro n below
  exact if_pos (by omega)

section Effects

theorem leases_of_touches (touches : Touches key entry entry' m m') :
    lease m' = Function.update (lease m) key (some (leaseOf entry')) := by
  funext other
  rw [lease, touches.get, Function.update_apply]
  split
  next => rfl
  next => rfl

theorem shifts_of_touches (touches : Touches key entry entry' m m') (sound : Sound m') :
    Shifts 1 (Function.update (lease m) key (some (leaseOf entry'))) m m' :=
  ⟨sound, leases_of_touches touches, touches.generation_eq.le⟩

theorem shifts_of_admits (admits : Admits key entry entry' m m') (sound : Sound m') :
    Shifts 1 (Function.update (lease m) key (some (leaseOf entry'))) m m' := by
  refine ⟨sound, ?_, admits.generation_eq.le⟩
  funext other
  rw [Function.update_apply]
  split
  next here => rw [here, lease_eq admits.here]
  next elsewhere =>
    rcases admits.others other elsewhere with same | ⟨its, destination, before, _, _, _, after⟩
    · rw [lease, same, lease]
    · rw [lease_eq before, lease_eq after]
      rfl

section
variable (counter : Counter) (key : Bytes32) (sound : Sound m)
include sound

theorem pinHbm_shifts : Action.Ends (pinHbm counter key) m
      (fun _ m' => ∃ before, lease m key = some before ∧
        Shifts 1 (Function.update (lease m) key (some { before with pins := before.pins + 1 })) m m')
      (fun _ m' => m' = m) := by
  refine (pinHbm_ends counter key m).mono ?_ fun _ _ same => same
  rintro _ m' ⟨entry, touch, resident, touches⟩
  exact ⟨leaseOf entry, lease_eq touches.found,
    shifts_of_touches touches (touches.sound_of_same sound rfl rfl rfl rfl fun _ => resident)⟩

theorem promoteDram_shifts :
    Action.Ends (promoteDram counter key) m (fun _ m' => Shifts 1 (lease m) m m') (fun _ m' => m' = m) := by
  refine (promoteDram_ends counter key sound).mono ?_ fun _ _ same => same
  rintro _ m' ⟨entry, touch, resident, admits⟩
  have shifts := shifts_of_admits admits (admits.sound_promoted sound resident)
  have same : Function.update (lease m) key (some (leaseOf { entry with residency := .hbm, lastTouch := touch })) =
      lease m := Function.update_eq_self_iff.mpr (lease_eq admits.enters.found).symm
  rwa [same] at shifts

theorem promoteDram_pinHbm_shifts : Action.Ends (do promoteDram counter key; pinHbm counter key) m
      (fun _ m' => ∃ before, lease m key = some before ∧
        Shifts 2 (Function.update (lease m) key (some { before with pins := before.pins + 1 })) m m')
      (fun _ m' => Shifts 1 (lease m) m m') := by
  have first : Action.Ends (promoteDram counter key) m (fun _ m' => Shifts 1 (lease m) m m')
      (fun _ m' => Shifts 1 (lease m) m m') := by
    refine (promoteDram_shifts counter key sound).mono (fun _ _ shifts => shifts) ?_
    rintro _ m' rfl
    exact ⟨sound, rfl, Nat.le_succ _⟩
  refine first.bind fun _ middle promoted => ?_
  refine (pinHbm_shifts counter key promoted.sound).mono ?_ ?_
  · rintro _ m' ⟨before, found, pinned⟩
    rw [promoted.leases_eq] at found pinned
    exact ⟨before, found, pinned.sound, pinned.leases_eq, by
      have := promoted.generation_le
      have := pinned.generation_le
      omega⟩
  · rintro _ m' rfl
    exact promoted

end

theorem restore_eq_none (sound : Sound m) (found : m.entries[key]? = some entry)
    (settled : entry.residency ≠ .restoring) : entry.pendingRestore = none := by
  have pending := (sound.each key entry found).pending
  cases isPending : entry.pendingRestore with
  | none => rfl
  | some identity => exact absurd (pending.mp (by rw [isPending]; rfl)) settled

theorem beginRestore_shifts (counter : Counter) (requestId : Nat) (key : Bytes32) (ordinal rank : Nat)
    (sound : Sound m) : Action.Ends (beginRestore counter requestId key ordinal rank) m
      (fun request m' => ∃ before, lease m key = some before ∧ before.restore = none ∧
        Shifts 1 (Function.update (lease m) key (some { before with restore := some ⟨requestId, ordinal⟩ })) m m' ∧
        request = ⟨requestId, key, before.record.nameSpace, before.record.generation, ordinal, rank⟩)
      (fun _ m' => m' = m) := by
  refine (beginRestore_ends counter requestId key ordinal rank m).mono ?_ fun _ _ same => same
  rintro request m' ⟨entry, nvme, _, touches, isRequest, _⟩
  exact ⟨leaseOf entry, lease_eq touches.found, restore_eq_none sound touches.found (by simp [nvme]),
    shifts_of_touches touches (touches.sound_restoring sound nvme), isRequest⟩

theorem completeRestore_shifts (counter : Counter) (result : RestoreResult) (sound : Sound m) :
    Action.Ends (completeRestore counter result) m
      (fun _ m' => ∃ before, lease m result.page.record.pageKey = some before ∧
        before.restore = some ⟨result.requestId, result.pageOrdinal⟩ ∧
        Shifts 1 (Function.update (lease m) result.page.record.pageKey (some { before with restore := none })) m m')
      (fun _ m' => m' = m) := by
  refine (completeRestore_ends counter result sound).mono ?_ fun _ _ same => same
  rintro _ m' ⟨entry, touch, _, record_eq, pending, admits⟩
  exact ⟨leaseOf entry, lease_eq admits.enters.found, pending,
    shifts_of_admits admits (admits.sound_restored sound record_eq)⟩

end Effects

section Undo
variable {bound count requestId ordinal : Nat} {before : Lease}

theorem entry_of_lease (leased : lease m key = some before) :
    ∃ entry, m.entries[key]? = some entry ∧ before = leaseOf entry := by
  unfold lease at leased
  cases found : m.entries[key]? with
  | none =>
    rw [found] at leased
    cases leased
  | some entry =>
    rw [found] at leased
    cases leased
    exact ⟨entry, rfl, rfl⟩

theorem validateUnpinCount_of_lease (sound : Sound m) (leased : lease m key = some before) (positive : count ≠ 0)
    (enough : count ≤ before.pins) : m.validateUnpinCount key count = .ok () := by
  obtain ⟨entry, found, rfl⟩ := entry_of_lease leased
  have pinned : 0 < entry.pinCount := (Nat.pos_of_ne_zero positive).trans_le enough
  exact validateUnpinCount_eq_ok.mpr ⟨positive, entry, found, (sound.each key entry found).pinned pinned, enough⟩

theorem validateAbort_of_lease (sound : Sound m) (leased : lease m key = some before)
    (waits : before.restore = some ⟨requestId, ordinal⟩) :
    m.validateAbortRestoreIdentity key requestId ordinal = .ok () := by
  obtain ⟨entry, found, rfl⟩ := entry_of_lease leased
  have restoring : entry.residency = .restoring := (sound.each key entry found).pending.mp (by
    rw [show entry.pendingRestore = some _ from waits]
    rfl)
  exact validateAbortRestoreIdentity_eq_ok.mpr ⟨entry, found, restoring, waits⟩

section
variable (room : Room counter bound) (below : m.stateGeneration < bound)
include room below

theorem nextStateGeneration_of_room : m.nextStateGeneration counter = .ok (m.stateGeneration + 1) := by
  unfold nextStateGeneration
  rw [room _ below]
  rfl

theorem unpinCount_of_lease (sound : Sound m)
    (leased : lease m key = some before) (positive : count ≠ 0) (enough : count ≤ before.pins) :
    ∃ m', unpinCount counter key count m = (.ok (), m') ∧
      Shifts 1 (Function.update (lease m) key (some { before with pins := before.pins - count })) m m' := by
  have valid := validateUnpinCount_of_lease sound leased positive enough
  obtain ⟨entry, found, rfl⟩ := entry_of_lease leased
  have ran : unpinCount counter key count m = (.ok (), { m with
      entries := m.entries.insert key { entry with pinCount := entry.pinCount - count }
      stateGeneration := m.stateGeneration + 1 }) := by
    apply Action.updates_ok
    rw [valid, nextStateGeneration_of_room room below, found]
    show (okOr (checkedSub (leaseOf entry).pins count) ResidencyError.state >>= _) = _
    rw [checkedSub_of_le enough]
    rfl
  obtain ⟨other, resident, _, touches⟩ := (unpinCount_ends counter key count m).value ran
  obtain rfl : entry = other := Option.some.inj (found.symm.trans touches.found)
  exact ⟨_, ran, shifts_of_touches touches (touches.sound_of_same sound rfl rfl rfl rfl fun _ => resident)⟩

theorem abortRestoreIdentity_of_lease (sound : Sound m)
    (leased : lease m key = some before) (waits : before.restore = some ⟨requestId, ordinal⟩) :
    ∃ m', abortRestoreIdentity counter key requestId ordinal m = (.ok (), m') ∧
      Shifts 1 (Function.update (lease m) key (some { before with restore := none })) m m' := by
  have valid := validateAbort_of_lease sound leased waits
  obtain ⟨entry, found, rfl⟩ := entry_of_lease leased
  have ran : abortRestoreIdentity counter key requestId ordinal m = (.ok (), { m with
      entries := m.entries.insert key (abandoned entry), stateGeneration := m.stateGeneration + 1 }) := by
    apply Action.updates_ok
    rw [valid, nextStateGeneration_of_room room below, found]
    rfl
  obtain ⟨other, restoring, _, touches⟩ := (abortRestoreIdentity_ends counter key requestId ordinal m).value ran
  obtain rfl : entry = other := Option.some.inj (found.symm.trans touches.found)
  exact ⟨_, ran, shifts_of_touches touches (touches.sound_abandoned sound restoring)⟩

end

end Undo

end Glmaxx.Proof.Prefix
