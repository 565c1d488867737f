import Glmaxx.Cache.Residency
import Glmaxx.Library.TreeMap

namespace Glmaxx.Proof.Residency
open Std Library Cache Cache.ResidencyManager

variable {m m' : ResidencyManager} {key : Bytes32} {entry entry' : ResidentEntry} {counter : Counter}

section Shares

def bytesOf (record : TierRecord) : Nat := (record.pieces.map (·.byteLength.toNat)).sum

theorem entryBytes_eq {record : TierRecord} {bytes : Nat} (ok : entryBytes record = .ok bytes) :
    bytes = bytesOf record := by
  have general : ∀ (pieces : List TierPieceRecord) (start total : Nat),
      pieces.foldlM (fun total piece => okOr (checkedAdd 64 total piece.byteLength.toNat) ResidencyError.overflow) start =
        .ok total → total = start + (pieces.map (·.byteLength.toNat)).sum := by
    intro pieces
    induction pieces with
    | nil =>
      intro start total ok
      cases ok
      rfl
    | cons piece rest ih =>
      intro start total ok
      obtain ⟨next, added, ok⟩ := bind_eq_ok.mp ok
      rw [ih next total ok, checkedAdd_some (okOr_eq_ok.mp added), List.map_cons, List.sum_cons, Nat.add_assoc]
  have := general record.pieces 0 bytes ok
  rwa [Nat.zero_add] at this

def hbmShare (_ : Bytes32) (entry : ResidentEntry) : Nat :=
  if entry.residency = .hbm then bytesOf entry.record else 0

def dramShare (_ : Bytes32) (entry : ResidentEntry) : Nat :=
  if entry.residency = .dram then bytesOf entry.record else 0

end Shares

structure EntrySound (key : Bytes32) (entry : ResidentEntry) : Prop where
  valid : entry.record.validate = .ok ()
  tier : entry.record.tier = .nvme
  key_eq : entry.record.pageKey = key
  pinned : 0 < entry.pinCount → entry.residency = .hbm
  pending : entry.pendingRestore.isSome = true ↔ entry.residency = .restoring
  restored : entry.restored.isSome = true ↔ entry.residency = .hbm ∨ entry.residency = .dram
  restored_eq : ∀ page, entry.restored = some page → page.record = entry.record

structure Sound (m : ResidencyManager) : Prop where
  each : ∀ (key : Bytes32) (entry : ResidentEntry), m.entries[key]? = some entry → EntrySound key entry
  hbm_eq : m.hbmBytes = total m.entries hbmShare
  hbm_le : m.hbmBytes ≤ m.config.hbmBytes.toNat
  dram_eq : m.dramBytes = total m.entries dramShare
  dram_le : m.dramBytes ≤ m.config.dramBytes.toNat

theorem new_sound {config : ResidencyConfig} (ok : ResidencyManager.new config = .ok m) : Sound m := by
  unfold ResidencyManager.new at ok
  split at ok
  · cases ok
  cases ok
  refine ⟨fun key entry found => by simp at found, ?_, Nat.zero_le _, ?_, Nat.zero_le _⟩ <;> rw [total_empty]

structure Touches (key : Bytes32) (entry entry' : ResidentEntry) (m m' : ResidencyManager) : Prop where
  found : m.entries[key]? = some entry
  entries_eq : m'.entries = m.entries.insert key entry'
  config_eq : m'.config = m.config
  hbm_eq : m'.hbmBytes = m.hbmBytes
  dram_eq : m'.dramBytes = m.dramBytes
  generation_eq : m'.stateGeneration = m.stateGeneration + 1

theorem Touches.get (touches : Touches key entry entry' m m') (other : Bytes32) :
    m'.entries[other]? = if other = key then some entry' else m.entries[other]? := by
  rw [touches.entries_eq, getElem?_insert_ite]

theorem Touches.sound (touches : Touches key entry entry' m m') (sound : Sound m) (entrySound : EntrySound key entry')
    (hbm : hbmShare key entry' = hbmShare key entry) (dram : dramShare key entry' = dramShare key entry) :
    Sound m' := by
  have hbmTotal := total_insert_old hbmShare entry' touches.found
  have dramTotal := total_insert_old dramShare entry' touches.found
  refine ⟨?_, ?_, ?_, ?_, ?_⟩
  · intro other its isIts
    rw [touches.get] at isIts
    split at isIts
    next here =>
      cases isIts
      exact here ▸ entrySound
    next => exact sound.each other its isIts
  · rw [touches.hbm_eq, touches.entries_eq, sound.hbm_eq]
    omega
  · rw [touches.hbm_eq, touches.config_eq]
    exact sound.hbm_le
  · rw [touches.dram_eq, touches.entries_eq, sound.dram_eq]
    omega
  · rw [touches.dram_eq, touches.config_eq]
    exact sound.dram_le

section Operations
variable {requestId ordinal rank count : Nat}

theorem nextStateGeneration_eq {next : Nat} (ok : m.nextStateGeneration counter = .ok next) :
    next = m.stateGeneration + 1 := counter.exact (okOr_eq_ok.mp ok)

theorem beginRestore_ends (counter : Counter) (requestId : Nat) (key : Bytes32) (ordinal rank : Nat)
    (m : ResidencyManager) : Action.Ends (beginRestore counter requestId key ordinal rank) m
      (fun request m' => ∃ entry, entry.residency = .nvme ∧ bytesOf entry.record ≤ m.config.hbmBytes.toNat ∧
        Touches key entry { entry with residency := .restoring, pendingRestore := some ⟨requestId, ordinal⟩ } m m' ∧
        request = ⟨requestId, key, entry.record.nameSpace, entry.record.generation, ordinal, rank⟩ ∧
        requestId ≠ 0 ∧ (ownerRank ordinal).val = rank)
      (fun _ m' => m' = m) := by
  refine Action.Ends.updates (fun request m' ran => ?_) fun _ _ => rfl
  split at ran
  · cases ran
  next valid =>
  simp only [not_or] at valid
  obtain ⟨next, advanced, ran⟩ := bind_eq_ok.mp ran
  obtain ⟨entry, found, ran⟩ := bind_eq_ok.mp ran
  split at ran
  · cases ran
  next nvme =>
  obtain ⟨bytes, counted, ran⟩ := bind_eq_ok.mp ran
  split at ran
  · cases ran
  next fits =>
  cases ran
  refine ⟨entry, not_not.mp nvme, ?_, ⟨okOr_eq_ok.mp found, rfl, rfl, rfl, rfl, nextStateGeneration_eq advanced⟩, rfl,
    valid.1, not_not.mp valid.2.2⟩
  rw [← entryBytes_eq counted]
  omega

theorem abortRestore_ends (counter : Counter) (key : Bytes32) (m : ResidencyManager) :
    Action.Ends (abortRestore counter key) m
      (fun _ m' => ∃ entry, entry.residency = .restoring ∧ Touches key entry (abandoned entry) m m')
      (fun _ m' => m' = m) := by
  refine Action.Ends.updates (fun _ m' ran => ?_) fun _ _ => rfl
  obtain ⟨next, advanced, ran⟩ := bind_eq_ok.mp ran
  obtain ⟨entry, found, ran⟩ := bind_eq_ok.mp ran
  split at ran
  · cases ran
  next restoring =>
  cases ran
  exact ⟨entry, not_not.mp restoring, okOr_eq_ok.mp found, rfl, rfl, rfl, rfl, nextStateGeneration_eq advanced⟩

theorem validateAbortRestoreIdentity_eq_ok : m.validateAbortRestoreIdentity key requestId ordinal = .ok () ↔
    ∃ entry, m.entries[key]? = some entry ∧ entry.residency = .restoring ∧
      entry.pendingRestore = some ⟨requestId, ordinal⟩ := by
  unfold validateAbortRestoreIdentity
  rw [bind_eq_ok]
  refine exists_congr fun entry => ?_
  rw [okOr_eq_ok]
  refine and_congr_right fun _ => ?_
  split
  next refused =>
    simp only [reduceCtorEq, false_iff]
    rintro ⟨restoring, pending⟩
    exact refused.elim (fun h => h restoring) fun h => h pending
  next accepted =>
    simp only [not_or, not_not] at accepted
    simp [accepted]

theorem abortRestoreIdentity_ends (counter : Counter) (key : Bytes32) (requestId ordinal : Nat) (m : ResidencyManager) :
    Action.Ends (abortRestoreIdentity counter key requestId ordinal) m
      (fun _ m' => ∃ entry, entry.residency = .restoring ∧ entry.pendingRestore = some ⟨requestId, ordinal⟩ ∧
        Touches key entry (abandoned entry) m m')
      (fun _ m' => m' = m) := by
  refine Action.Ends.updates (fun _ m' ran => ?_) fun _ _ => rfl
  obtain ⟨_, valid, ran⟩ := bind_eq_ok.mp ran
  obtain ⟨next, advanced, ran⟩ := bind_eq_ok.mp ran
  obtain ⟨entry, found, ran⟩ := bind_eq_ok.mp ran
  obtain ⟨same, isSame, restoring, pending⟩ := validateAbortRestoreIdentity_eq_ok.mp valid
  have found := okOr_eq_ok.mp found
  rw [isSame] at found
  cases found
  cases ran
  exact ⟨entry, restoring, pending, isSame, rfl, rfl, rfl, rfl, nextStateGeneration_eq advanced⟩

theorem pinHbm_ends (counter : Counter) (key : Bytes32) (m : ResidencyManager) :
    Action.Ends (pinHbm counter key) m
      (fun _ m' => ∃ entry touch, entry.residency = .hbm ∧
        Touches key entry { entry with pinCount := entry.pinCount + 1, lastTouch := touch } m m')
      (fun _ m' => m' = m) := by
  refine Action.Ends.updates (fun _ m' ran => ?_) fun _ _ => rfl
  obtain ⟨entry, found, ran⟩ := bind_eq_ok.mp ran
  split at ran
  · cases ran
  next resident =>
  obtain ⟨pins, added, ran⟩ := bind_eq_ok.mp ran
  obtain ⟨clock, _, ran⟩ := bind_eq_ok.mp ran
  obtain ⟨next, advanced, ran⟩ := bind_eq_ok.mp ran
  cases ran
  rw [checkedAdd_some (okOr_eq_ok.mp added)]
  exact ⟨entry, clock, not_not.mp resident, okOr_eq_ok.mp found, rfl, rfl, rfl, rfl, nextStateGeneration_eq advanced⟩

theorem validateUnpinCount_eq_ok : m.validateUnpinCount key count = .ok () ↔
    count ≠ 0 ∧ ∃ entry, m.entries[key]? = some entry ∧ entry.residency = .hbm ∧ count ≤ entry.pinCount := by
  unfold validateUnpinCount
  split
  next zero => simp [zero]
  next positive =>
    rw [bind_eq_ok]
    refine ⟨?_, ?_⟩
    · rintro ⟨entry, found, ok⟩
      split at ok
      · cases ok
      next accepted =>
      simp only [not_or, not_not, Nat.not_lt] at accepted
      exact ⟨positive, entry, okOr_eq_ok.mp found, accepted⟩
    · rintro ⟨_, entry, found, resident, enough⟩
      refine ⟨entry, okOr_eq_ok.mpr found, if_neg ?_⟩
      simp only [not_or, not_not, Nat.not_lt]
      exact ⟨resident, enough⟩

theorem unpinCount_ends (counter : Counter) (key : Bytes32) (count : Nat) (m : ResidencyManager) :
    Action.Ends (unpinCount counter key count) m
      (fun _ m' => ∃ entry, entry.residency = .hbm ∧ count ≤ entry.pinCount ∧
        Touches key entry { entry with pinCount := entry.pinCount - count } m m')
      (fun _ m' => m' = m) := by
  refine Action.Ends.updates (fun _ m' ran => ?_) fun _ _ => rfl
  obtain ⟨_, valid, ran⟩ := bind_eq_ok.mp ran
  obtain ⟨next, advanced, ran⟩ := bind_eq_ok.mp ran
  obtain ⟨entry, found, ran⟩ := bind_eq_ok.mp ran
  obtain ⟨pins, left, ran⟩ := bind_eq_ok.mp ran
  obtain ⟨_, same, isSame, resident, enough⟩ := validateUnpinCount_eq_ok.mp valid
  have found := okOr_eq_ok.mp found
  rw [isSame] at found
  cases found
  cases ran
  rw [(checkedSub_some (okOr_eq_ok.mp left)).2]
  exact ⟨entry, resident, enough, isSame, rfl, rfl, rfl, rfl, nextStateGeneration_eq advanced⟩

theorem Touches.sound_of_same (touches : Touches key entry entry' m m') (sound : Sound m)
    (record_eq : entry'.record = entry.record) (residency_eq : entry'.residency = entry.residency)
    (restored_eq : entry'.restored = entry.restored) (pending_eq : entry'.pendingRestore = entry.pendingRestore)
    (pinned : 0 < entry'.pinCount → entry.residency = .hbm) : Sound m' := by
  obtain ⟨valid, tier, key_eq, _, pending, restored, restored_same⟩ := sound.each key entry touches.found
  refine touches.sound sound ⟨?_, ?_, ?_, ?_, ?_, ?_, ?_⟩ ?_ ?_
  · rwa [record_eq]
  · rwa [record_eq]
  · rwa [record_eq]
  · rwa [residency_eq]
  · rwa [pending_eq, residency_eq]
  · rwa [restored_eq, residency_eq]
  · rwa [restored_eq, record_eq]
  · rw [hbmShare, hbmShare, record_eq, residency_eq]
  · rw [dramShare, dramShare, record_eq, residency_eq]

theorem Touches.sound_restoring (sound : Sound m) (nvme : entry.residency = .nvme)
    (touches : Touches key entry { entry with residency := .restoring, pendingRestore := some ⟨requestId, ordinal⟩ } m m') :
    Sound m' := by
  obtain ⟨valid, tier, key_eq, pinned, pending, restored, restored_same⟩ := sound.each key entry touches.found
  rw [nvme] at pinned pending restored
  refine touches.sound sound ⟨valid, tier, key_eq, fun positive => ?_, ?_, ?_, restored_same⟩ ?_ ?_
  · cases pinned positive
  · simp
  · rw [restored]
    simp
  · simp [hbmShare, nvme]
  · simp [dramShare, nvme]

theorem Touches.sound_abandoned (sound : Sound m) (restoring : entry.residency = .restoring)
    (touches : Touches key entry (abandoned entry) m m') : Sound m' := by
  obtain ⟨valid, tier, key_eq, pinned, pending, restored, restored_same⟩ := sound.each key entry touches.found
  rw [restoring] at pinned pending restored
  refine touches.sound sound ⟨valid, tier, key_eq, fun positive => ?_, ?_, ?_, restored_same⟩ ?_ ?_
  · cases pinned positive
  · simp [abandoned]
  · show entry.restored.isSome = true ↔ _
    rw [restored]
    simp [abandoned]
  · simp [hbmShare, abandoned, restoring]
  · simp [dramShare, abandoned, restoring]

end Operations

end Glmaxx.Proof.Residency
