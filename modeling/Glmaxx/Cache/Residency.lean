import Glmaxx.Cache.Tier
import Glmaxx.Library.Action

namespace Glmaxx.Cache
open Std Library

inductive Residency where
  | hbm
  | dram
  | nvme
  | restoring
deriving DecidableEq, Repr

structure ResidencyConfig where
  hbmBytes : UInt64
  dramBytes : UInt64
deriving DecidableEq, Repr

/-- A page read back; the bytes of its pieces are passed on unread. -/
structure RestoredPage where
  record : TierRecord
deriving DecidableEq

structure PendingRestoreIdentity where
  requestId : Nat
  pageOrdinal : Nat
deriving DecidableEq, Repr

structure ResidentEntry where
  record : TierRecord
  residency : Residency
  restored : Option RestoredPage
  pendingRestore : Option PendingRestoreIdentity
  pinCount : Nat
  lastTouch : Nat
deriving DecidableEq

structure ResidencyManager where
  config : ResidencyConfig
  entries : ExtTreeMap Bytes32 ResidentEntry
  hbmBytes : Nat
  dramBytes : Nat
  clock : Nat
  stateGeneration : Nat
deriving DecidableEq

structure HbmAdmissionPlan where
  victims : ExtTreeMap Bytes32 Residency
  hbmBytes : Nat
  dramBytes : Nat

structure NvmeRegistrationPlan where
  records : List TierRecord
  hbmBytes : Nat
  dramBytes : Nat
  expectedStateGeneration : Nat
deriving DecidableEq

inductive NvmeRegistrationAction where
  | insert
  | replace
  | retain
deriving DecidableEq, Repr

structure RestoreRequest where
  requestId : Nat
  pageKey : Bytes32
  expectedNamespace : Bytes32
  minimumGeneration : UInt64
  pageOrdinal : Nat
  workerRank : Nat
deriving DecidableEq

structure RestoreResult where
  requestId : Nat
  pageOrdinal : Nat
  page : RestoredPage
deriving DecidableEq

inductive ResidencyError where
  | config
  | record
  | request
  | missing
  | state
  | stale
  | pinned
  | overflow
deriving DecidableEq, Repr

abbrev Reside := Action ResidencyManager ResidencyError

def entryBytes (record : TierRecord) : Except ResidencyError Nat :=
  record.pieces.foldlM (fun total piece => okOr (checkedAdd 64 total piece.byteLength.toNat) .overflow) 0

namespace ResidencyManager

def new (config : ResidencyConfig) : Except ResidencyError ResidencyManager :=
  if config.hbmBytes = 0 then .error .config else .ok ⟨config, ∅, 0, 0, 0, 0⟩

def nextStateGeneration (counter : Counter) (m : ResidencyManager) : Except ResidencyError Nat :=
  okOr (counter.add m.stateGeneration 1) .overflow

section Registration

def nvmeRegistrationAction (m : ResidencyManager) (record : TierRecord) :
    Except ResidencyError NvmeRegistrationAction :=
  match record.validate with
  | .error _ => .error .record
  | .ok () =>
    if record.tier ≠ .nvme then .error .record
    else match m.entries[record.pageKey]? with
      | none => .ok .insert
      | some entry => match entry.record.relationTo record with
        | .error _ => .error .record
        | .ok .exactDedup | .ok .retainMtp => .ok .retain
        | .ok .mtpUpgrade =>
          if record.generation ≤ entry.record.generation then .error .stale
          else if entry.pinCount ≠ 0 then .error .pinned
          else if entry.residency = .restoring then .error .state
          else do
            let _ ← entryBytes entry.record
            .ok .replace

/-- The bytes left in each tier once the copies of a replaced page are dropped. -/
def dropReplaced (m : ResidencyManager) (record : TierRecord) (hbmBytes dramBytes : Nat) :
    Except ResidencyError (Nat × Nat) := do
  let existing ← okOr m.entries[record.pageKey]? .missing
  let bytes ← entryBytes existing.record
  match existing.residency with
  | .hbm => do
    let rest ← okOr (checkedSub hbmBytes bytes) .overflow
    .ok (rest, dramBytes)
  | .dram => do
    let rest ← okOr (checkedSub dramBytes bytes) .overflow
    .ok (hbmBytes, rest)
  | .nvme => .ok (hbmBytes, dramBytes)
  | .restoring => .error .state

/-- The loop of `plan_nvme_registrations`, with the page keys seen so far. -/
def planRecords (m : ResidencyManager) :
    List TierRecord → List Bytes32 → NvmeRegistrationPlan → Except ResidencyError NvmeRegistrationPlan
  | [], _, plan => .ok plan
  | record :: rest, pageKeys, plan =>
    if record.pageKey ∈ pageKeys then .error .record
    else do
      match ← m.nvmeRegistrationAction record with
      | .retain => planRecords m rest (record.pageKey :: pageKeys) plan
      | .insert =>
        planRecords m rest (record.pageKey :: pageKeys) { plan with records := plan.records ++ [record] }
      | .replace => do
        let (hbmBytes, dramBytes) ← m.dropReplaced record plan.hbmBytes plan.dramBytes
        planRecords m rest (record.pageKey :: pageKeys)
          { plan with records := plan.records ++ [record], hbmBytes := hbmBytes, dramBytes := dramBytes }

def planNvmeRegistrations (m : ResidencyManager) (records : List TierRecord) :
    Except ResidencyError NvmeRegistrationPlan :=
  m.planRecords records [] ⟨[], m.hbmBytes, m.dramBytes, m.stateGeneration⟩

def validateNvmeRegistrationPlan (m : ResidencyManager) (plan : NvmeRegistrationPlan) : Except ResidencyError Unit :=
  if plan.expectedStateGeneration ≠ m.stateGeneration then .error .stale else .ok ()

def registered (record : TierRecord) : ResidentEntry := ⟨record, .nvme, none, none, 0, 0⟩

def insertRecords (entries : ExtTreeMap Bytes32 ResidentEntry) (records : List TierRecord) :
    ExtTreeMap Bytes32 ResidentEntry :=
  records.foldl (fun entries record => entries.insert record.pageKey (registered record)) entries

def generationAfter (counter : Counter) (m : ResidencyManager) (plan : NvmeRegistrationPlan) :
    Except ResidencyError Nat :=
  if plan.records = [] then .ok m.stateGeneration else m.nextStateGeneration counter

def commitNvmeRegistrations (counter : Counter) (plan : NvmeRegistrationPlan) : Reside Unit :=
  .updates fun m => do
    m.validateNvmeRegistrationPlan plan
    let next ← m.generationAfter counter plan
    .ok ((), { m with
      entries := insertRecords m.entries plan.records
      hbmBytes := plan.hbmBytes
      dramBytes := plan.dramBytes
      stateGeneration := next })

def registerNvme (counter : Counter) (record : TierRecord) : Reside Unit := do
  let plan ← .reads fun m => m.planNvmeRegistrations [record]
  commitNvmeRegistrations counter plan

end Registration

section Restore

def beginRestore (counter : Counter) (requestId : Nat) (pageKey : Bytes32) (pageOrdinal workerRank : Nat) :
    Reside RestoreRequest :=
  .updates fun m =>
    if requestId = 0 ∨ workerRank ≥ 4 ∨ (ownerRank pageOrdinal).val ≠ workerRank then .error .request
    else do
      let next ← m.nextStateGeneration counter
      let entry ← okOr m.entries[pageKey]? .missing
      if entry.residency ≠ .nvme then .error .state
      else do
        let bytes ← entryBytes entry.record
        if bytes > m.config.hbmBytes.toNat then .error .state
        else
          .ok (⟨requestId, pageKey, entry.record.nameSpace, entry.record.generation, pageOrdinal, workerRank⟩,
            { m with
              entries := m.entries.insert pageKey
                { entry with residency := .restoring, pendingRestore := some ⟨requestId, pageOrdinal⟩ }
              stateGeneration := next })

def abandoned (entry : ResidentEntry) : ResidentEntry := { entry with residency := .nvme, pendingRestore := none }

def abortRestore (counter : Counter) (pageKey : Bytes32) : Reside Unit :=
  .updates fun m => do
    let next ← m.nextStateGeneration counter
    let entry ← okOr m.entries[pageKey]? .missing
    if entry.residency ≠ .restoring then .error .state
    else .ok ((), { m with entries := m.entries.insert pageKey (abandoned entry), stateGeneration := next })

def validateAbortRestoreIdentity (m : ResidencyManager) (pageKey : Bytes32) (requestId pageOrdinal : Nat) :
    Except ResidencyError Unit := do
  let entry ← okOr m.entries[pageKey]? .missing
  if entry.residency ≠ .restoring ∨ entry.pendingRestore ≠ some ⟨requestId, pageOrdinal⟩ then .error .state
  else .ok ()

def abortRestoreIdentity (counter : Counter) (pageKey : Bytes32) (requestId pageOrdinal : Nat) : Reside Unit :=
  .updates fun m => do
    m.validateAbortRestoreIdentity pageKey requestId pageOrdinal
    let next ← m.nextStateGeneration counter
    let entry ← okOr m.entries[pageKey]? .missing
    .ok ((), { m with entries := m.entries.insert pageKey (abandoned entry), stateGeneration := next })

end Restore

section Admission

structure Candidate where
  key : Bytes32
  lastTouch : Nat
  bytes : Nat
deriving DecidableEq

def candidateOf (pair : Bytes32 × ResidentEntry) : Except ResidencyError Candidate := do
  let bytes ← entryBytes pair.2.record
  .ok ⟨pair.1, pair.2.lastTouch, bytes⟩

def Candidate.Sooner (left right : Candidate) : Prop :=
  left.lastTouch < right.lastTouch ∨
    left.lastTouch = right.lastTouch ∧ (compare left.key right.key).isLE = true

instance : DecidableRel Candidate.Sooner := fun left right => by
  unfold Candidate.Sooner
  infer_instance

def evictable (m : ResidencyManager) (excluded : Bytes32) : List (Bytes32 × ResidentEntry) :=
  m.entries.toList.filter fun pair =>
    pair.1 ≠ excluded ∧ pair.2.residency = .hbm ∧ pair.2.pinCount = 0

/-- The loop over the candidates: each one goes to DRAM if it fits there, until the page fits. -/
def chooseVictims (config : ResidencyConfig) (incomingBytes : Nat) :
    List Candidate → HbmAdmissionPlan → Except ResidencyError HbmAdmissionPlan
  | [], plan => .ok plan
  | candidate :: rest, plan => do
    let sum ← okOr (checkedAdd 64 plan.hbmBytes incomingBytes) .overflow
    if sum ≤ config.hbmBytes.toNat then .ok plan
    else do
      let hbmAfter ← okOr (checkedSub plan.hbmBytes candidate.bytes) .overflow
      let dramSum ← okOr (checkedAdd 64 plan.dramBytes candidate.bytes) .overflow
      if dramSum ≤ config.dramBytes.toNat then
        chooseVictims config incomingBytes rest ⟨plan.victims.insert candidate.key .dram, hbmAfter, dramSum⟩
      else
        chooseVictims config incomingBytes rest ⟨plan.victims.insert candidate.key .nvme, hbmAfter, plan.dramBytes⟩

def planHbmAdmission (m : ResidencyManager) (incomingBytes dramReleaseBytes : Nat) (excluded : Bytes32) :
    Except ResidencyError HbmAdmissionPlan := do
  let dramAfter ← okOr (checkedSub m.dramBytes dramReleaseBytes) .overflow
  let sum ← okOr (checkedAdd 64 m.hbmBytes incomingBytes) .overflow
  if sum ≤ m.config.hbmBytes.toNat then .ok ⟨∅, m.hbmBytes + incomingBytes, dramAfter⟩
  else do
    let candidates ← (m.evictable excluded).mapM candidateOf
    let plan ← chooseVictims m.config incomingBytes (candidates.insertionSort Candidate.Sooner)
      ⟨∅, m.hbmBytes, dramAfter⟩
    let sum ← okOr (checkedAdd 64 plan.hbmBytes incomingBytes) .overflow
    if sum > m.config.hbmBytes.toNat then .error .pinned
    else .ok { plan with hbmBytes := sum }

def evicted (entry : ResidentEntry) (destination : Residency) : ResidentEntry :=
  { entry with
    residency := destination
    restored := if destination = .nvme then none else entry.restored }

def applyVictims (victims : ExtTreeMap Bytes32 Residency) (entries : ExtTreeMap Bytes32 ResidentEntry) :
    ExtTreeMap Bytes32 ResidentEntry :=
  entries.map fun key entry => victims[key]?.elim entry (evicted entry)

def applyHbmAdmission (plan : HbmAdmissionPlan) (m : ResidencyManager) : ResidencyManager :=
  { m with
    entries := applyVictims plan.victims m.entries
    hbmBytes := plan.hbmBytes
    dramBytes := plan.dramBytes }

def completeRestore (counter : Counter) (result : RestoreResult) : Reside Unit :=
  .updates fun m => do
    let pageKey := result.page.record.pageKey
    let entry ← okOr m.entries[pageKey]? .missing
    if entry.residency ≠ .restoring ∨ entry.pendingRestore ≠ some ⟨result.requestId, result.pageOrdinal⟩
        ∨ entry.record ≠ result.page.record then .error .stale
    else do
      let bytes ← entryBytes entry.record
      let nextClock ← okOr (counter.add m.clock 1) .overflow
      let next ← m.nextStateGeneration counter
      let plan ← m.planHbmAdmission bytes 0 pageKey
      let restored := { entry with
        residency := .hbm, restored := some result.page, pendingRestore := none, lastTouch := nextClock }
      .ok ((), { applyHbmAdmission plan { m with entries := m.entries.insert pageKey restored } with
        clock := nextClock, stateGeneration := next })

def promoteDram (counter : Counter) (pageKey : Bytes32) : Reside Unit :=
  .updates fun m => do
    let entry ← okOr m.entries[pageKey]? .missing
    if entry.residency ≠ .dram then .error .state
    else do
      let bytes ← entryBytes entry.record
      let nextClock ← okOr (counter.add m.clock 1) .overflow
      let next ← m.nextStateGeneration counter
      let plan ← m.planHbmAdmission bytes bytes pageKey
      let promoted := { entry with residency := .hbm, lastTouch := nextClock }
      .ok ((), { applyHbmAdmission plan { m with entries := m.entries.insert pageKey promoted } with
        clock := nextClock, stateGeneration := next })

end Admission

section Pins

def pinHbm (counter : Counter) (pageKey : Bytes32) : Reside Unit :=
  .updates fun m => do
    let entry ← okOr m.entries[pageKey]? .missing
    if entry.residency ≠ .hbm then .error .state
    else do
      let nextPinCount ← okOr (checkedAdd 32 entry.pinCount 1) .overflow
      let nextClock ← okOr (counter.add m.clock 1) .overflow
      let next ← m.nextStateGeneration counter
      .ok ((), { m with
        entries := m.entries.insert pageKey { entry with pinCount := nextPinCount, lastTouch := nextClock }
        clock := nextClock
        stateGeneration := next })

def validateUnpinCount (m : ResidencyManager) (pageKey : Bytes32) (count : Nat) : Except ResidencyError Unit :=
  if count = 0 then .error .request
  else do
    let entry ← okOr m.entries[pageKey]? .missing
    if entry.residency ≠ .hbm ∨ entry.pinCount < count then .error .state else .ok ()

def unpinCount (counter : Counter) (pageKey : Bytes32) (count : Nat) : Reside Unit :=
  .updates fun m => do
    m.validateUnpinCount pageKey count
    let next ← m.nextStateGeneration counter
    let entry ← okOr m.entries[pageKey]? .missing
    let pinCount ← okOr (checkedSub entry.pinCount count) .state
    .ok ((), { m with
      entries := m.entries.insert pageKey { entry with pinCount := pinCount }
      stateGeneration := next })

def unpin (counter : Counter) (pageKey : Bytes32) : Reside Unit := unpinCount counter pageKey 1

end Pins

def location (m : ResidencyManager) (pageKey : Bytes32) : Option Residency := m.entries[pageKey]?.map (·.residency)

def recordOf (m : ResidencyManager) (pageKey : Bytes32) : Option TierRecord := m.entries[pageKey]?.map (·.record)

end ResidencyManager

/-- A call on a manager; a plan is committed by its place among the plans made and not yet committed. -/
inductive ResidencyCall where
  | registerNvme (record : TierRecord)
  | planNvmeRegistrations (records : List TierRecord)
  | commitNvmeRegistrations (index : Nat)
  | beginRestore (requestId : Nat) (pageKey : Bytes32) (pageOrdinal workerRank : Nat)
  | abortRestore (pageKey : Bytes32)
  | abortRestoreIdentity (pageKey : Bytes32) (requestId pageOrdinal : Nat)
  | completeRestore (result : RestoreResult)
  | promoteDram (pageKey : Bytes32)
  | pinHbm (pageKey : Bytes32)
  | unpin (pageKey : Bytes32)
  | unpinCount (pageKey : Bytes32) (count : Nat)
deriving DecidableEq

/-- A manager and the plans its user holds. -/
structure Managed where
  manager : ResidencyManager
  plans : List NvmeRegistrationPlan

namespace Managed

def onManager {α : Type} (action : Reside α) : Action Managed ResidencyError Unit := do
  let _ ← action.within Managed.manager (fun manager s => { s with manager := manager }) id
  pure ()

def call (counter : Counter) : ResidencyCall → Action Managed ResidencyError Unit
  | .registerNvme record => onManager (ResidencyManager.registerNvme counter record)
  | .planNvmeRegistrations records => .updates fun s => do
    let plan ← s.manager.planNvmeRegistrations records
    .ok ((), { s with plans := s.plans ++ [plan] })
  | .commitNvmeRegistrations index => fun s => match s.plans[index]? with
    | none => (.error .missing, s)
    | some plan =>
      onManager (ResidencyManager.commitNvmeRegistrations counter plan) { s with plans := s.plans.eraseIdx index }
  | .beginRestore requestId pageKey pageOrdinal workerRank =>
    onManager (ResidencyManager.beginRestore counter requestId pageKey pageOrdinal workerRank)
  | .abortRestore pageKey => onManager (ResidencyManager.abortRestore counter pageKey)
  | .abortRestoreIdentity pageKey requestId pageOrdinal =>
    onManager (ResidencyManager.abortRestoreIdentity counter pageKey requestId pageOrdinal)
  | .completeRestore result => onManager (ResidencyManager.completeRestore counter result)
  | .promoteDram pageKey => onManager (ResidencyManager.promoteDram counter pageKey)
  | .pinHbm pageKey => onManager (ResidencyManager.pinHbm counter pageKey)
  | .unpin pageKey => onManager (ResidencyManager.unpin counter pageKey)
  | .unpinCount pageKey count => onManager (ResidencyManager.unpinCount counter pageKey count)

def run (counter : Counter) (s : Managed) (calls : List ResidencyCall) : Managed :=
  calls.foldl (fun s entry => (call counter entry s).2) s

end Managed

end Glmaxx.Cache
