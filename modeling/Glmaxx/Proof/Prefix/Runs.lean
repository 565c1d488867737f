import Glmaxx.Proof.Prefix.Polling
import Glmaxx.Proof.Prefix.Registering
import Glmaxx.Proof.Residency.Runs

namespace Glmaxx.Proof.Prefix
open Std Library Cache Serving

variable {sha256 : List UInt8 → Bytes32} {s s' : Restoration} {entry : Serving.RestoreCall}

section Calls

def Kept (sha256 : List UInt8 → Bytes32) (s : Restoration) : Prop := Whole sha256 s.asked s.ready s.coordinator

def pagesOf (s : Restoration) : Serving.RestoreCall → Nat
  | .registerPrefix _ _ => 1
  | .beginRestore _ tokens _ _ => tokens.length / pageTokens
  | .pollRestore requestId _ | .cancelRestore requestId =>
    s.coordinator.pending[requestId]?.elim 0 fun restore => restore.pages.length
  | .release index => s.ready[index]?.elim 0 fun result => result.2.pageKeys.length

def Roomy (s : Restoration) (entry : Serving.RestoreCall) : Prop :=
  ∀ rank, (s.coordinator.ranks rank).stateGeneration + 4 * pagesOf s entry < 2 ^ 64

def remaining (entry : Serving.RestoreCall) (pending : ExtTreeMap Nat PendingRestore) : ExtTreeMap Nat PendingRestore :=
  match entry with
  | .pollRestore requestId _ => pending.erase requestId
  | _ => pending

/-- A failed call moved nothing but pages between tiers, and gave up at most the restore it was about. -/
structure Unmoved (entry : Serving.RestoreCall) (s s' : Restoration) : Prop where
  index_eq : s'.coordinator.index = s.coordinator.index
  ready_eq : s'.ready = s.ready
  pending_eq : s'.coordinator.pending = remaining entry s.coordinator.pending

theorem onCoordinator_ends {α : Type} {action : Restores α} {good : α → PrefixRestoreCoordinator → Prop}
    {bad : PrefixRestoreError → PrefixRestoreCoordinator → Prop} (ends : Action.Ends action s.coordinator good bad) :
    Action.Ends (Restoration.onCoordinator action) s
      (fun a s' => ∃ coordinator, good a coordinator ∧ s' = { s with coordinator := coordinator })
      (fun e s' => ∃ coordinator, bad e coordinator ∧ s' = { s with coordinator := coordinator }) :=
  Action.Ends.within ends (fun _ coordinator holds => ⟨coordinator, holds, rfl⟩)
    fun _ coordinator holds => ⟨coordinator, holds, rfl⟩

theorem note_ends {tokens : List UInt32} {status : PrefixRestoreStatus}
    {bad : PrefixRestoreError → Restoration → Prop} (kept : Whole sha256 s.asked (noted tokens s.ready status) s.coordinator) :
    Action.Ends (Restoration.note tokens status) s (fun _ s' => Kept sha256 s') bad := by
  cases status with
  | pending => exact Action.Ends.pure kept
  | ready restored => exact Action.Ends.of_ok rfl kept

theorem Failed.kept {failure : PrefixRestoreError} {coordinator : PrefixRestoreCoordinator} (kept : Kept sha256 s)
    (failed : Failed sha256 s.ready s.coordinator failure coordinator) :
    Kept sha256 { s with coordinator := coordinator } := by
  refine ⟨failed.coherent, failed.sound, fun id restore found => ?_⟩
  have found : coordinator.pending[id]? = some restore := found
  rw [failed.pending_eq] at found
  show StoredSound sha256 coordinator.index _ restore
  rw [failed.index_eq]
  exact kept.stored id restore found

def CallEnds (sha256 : List UInt8 → Bytes32) (entry : Serving.RestoreCall) (s : Restoration) : Prop :=
  Action.Ends (Restoration.call sha256 .u64 entry) s (fun _ s' => Kept sha256 s')
    (fun failure s' => failure ≠ .panicked ∧ Kept sha256 s' ∧ Unmoved entry s s')

section
variable (kept : Kept sha256 s)
include kept

theorem registerPrefix_callEnds (tokens : List UInt32) (records : List TierRecord)
    (roomy : Roomy s (.registerPrefix tokens records)) : CallEnds sha256 (.registerPrefix tokens records) s := by
  have below (rank : Fin 4) : (s.coordinator.ranks rank).stateGeneration < 2 ^ 64 - 1 := by
    have : (s.coordinator.ranks rank).stateGeneration + 4 * 1 < 2 ^ 64 := roomy rank
    omega
  have ends := onCoordinator_ends (registerPrefix_ends tokens records kept room_u64 below)
  refine (ends.mono (fun _ s' good => ?_) fun _ s' bad => ?_).bind fun _ s' holds => Action.Ends.pure holds
  · obtain ⟨coordinator, ⟨whole, _⟩, rfl⟩ := good
    exact whole
  · obtain ⟨coordinator, ⟨calm, rfl⟩, rfl⟩ := bad
    exact ⟨calm, kept, rfl, rfl, rfl⟩

theorem beginRestore_callEnds (id : Nat) (tokens : List UInt32) (requireDraft : Bool)
    (answers : RestoreAnswers) (roomy : Roomy s (.beginRestore id tokens requireDraft answers)) :
    CallEnds sha256 (.beginRestore id tokens requireDraft answers) s := by
  have below (rank : Fin 4) : (s.coordinator.ranks rank).stateGeneration + 4 * (tokens.length / pageTokens) ≤ 2 ^ 64 - 1 :=
    Nat.le_sub_one_of_lt (roomy rank)
  have ends := onCoordinator_ends
    (beginRestore_ends answers id tokens requireDraft kept room_u64 below)
  refine (ends.mono (fun _ _ good => good) fun failure s' bad => ?_).bind fun status s' good => ?_
  · obtain ⟨coordinator, failed, rfl⟩ := bad
    exact ⟨failed.calm, failed.kept kept, failed.index_eq, rfl, failed.pending_eq⟩
  · obtain ⟨coordinator, whole, rfl⟩ := good
    exact Action.Ends.step rfl (note_ends whole)

theorem pollRestore_callEnds (id : Nat) (answers : RestoreAnswers)
    (roomy : Roomy s (.pollRestore id answers)) : CallEnds sha256 (.pollRestore id answers) s := by
  have below : ∀ restore, s.coordinator.pending[id]? = some restore →
      ∀ rank, (s.coordinator.ranks rank).stateGeneration + 4 * restore.pages.length ≤ 2 ^ 64 - 1 := by
    intro restore found rank
    have := roomy rank
    rw [pagesOf, found, Option.elim_some] at this
    omega
  have ends := onCoordinator_ends (pollRestore_ends answers kept room_u64 below)
  refine (ends.mono (fun _ _ good => good) fun failure s' bad => ?_).bind fun status s' good => ?_
  · obtain ⟨coordinator, ⟨absent, rfl, rfl⟩ | failed, rfl⟩ := bad
    · exact ⟨by simp, kept, rfl, rfl, (erase_of_getElem?_none absent).symm⟩
    · refine ⟨failed.calm, ⟨failed.coherent, failed.sound, fun other restore found => ?_⟩, failed.index_eq, rfl,
        failed.pending_eq⟩
      have found : coordinator.pending[other]? = some restore := found
      rw [failed.pending_eq] at found
      have stored : StoredSound sha256 s.coordinator.index (s.asked other) restore := Whole.stored_erase kept found
      show StoredSound sha256 coordinator.index _ restore
      rw [failed.index_eq]
      exact stored
  · obtain ⟨coordinator, whole, rfl⟩ := good
    exact Action.Ends.step rfl (note_ends whole)

theorem cancelRestore_callEnds (id : Nat) (roomy : Roomy s (.cancelRestore id)) :
    CallEnds sha256 (.cancelRestore id) s := by
  have below : ∀ restore, s.coordinator.pending[id]? = some restore →
      ∀ rank, (s.coordinator.ranks rank).stateGeneration + 4 * restore.pages.length ≤ 2 ^ 64 - 1 := by
    intro restore found rank
    have := roomy rank
    rw [pagesOf, found, Option.elim_some] at this
    omega
  refine (onCoordinator_ends (cancelRestore_ends kept room_u64 below)).mono (fun _ s' good => ?_) fun _ s' bad => ?_
  · obtain ⟨coordinator, ⟨whole, _⟩, rfl⟩ := good
    exact whole
  · obtain ⟨coordinator, ⟨_, rfl, rfl⟩, rfl⟩ := bad
    exact ⟨by simp, kept, rfl, rfl, rfl⟩

theorem release_callEnds (index : Nat) (roomy : Roomy s (.release index)) :
    CallEnds sha256 (.release index) s := by
  refine Action.Ends.reads (fun result isResult => ?_) fun failure failed => ?_
  · have get := okOr_eq_ok.mp isResult
    have below (rank : Fin 4) : (s.coordinator.ranks rank).stateGeneration + result.2.pageKeys.length ≤ 2 ^ 64 - 1 := by
      have := roomy rank
      rw [pagesOf, get, Option.elim_some] at this
      omega
    obtain ⟨coordinator, ran, whole⟩ := release_ends kept get room_u64 below
    exact Action.Ends.step (Action.within_ok ran) (Action.Ends.of_ok rfl whole)
  · cases get : s.ready[index]? with
    | none =>
      rw [get] at failed
      cases failed
      exact ⟨by simp, kept, rfl, rfl, rfl⟩
    | some result =>
      rw [get] at failed
      cases failed

theorem call_ends (entry : Serving.RestoreCall) (roomy : Roomy s entry) : CallEnds sha256 entry s := by
  cases entry with
  | registerPrefix tokens records => exact registerPrefix_callEnds kept tokens records roomy
  | beginRestore id tokens requireDraft answers => exact beginRestore_callEnds kept id tokens requireDraft answers roomy
  | pollRestore id answers => exact pollRestore_callEnds kept id answers roomy
  | cancelRestore id => exact cancelRestore_callEnds kept id roomy
  | release index => exact release_callEnds kept index roomy

end

end Calls

section Meaning

def ownPins (entry : Serving.RestoreCall) (s : Restoration) (key : Bytes32) : Nat :=
  match entry with
  | .pollRestore requestId _ => s.coordinator.pending[requestId]?.elim 0 fun restore => pinnedIn restore.pages key
  | _ => 0

def Owns (entry : Serving.RestoreCall) (requestId : Nat) : Prop :=
  match entry with
  | .pollRestore own _ => requestId = own
  | _ => False

/-- The call left the index, and every other request's pins and restores, as they were. -/
structure OthersKept (entry : Serving.RestoreCall) (s s' : Restoration) : Prop where
  index_eq : s'.coordinator.index = s.coordinator.index
  ready_eq : s'.ready = s.ready
  pending_eq : ∀ id : Nat, ¬Owns entry id → s'.coordinator.pending[id]? = s.coordinator.pending[id]?
  pages : ∀ rank key page, (s.coordinator.ranks rank).entries[key]? = some page →
    ∃ page', (s'.coordinator.ranks rank).entries[key]? = some page' ∧ page'.record = page.record ∧
      page'.pinCount + ownPins entry s key = page.pinCount ∧
      ∀ identity, ¬Owns entry identity.requestId →
        (page'.pendingRestore = some identity ↔ page.pendingRestore = some identity)

structure Faithful (sha256 : List UInt8 → Bytes32) (s : Restoration) : Prop where
  owned : ∀ key ordinal record, IndexedAt s.coordinator.index key ordinal →
    s.coordinator.index.record key = some record →
      (s.coordinator.ranks (ownerRank ordinal)).recordOf key = some record ∧
      ∀ rank, rank ≠ ownerRank ordinal → (s.coordinator.ranks rank).recordOf key = none
  placed : ∀ (key : PrefixPageKey) (page : PrefixPage), s.coordinator.index.pages[key]? = some page →
    ∃ ordinal, IndexedAt s.coordinator.index key ordinal
  pins : ∀ rank key page, (s.coordinator.ranks rank).entries[key]? = some page →
    page.pinCount = s.ready.countP (fun result => key ∈ result.2.pageKeys) +
      s.coordinator.pending.values.countP fun restore =>
        restore.pages.any fun its => its.state = .pinned ∧ its.key = key
  restoring : ∀ rank key page, (s.coordinator.ranks rank).entries[key]? = some page → page.residency = .restoring →
    ∃! holder : Nat × PendingPage, ∃ restore, s.coordinator.pending[holder.1]? = some restore ∧
      restore.requestId = holder.1 ∧ holder.2 ∈ restore.pages ∧ (∃ handle, holder.2.state = .restoring handle) ∧
      holder.2.rank = rank ∧ holder.2.key = key ∧ page.pendingRestore = some ⟨holder.1, holder.2.ordinal⟩
  results : ∀ result ∈ s.ready, ResultSound sha256 s.coordinator.index result.1 result.2

theorem recordOf_eq (coordinator : PrefixRestoreCoordinator) (rank : Fin 4) (key : Bytes32) :
    (coordinator.ranks rank).recordOf key = (leasesOf coordinator rank key).map (·.record) := by
  show _ = Option.map _ (Option.map leaseOf _)
  rw [Option.map_map]
  rfl

theorem Kept.pins (kept : Kept sha256 s) {rank : Fin 4} {key : Bytes32} {page : ResidentEntry}
    (found : (s.coordinator.ranks rank).entries[key]? = some page) :
    page.pinCount = s.ready.countP (fun result => key ∈ result.2.pageKeys) +
      s.coordinator.pending.values.countP fun restore =>
        restore.pages.any fun its => its.state = .pinned ∧ its.key = key := by
  have pins := kept.coherent.pins rank key (leaseOf page) (lease_eq found)
  show (leaseOf page).pins = _
  rw [pins, countP_values]
  refine congrArg₂ _ (by simp [readyPins]) (total_congr _ fun id restore isRestore => ?_)
  have bound := pinnedIn_le_one (kept.coherent.restores id restore isRestore).keys_nodup key
  have positive : 0 < pinnedIn restore.pages key ↔ _ := pinnedIn_pos
  split
  next holds =>
    have : 0 < pinnedIn restore.pages key := positive.mpr (by simpa using holds)
    omega
  next free =>
    by_contra some
    exact free (by simpa using positive.mp (Nat.pos_of_ne_zero some))

theorem Kept.faithful (kept : Kept sha256 s) : Faithful sha256 s := by
  refine ⟨fun key ordinal record indexed isRecord => ⟨?_, fun rank different => ?_⟩, kept.coherent.indexSound.placed,
    fun rank key page found => kept.pins found, fun rank key page found restoring => ?_, kept.coherent.results⟩
  · rw [recordOf_eq]
    exact (kept.coherent.agrees _ key record).mpr ⟨ordinal, indexed, rfl, isRecord⟩
  · rw [recordOf_eq, Option.map_eq_none_iff, Option.eq_none_iff_forall_ne_some]
    intro its leased
    exact different (kept.coherent.owner indexed leased)
  · obtain ⟨identity, pending⟩ := Option.isSome_iff_exists.mp
      (((kept.ranks rank).each key page found).pending.mpr restoring)
    obtain ⟨restore, its, isRestore, member, waiting, rank_eq, key_eq, ordinal_eq⟩ :=
      kept.coherent.restoring rank key (leaseOf page) identity (lease_eq found) pending
    have handled (restore : PendingRestore) (id : Nat) (isRestore : s.coordinator.pending[id]? = some restore)
        (its : PendingPage) (member : its ∈ restore.pages) (waiting : waits its.state = true) :
        ∃ handle, its.state = .restoring handle := by
      rcases (kept.stored id restore isRestore).held its member with pinned | handle
      · rw [pinned] at waiting
        cases waiting
      · exact handle
    refine ⟨(identity.requestId, its), ⟨restore, isRestore, (kept.coherent.restores _ restore isRestore).id_eq, member,
      handled restore _ isRestore its member waiting, rank_eq, key_eq, ?_⟩, ?_⟩
    · rw [pending, ordinal_eq]
    · rintro ⟨id, other⟩ ⟨otherRestore, isOther, _, otherMember, _, _, _, same⟩
      rw [pending, Option.some.injEq] at same
      obtain rfl : id = identity.requestId := by rw [same]
      have isOther : s.coordinator.pending[identity.requestId]? = some otherRestore := isOther
      rw [isRestore] at isOther
      cases isOther
      have own := kept.coherent.restores _ restore isRestore
      have first := own.at_ordinal member
      rw [ordinal_eq, show identity.pageOrdinal = other.ordinal by rw [same], own.at_ordinal otherMember] at first
      exact Prod.ext rfl (Option.some.inj first)

theorem get_remaining {id : Nat} {restore : PendingRestore} {pending : ExtTreeMap Nat PendingRestore} :
    (remaining entry pending)[id]? = some restore ↔ ¬Owns entry id ∧ pending[id]? = some restore := by
  cases entry with
  | pollRestore own answers =>
    show (pending.erase own)[id]? = _ ↔ ¬id = own ∧ _
    rw [ExtTreeMap.getElem?_erase]
    split
    next same => simp [(Std.compare_eq_iff_eq.mp same).symm]
    next different =>
      have : ¬id = own := fun same => different (Std.compare_eq_iff_eq.mpr same.symm)
      simp [this]
  | registerPrefix | beginRestore | cancelRestore | release => simp [remaining, Owns]

theorem total_remaining (entry : Serving.RestoreCall) (s : Restoration) (key : Bytes32) :
    total s.coordinator.pending (fun _ restore => pinnedIn restore.pages key) =
      total (remaining entry s.coordinator.pending) (fun _ restore => pinnedIn restore.pages key) + ownPins entry s key := by
  cases entry with
  | pollRestore own answers =>
    cases found : s.coordinator.pending[own]? with
    | none => rw [ownPins, remaining, found, erase_of_getElem?_none found, Option.elim_none, Nat.add_zero]
    | some restore =>
      have erased := total_erase (fun _ restore => pinnedIn restore.pages key) found
      rw [ownPins, remaining, found, Option.elim_some]
      omega
  | registerPrefix | beginRestore | cancelRestore | release => rfl

theorem Unmoved.waits_iff (unmoved : Unmoved entry s s') (kept : Kept sha256 s) (kept' : Kept sha256 s') {rank : Fin 4}
    {key : Bytes32} {its its' : Lease} {identity : PendingRestoreIdentity}
    (leased : leasesOf s.coordinator rank key = some its) (leased' : leasesOf s'.coordinator rank key = some its')
    (foreign : ¬Owns entry identity.requestId) : its'.restore = some identity ↔ its.restore = some identity := by
  constructor
  · intro waiting
    obtain ⟨restore, page, found, member, isWaiting, rfl, rfl, ordinal_eq⟩ :=
      kept'.coherent.restoring rank key its' identity leased' waiting
    rw [unmoved.pending_eq] at found
    obtain ⟨same, isSame, waits⟩ := (kept.coherent.restores _ restore (get_remaining.mp found).2).waiting page member isWaiting
    rw [leased] at isSame
    cases isSame
    rw [waits, ordinal_eq]
  · intro waiting
    obtain ⟨restore, page, found, member, isWaiting, rfl, rfl, ordinal_eq⟩ :=
      kept.coherent.restoring rank key its identity leased waiting
    have found' : s'.coordinator.pending[identity.requestId]? = some restore := by
      rw [unmoved.pending_eq]
      exact get_remaining.mpr ⟨foreign, found⟩
    obtain ⟨same, isSame, waits⟩ := (kept'.coherent.restores _ restore found').waiting page member isWaiting
    rw [leased'] at isSame
    cases isSame
    rw [waits, ordinal_eq]

theorem Unmoved.othersKept (unmoved : Unmoved entry s s') (kept : Kept sha256 s) (kept' : Kept sha256 s') :
    OthersKept entry s s' := by
  refine ⟨unmoved.index_eq, unmoved.ready_eq, fun id foreign => ?_, fun rank key page found => ?_⟩
  · rw [unmoved.pending_eq]
    ext restore
    rw [get_remaining]
    simp [foreign]
  · have leased := lease_eq found
    have recorded : (leasesOf s'.coordinator rank key).map (·.record) = some page.record := by
      rw [kept'.coherent.agrees, unmoved.index_eq, ← kept.coherent.agrees]
      exact congrArg (Option.map _) leased
    obtain ⟨its', leased', record_eq⟩ := Option.map_eq_some_iff.mp recorded
    obtain ⟨page', found', rfl⟩ := entry_of_lease leased'
    refine ⟨page', found', record_eq, ?_, fun identity foreign =>
      unmoved.waits_iff kept kept' leased leased' foreign⟩
    have pins := kept.coherent.pins rank key _ leased
    have pins' := kept'.coherent.pins rank key _ leased'
    rw [total_remaining entry] at pins
    rw [unmoved.ready_eq, unmoved.pending_eq] at pins'
    show (leaseOf page').pins + _ = (leaseOf page).pins
    omega

end Meaning

section Runs
variable {index : PrefixIndex} {capacity : ResidencyConfig} {start : PrefixRestoreCoordinator}

theorem new_kept (sha256 : List UInt8 → Bytes32) (created : PrefixRestoreCoordinator.new index capacity = .ok start)
    (asked : Nat → List UInt32) : Kept sha256 ⟨start, asked, []⟩ := by
  unfold PrefixRestoreCoordinator.new at created
  split at created
  · cases created
  next empty =>
  split at created
  · cases created
  next manager isManager =>
  cases created
  have managerSound := Residency.new_sound isManager
  have noEntries (key : Bytes32) : manager.entries[key]? = none := by
    unfold ResidencyManager.new at isManager
    split at isManager
    · cases isManager
    · cases isManager
      simp
  have isEmpty : index.pages.isEmpty = true := by simpa using empty
  have noLease (rank : Fin 4) (key : Bytes32) : leasesOf ⟨index, fun _ => manager, ∅⟩ rank key = none := by
    show Option.map leaseOf manager.entries[key]? = none
    rw [noEntries]
    rfl
  refine ⟨⟨indexSound_empty isEmpty, fun rank key record => ?_, by simp, fun rank key its leased => ?_,
    fun rank key its identity leased => ?_, by simp⟩, fun _ => managerSound, by simp⟩
  · show Option.map _ (leasesOf ⟨index, fun _ => manager, ∅⟩ rank key) = _ ↔ _
    rw [noLease]
    simp only [Option.map_none, reduceCtorEq, false_iff]
    rintro ⟨n, indexed, _⟩
    obtain ⟨page, found⟩ := indexed.found
    rw [ExtTreeMap.isEmpty_iff.mp isEmpty] at found
    simp at found
  · exact absurd (leased.symm.trans (noLease rank key)) (by simp)
  · exact absurd (leased.symm.trans (noLease rank key)) (by simp)

theorem run_kept (kept : Kept sha256 s) (calls : List Serving.RestoreCall)
    (roomy : ∀ k entry, calls[k]? = some entry → Roomy (Restoration.run sha256 .u64 s (calls.take k)) entry) (k : Nat) :
    Kept sha256 (Restoration.run sha256 .u64 s (calls.take k)) := by
  induction k with
  | zero => exact kept
  | succ k ih =>
    unfold Restoration.run at ih ⊢
    cases get : calls[k]? with
    | none => rwa [foldl_take_of_none _ get]
    | some entry =>
      rw [foldl_take_succ _ get]
      have ends := call_ends ih entry (roomy k entry get)
      unfold CallEnds Action.Ends at ends
      split at ends
      next a s' outcome =>
        rw [outcome]
        exact ends
      next e s' outcome =>
        rw [outcome]
        exact ends.2.1

/-- As long as no rank's generation runs out, the coordinator's books agree after every call, and a call that fails
is undone for everybody else. -/
theorem run_keeps_prefixes (sha256 : List UInt8 → Bytes32)
    (created : PrefixRestoreCoordinator.new index capacity = .ok start) (calls : List Serving.RestoreCall)
    (roomy : ∀ k entry, calls[k]? = some entry →
      Roomy (Restoration.run sha256 .u64 ⟨start, fun _ => [], []⟩ (calls.take k)) entry) (k : Nat) :
    let s := Restoration.run sha256 .u64 ⟨start, fun _ => [], []⟩ (calls.take k)
    Faithful sha256 s ∧ ∀ entry failure, calls[k]? = some entry →
      (Restoration.call sha256 .u64 entry s).1 = .error failure →
        failure ≠ .panicked ∧ OthersKept entry s (Restoration.call sha256 .u64 entry s).2 := by
  intro s
  have kept : Kept sha256 s := run_kept (new_kept sha256 created _) calls roomy k
  refine ⟨kept.faithful, fun entry failure get failed => ?_⟩
  have ends := call_ends kept entry (roomy k entry get)
  unfold CallEnds Action.Ends at ends
  split at ends
  next a s' outcome =>
    rw [outcome] at failed
    cases failed
  next e s' outcome =>
    rw [outcome] at failed ⊢
    cases failed
    obtain ⟨calm, kept', unmoved⟩ := ends
    exact ⟨calm, unmoved.othersKept kept kept'⟩

end Runs

section Sample
open Proof.Residency (sampleRecord)

def lastByte (bytes : List UInt8) : Bytes32 := List.Vector.replicate 32 (bytes.reverse.getD 3 0)

def samplePrompt (pages : List UInt32) : List UInt32 := pages.flatMap (List.replicate 64)

def sampleCapacity : ResidencyConfig := ⟨6000000, 6000000⟩

def willing : RestoreAnswers := ⟨fun _ => none, fun _ => none⟩

def sampleStart : PrefixRestoreCoordinator :=
  ⟨PrefixIndex.new (List.Vector.replicate 32 1), fun _ => ⟨sampleCapacity, ∅, 0, 0, 0, 0⟩, ∅⟩

def firstPages : Serving.RestoreCall := .registerPrefix (samplePrompt [1, 2]) [sampleRecord 1, sampleRecord 2]

def sampleCycle : List Serving.RestoreCall := [.beginRestore 7 (samplePrompt [1, 2]) false willing, .cancelRestore 7]

theorem sampleCycle_faithful :
    Faithful lastByte (Restoration.run lastByte .u64 ⟨sampleStart, fun _ => [], []⟩ (firstPages :: sampleCycle)) := by
  refine (run_keeps_prefixes lastByte (rfl : PrefixRestoreCoordinator.new (PrefixIndex.new _) sampleCapacity = _)
    (firstPages :: sampleCycle) (fun k entry get => ?_) 3).1
  rcases k with _ | _ | _ | k
  · cases get
    unfold Roomy
    decide
  · cases get
    unfold Roomy
    decide +kernel
  · cases get
    unfold Roomy
    decide +kernel
  · cases get

end Sample

section Torn
open Serving.PrefixRestoreCoordinator
open Proof.Residency (sampleRecord)
open ResidencyManager (registered)

/-!
A restore that is begun and cancelled leaves everything as it was but for the generations of its ranks. After enough
of them rank 1 has used up its generations while rank 0 has one left: a registration that upgrades a page on each is
taken over by rank 0, refused by rank 1, and leaves the index as it was.
-/

variable {entry : ResidentEntry} {t : PrefixRestoreCoordinator} {counter : Counter} {requestId : Nat}
  {tokens : List UInt32}

def upgradedRecord (byte : UInt8) : TierRecord :=
  { sampleRecord byte with
    generation := 2
    mtp := true
    pieces := (sampleRecord byte).pieces ++ [⟨.draftSidecar, 32000, 2019328, List.Vector.replicate 32 3⟩] }

def tearing : List Serving.RestoreCall :=
  [.registerPrefix (samplePrompt [1, 3]) [sampleRecord 1, sampleRecord 3],
    .registerPrefix (samplePrompt [1, 4]) [sampleRecord 1, sampleRecord 4],
    .registerPrefix (samplePrompt [1, 2]) [upgradedRecord 1, upgradedRecord 2]]

def holding (entry : ResidentEntry) (generation : Nat) : ResidencyManager :=
  ⟨sampleCapacity, (∅ : ExtTreeMap Bytes32 ResidentEntry).insert entry.record.pageKey entry, 0, 0, 0, generation⟩

def asked (byte : UInt8) (ordinal : Nat) : ResidentEntry :=
  { registered (sampleRecord byte) with residency := .restoring, pendingRestore := some ⟨7, ordinal⟩ }

def sampleRequest (byte : UInt8) (ordinal : Nat) : RestoreRequest :=
  ⟨7, (sampleRecord byte).pageKey, (sampleRecord byte).nameSpace, 1, ordinal, ownerRank ordinal⟩

variable {byte : UInt8} {ordinal generation : Nat}

theorem holding_insert {entry : ResidentEntry} {key : Bytes32} (later : ResidentEntry)
    (atKey : entry.record.pageKey = key) (same : later.record.pageKey = key) :
    holding later (generation + 1) =
      ⟨sampleCapacity, (holding entry generation).entries.insert key later, 0, 0, 0, generation + 1⟩ := by
  unfold holding
  congr 1
  apply ExtTreeMap.ext_getElem?
  intro other
  rw [atKey, same]
  simp only [ExtTreeMap.getElem?_insert]
  split <;> rfl

theorem holding_next (room : generation + 1 < 2 ^ 64) :
    (holding entry generation).nextStateGeneration .u64 = .ok (generation + 1) := by
  show okOr (checkedAdd 64 generation 1) _ = _
  rw [checkedAdd, if_pos room]
  rfl

theorem holding_found :
    (holding entry generation).entries[entry.record.pageKey]? = some entry := ExtTreeMap.getElem?_insert_self

theorem beginRestore_holding (room : generation + 1 < 2 ^ 64) :
    ResidencyManager.beginRestore .u64 7 (sampleRecord byte).pageKey ordinal (ownerRank ordinal)
      (holding (registered (sampleRecord byte)) generation) =
        (.ok (sampleRequest byte ordinal), holding (asked byte ordinal) (generation + 1)) := by
  refine Action.updates_ok ?_
  have moved := @holding_insert generation (registered (sampleRecord byte)) _ (asked byte ordinal) rfl rfl
  rw [moved, if_neg (by simp), holding_next room,
    show (holding (registered (sampleRecord byte)) generation).entries[(sampleRecord byte).pageKey]? = _
      from holding_found]
  rfl

theorem validateAbort_holding :
    (holding (asked byte ordinal) generation).validateAbortRestoreIdentity (sampleRecord byte).pageKey 7 ordinal
      = .ok () := by
  unfold ResidencyManager.validateAbortRestoreIdentity
  rw [show (holding (asked byte ordinal) generation).entries[(sampleRecord byte).pageKey]? = _ from holding_found]
  exact if_neg (by simp [asked])

theorem abortRestore_holding (room : generation + 1 < 2 ^ 64) :
    ResidencyManager.abortRestoreIdentity .u64 (sampleRecord byte).pageKey 7 ordinal
      (holding (asked byte ordinal) generation) =
        (.ok (), holding (registered (sampleRecord byte)) (generation + 1)) := by
  refine Action.updates_ok ?_
  have moved := @holding_insert generation (asked byte ordinal) _ (registered (sampleRecord byte)) rfl rfl
  rw [moved, validateAbort_holding, holding_next room,
    show (holding (asked byte ordinal) generation).entries[(sampleRecord byte).pageKey]? = _ from holding_found]
  rfl

@[irreducible]
def twoPages : PrefixRestoreCoordinator :=
  (registerPrefix lastByte .u64 (samplePrompt [1, 2]) [sampleRecord 1, sampleRecord 2] sampleStart).2

def untouched : ResidencyManager := ⟨sampleCapacity, ∅, 0, 0, 0, 0⟩

def twoRanks (first second : ResidencyManager) (pending : ExtTreeMap Nat PendingRestore) : PrefixRestoreCoordinator :=
  ⟨twoPages.index, ![first, second, untouched, untouched], pending⟩

variable {first second later : ResidencyManager} {pending : ExtTreeMap Nat PendingRestore}

theorem setRank_first : setRank 0 later (twoRanks first second pending) = twoRanks later second pending := by
  unfold setRank twoRanks
  congr 1
  funext rank
  fin_cases rank <;> rfl

theorem setRank_second : setRank 1 later (twoRanks first second pending) = twoRanks first later pending := by
  unfold setRank twoRanks
  congr 1
  funext rank
  fin_cases rank <;> rfl

variable {α : Type} {action : Reside α} {value : α}

theorem onRank_first (ran : action first = (.ok value, later)) :
    onRank 0 action (twoRanks first second pending) = (.ok value, twoRanks later second pending) := by
  have moved : onRank 0 action (twoRanks first second pending) =
      (.ok value, setRank 0 later (twoRanks first second pending)) := Action.within_ok ran
  rw [moved, setRank_first]

theorem onRank_second (ran : action second = (.ok value, later)) :
    onRank 1 action (twoRanks first second pending) = (.ok value, twoRanks first later pending) := by
  have moved : onRank 1 action (twoRanks first second pending) =
      (.ok value, setRank 1 later (twoRanks first second pending)) := Action.within_ok ran
  rw [moved, setRank_second]

theorem expectRank_first (ran : action first = (.ok value, later)) :
    expectRank 0 action (twoRanks first second pending) = (.ok value, twoRanks later second pending) := by
  have moved : expectRank 0 action (twoRanks first second pending) =
      (.ok value, setRank 0 later (twoRanks first second pending)) := Action.within_ok ran
  rw [moved, setRank_first]

theorem expectRank_second (ran : action second = (.ok value, later)) :
    expectRank 1 action (twoRanks first second pending) = (.ok value, twoRanks first later pending) := by
  have moved : expectRank 1 action (twoRanks first second pending) =
      (.ok value, setRank 1 later (twoRanks first second pending)) := Action.within_ok ran
  rw [moved, setRank_second]

def idle (generation : Nat) : PrefixRestoreCoordinator :=
  twoRanks (holding (registered (sampleRecord 1)) generation) (holding (registered (sampleRecord 2)) generation) ∅

theorem twoPages_idle : twoPages = idle 1 := by
  have ranks : ∀ rank, twoPages.ranks rank = (idle 1).ranks rank := by decide +kernel
  have pending : twoPages.pending = (idle 1).pending := by decide +kernel
  show PrefixRestoreCoordinator.mk _ _ _ = PrefixRestoreCoordinator.mk twoPages.index _ _
  rw [funext ranks, pending]
  rfl

def keyOf (byte : UInt8) : PrefixPageKey := (sampleRecord byte).pageKey

theorem matchedPages_idle : (idle generation).matchedPages lastByte 7 (samplePrompt [1, 2]) false =
    .ok (some ⟨[keyOf 1, keyOf 2], 128⟩) := by
  have found : twoPages.index.longestMatchWithCapability lastByte (samplePrompt [1, 2]) false =
      some ⟨[keyOf 1, keyOf 2], 128⟩ := by decide +kernel
  unfold matchedPages
  rw [if_neg (by simp [idle, twoRanks])]
  rw [show (idle generation).index = twoPages.index from rfl, found]
  rfl

def attachmentOf (byte : UInt8) : PrefixPageAttachment :=
  ⟨List.Vector.replicate 32 1, keyOf byte, 1, List.Vector.replicate 32 1, List.Vector.replicate 32 2, none⟩

def pageOf (byte : UInt8) (ordinal : Nat) (state : PendingPageState) : PendingPage :=
  ⟨keyOf byte, ordinal, ownerRank ordinal, attachmentOf byte, state⟩

def awaited : PendingRestore :=
  ⟨7, 128, [pageOf 1 0 (.restoring ⟨sampleRequest 1 0⟩), pageOf 2 1 (.restoring ⟨sampleRequest 2 1⟩)]⟩

def asking (generation : Nat) : PrefixRestoreCoordinator :=
  twoRanks (holding (asked 1 0) generation) (holding (asked 2 1) generation)
    ((∅ : ExtTreeMap Nat PendingRestore).insert 7 awaited)

theorem trySubmit_sample :
    trySubmit (willing.submission ordinal) (sampleRequest byte ordinal) = .ok ⟨sampleRequest byte ordinal⟩ := by
  have nonzero : (List.Vector.replicate 32 1 : Bytes32) ≠ Bytes32.zero := by decide
  refine (if_neg ?_).trans rfl
  rintro (none | zero | none | beyond | other)
  · exact absurd none (by decide : 7 ≠ 0)
  · exact nonzero zero
  · exact absurd none (by decide : (1 : UInt64) ≠ 0)
  · exact absurd (ownerRank ordinal).isLt (Nat.not_lt.mpr beyond)
  · exact other rfl

theorem submitPage_sample {pending : PendingRestore} {s : PrefixRestoreCoordinator} (own : pending.requestId = 7)
    (begun : onRank (ownerRank ordinal)
      (ResidencyManager.beginRestore .u64 7 (keyOf byte) ordinal (ownerRank ordinal)) s =
        (.ok (sampleRequest byte ordinal), t)) :
    submitPage .u64 willing pending (pageOf byte ordinal .restoreReserved) s =
      (.ok (.restoring ⟨sampleRequest byte ordinal⟩), t) := by
  have started : orRollback .u64 pending (onRank (ownerRank ordinal)
      (ResidencyManager.beginRestore .u64 pending.requestId (keyOf byte) ordinal (ownerRank ordinal))) s =
        (.ok (sampleRequest byte ordinal), t) := by
    rw [own]
    exact (Action.bind_ok (Action.attempt_ok begun)).trans rfl
  refine (Action.bind_ok started).trans ?_
  have submits : trySubmit (willing.submission (pageOf byte ordinal .restoreReserved).ordinal)
      (sampleRequest byte ordinal) = _ := trySubmit_sample
  rw [submits]
  rfl

theorem beginPages_sample {keys : List PrefixPageKey} {s : PrefixRestoreCoordinator} (pending : PendingRestore)
    (own : pending.requestId = 7) (atOrdinal : pending.pages.length = ordinal)
    (recorded : s.index.record (keyOf byte) = some (sampleRecord byte))
    (attached : PrefixPageAttachment.fromTierRecord (sampleRecord byte) = .ok (attachmentOf byte))
    (located : (s.ranks (ownerRank ordinal)).location (keyOf byte) = some .nvme)
    (begun : onRank (ownerRank ordinal)
      (ResidencyManager.beginRestore .u64 7 (keyOf byte) ordinal (ownerRank ordinal)) s =
        (.ok (sampleRequest byte ordinal), t)) :
    beginPages .u64 willing (keyOf byte :: keys) pending s =
      beginPages .u64 willing keys
        { pending with pages := pending.pages ++ [pageOf byte ordinal (.restoring ⟨sampleRequest byte ordinal⟩)] } t := by
  subst atOrdinal
  have record : (.reads fun s : PrefixRestoreCoordinator => okOr (s.index.record (keyOf byte)) .record :
      Restores TierRecord) s = (.ok (sampleRecord byte), s) := by
    refine Action.reads_ok ?_
    rw [recorded]
    rfl
  have attachment : (.reads fun _ => (PrefixPageAttachment.fromTierRecord (sampleRecord byte)).mapError fun _ => .record :
      Restores PrefixPageAttachment) s = (.ok (attachmentOf byte), s) := by
    refine Action.reads_ok ?_
    rw [attached]
    rfl
  have location : (.reads fun s : PrefixRestoreCoordinator =>
      .ok ((s.ranks (ownerRank pending.pages.length)).location (keyOf byte)) : Restores (Option Residency)) s =
        (.ok (some .nvme), s) := by
    refine Action.reads_ok ?_
    rw [located]
  refine (Action.bind_ok record).trans ((Action.bind_ok attachment).trans ((Action.bind_ok location).trans ?_))
  exact Action.bind_ok (submitPage_sample own begun)

theorem sample_attached : PrefixPageAttachment.fromTierRecord (sampleRecord 1) = .ok (attachmentOf 1) ∧
    PrefixPageAttachment.fromTierRecord (sampleRecord 2) = .ok (attachmentOf 2) := by decide

theorem sample_recorded : twoPages.index.record (keyOf 1) = some (sampleRecord 1) ∧
    twoPages.index.record (keyOf 2) = some (sampleRecord 2) := by decide +kernel

theorem holding_location (entry : ResidentEntry) :
    (holding entry generation).location entry.record.pageKey = some entry.residency := by
  unfold ResidencyManager.location
  rw [holding_found]
  rfl

theorem beginPages_idle (room : generation + 1 < 2 ^ 64) :
    beginPages .u64 willing [keyOf 1, keyOf 2] ⟨7, 128, []⟩ (idle generation) =
      (.ok awaited, twoRanks (holding (asked 1 0) (generation + 1)) (holding (asked 2 1) (generation + 1)) ∅) := by
  have first : beginPages .u64 willing [keyOf 1, keyOf 2] ⟨7, 128, []⟩ (idle generation) =
      beginPages .u64 willing [keyOf 2] ⟨7, 128, [pageOf 1 0 (.restoring ⟨sampleRequest 1 0⟩)]⟩
        (twoRanks (holding (asked 1 0) (generation + 1)) (holding (registered (sampleRecord 2)) generation) ∅) :=
    beginPages_sample (s := idle generation) ⟨7, 128, []⟩ rfl rfl sample_recorded.1 sample_attached.1
      (holding_location (registered (sampleRecord 1))) (onRank_first (beginRestore_holding room))
  have second : beginPages .u64 willing [keyOf 2] ⟨7, 128, [pageOf 1 0 (.restoring ⟨sampleRequest 1 0⟩)]⟩
        (twoRanks (holding (asked 1 0) (generation + 1)) (holding (registered (sampleRecord 2)) generation) ∅) =
      beginPages .u64 willing [] awaited
        (twoRanks (holding (asked 1 0) (generation + 1)) (holding (asked 2 1) (generation + 1)) ∅) :=
    beginPages_sample
      (s := twoRanks (holding (asked 1 0) (generation + 1)) (holding (registered (sampleRecord 2)) generation) ∅)
      ⟨7, 128, [pageOf 1 0 (.restoring ⟨sampleRequest 1 0⟩)]⟩ rfl rfl sample_recorded.2 sample_attached.2
      (holding_location (registered (sampleRecord 2))) (onRank_second (beginRestore_holding room))
  rw [first, second]
  rfl

theorem beginRestore_idle (room : generation + 1 < 2 ^ 64) :
    beginRestoreLongestWithCapability lastByte .u64 willing 7 (samplePrompt [1, 2]) false (idle generation) =
      (.ok .pending, asking (generation + 1)) := by
  have matched : (.reads fun s : PrefixRestoreCoordinator => s.matchedPages lastByte 7 (samplePrompt [1, 2]) false :
      Restores (Option PrefixMatch)) (idle generation) = (.ok (some ⟨[keyOf 1, keyOf 2], 128⟩), idle generation) :=
    Action.reads_ok matchedPages_idle
  unfold beginRestoreLongestWithCapability
  rw [Action.bind_ok matched]
  exact (Action.bind_ok (beginPages_idle room)).trans rfl

def rolledBack : PendingRollbackPlan :=
  ⟨∅, ((∅ : ExtTreeMap RankPage (Nat × Nat)).insert ⟨ownerRank 0, keyOf 1⟩ (7, 0)).insert ⟨ownerRank 1, keyOf 2⟩ (7, 1)⟩

theorem rolledBack_restores : rolledBack.restores.toList = [(⟨0, keyOf 1⟩, 7, 0), (⟨1, keyOf 2⟩, 7, 1)] := by
  rfl

theorem planPendingRollback_asking : (asking generation).planPendingRollback awaited = .ok rolledBack := by
  have planned : awaited.pages.foldlM (planPage awaited.requestId) ⟨∅, ∅⟩ = .ok rolledBack := by rfl
  have aborts : rolledBack.restores.toList.forM (asking generation).validateAbort = .ok ⟨⟩ := by
    refine forM_ok_of_forall _ fun restore mem => ?_
    rw [rolledBack_restores, List.mem_cons, List.mem_singleton] at mem
    rcases mem with rfl | rfl
    · show ((holding (asked 1 0) generation).validateAbortRestoreIdentity _ 7 0).mapError _ = _
      rw [keyOf, validateAbort_holding]
      rfl
    · show ((holding (asked 2 1) generation).validateAbortRestoreIdentity _ 7 1).mapError _ = _
      rw [keyOf, validateAbort_holding]
      rfl
  exact bind_eq_ok.mpr ⟨_, planned, bind_eq_ok.mpr ⟨(), rfl, bind_eq_ok.mpr ⟨(), aborts, rfl⟩⟩⟩

theorem cancelRestore_asking (room : generation + 1 < 2 ^ 64) :
    PrefixRestoreCoordinator.cancelRestore .u64 7 (asking generation) = (.ok (), idle (generation + 1)) := by
  have found : (.reads fun s : PrefixRestoreCoordinator => okOr s.pending[7]? .unknownRequest : Restores PendingRestore)
      (asking generation) = (.ok awaited, asking generation) := by
    refine Action.reads_ok ?_
    show okOr ((∅ : ExtTreeMap Nat PendingRestore).insert 7 awaited)[7]? _ = _
    rw [ExtTreeMap.getElem?_insert_self]
    rfl
  have planned : (.reads fun s => s.planPendingRollback awaited : Restores PendingRollbackPlan)
      (asking generation) = (.ok rolledBack, asking generation) := Action.reads_ok planPendingRollback_asking
  have emptied : ((∅ : ExtTreeMap Nat PendingRestore).insert 7 awaited).erase 7 = ∅ := by rfl
  unfold PrefixRestoreCoordinator.cancelRestore
  rw [Action.bind_ok found, Action.bind_ok planned]
  show commitPendingRollback .u64 rolledBack (twoRanks _ _ (((∅ : ExtTreeMap Nat PendingRestore).insert 7 awaited).erase 7)) = _
  rw [emptied]
  refine (Action.bind_ok (a := ()) rfl).trans ?_
  rw [rolledBack_restores]
  refine (Action.bind_ok (expectRank_first (abortRestore_holding room))).trans ?_
  exact (Action.bind_ok (expectRank_second (abortRestore_holding room))).trans rfl

theorem call_pending {answers : RestoreAnswers} {requireDraft : Bool}
    (begun : beginRestoreLongestWithCapability sha256 counter answers requestId tokens requireDraft s.coordinator =
      (.ok .pending, t)) :
    (Restoration.call sha256 counter (.beginRestore requestId tokens requireDraft answers) s).2 =
      ⟨t, Function.update s.asked requestId tokens, s.ready⟩ := by
  have moved : Restoration.onCoordinator
      (beginRestoreLongestWithCapability sha256 counter answers requestId tokens requireDraft) s =
        (.ok .pending, { s with coordinator := t }) := Action.within_ok begun
  exact congrArg Prod.snd ((Action.bind_ok moved).trans rfl)

theorem call_cancelled
    (cancelled : PrefixRestoreCoordinator.cancelRestore counter requestId s.coordinator = (.ok (), t)) :
    (Restoration.call sha256 counter (.cancelRestore requestId) s).2 = { s with coordinator := t } := by
  have moved : Restoration.onCoordinator (PrefixRestoreCoordinator.cancelRestore counter requestId) s =
      (.ok (), { s with coordinator := t }) := Action.within_ok cancelled
  exact congrArg Prod.snd moved

theorem call_registered {records : List TierRecord} :
    (Restoration.call sha256 counter (.registerPrefix tokens records) s).2 =
      { s with coordinator := (registerPrefix sha256 counter tokens records s.coordinator).2 } := by
  cases outcome : registerPrefix sha256 counter tokens records s.coordinator with
  | mk result t =>
    cases result with
    | ok keys =>
      have moved : Restoration.onCoordinator (registerPrefix sha256 counter tokens records) s =
          (.ok keys, { s with coordinator := t }) := Action.within_ok outcome
      exact congrArg Prod.snd ((Action.bind_ok moved).trans rfl)
    | error failure =>
      have moved : Restoration.onCoordinator (registerPrefix sha256 counter tokens records) s =
          (.error failure, { s with coordinator := t }) := by
        unfold Restoration.onCoordinator Action.within
        rw [outcome]
        rfl
      exact congrArg Prod.snd (Action.bind_error moved)

abbrev sampleAsked (before : Nat → List UInt32) : Nat → List UInt32 := Function.update before 7 (samplePrompt [1, 2])

theorem run_sampleCycle {before : Nat → List UInt32} (room : generation + 2 < 2 ^ 64) :
    Restoration.run lastByte .u64 ⟨idle generation, before, []⟩ sampleCycle =
      ⟨idle (generation + 2), sampleAsked before, []⟩ := by
  unfold Restoration.run sampleCycle
  rw [List.foldl_cons, List.foldl_cons, List.foldl_nil,
    call_pending (s := ⟨idle generation, before, []⟩) (beginRestore_idle (by omega)),
    call_cancelled (s := ⟨asking (generation + 1), sampleAsked before, []⟩) (cancelRestore_asking (by omega))]

theorem run_cycles (before : Nat → List UInt32) (generation n : Nat) (room : generation + 2 * (n + 1) < 2 ^ 64) :
    Restoration.run lastByte .u64 ⟨idle generation, before, []⟩ (List.replicate (n + 1) sampleCycle).flatten =
      ⟨idle (generation + 2 * (n + 1)), sampleAsked before, []⟩ := by
  induction n generalizing generation before with
  | zero =>
    rw [List.replicate_succ, List.flatten_cons]
    exact run_sampleCycle room
  | succ n ih =>
    rw [List.replicate_succ, List.flatten_cons, Restoration.run, List.foldl_append]
    show Restoration.run _ _ (Restoration.run _ _ _ sampleCycle) _ = _
    rw [run_sampleCycle (by omega), ih _ _ (by omega), sampleAsked, Function.update_idem]
    congr 2
    omega

@[irreducible]
def exhausting : Nat := 2 ^ 63 - 3

def tornRun : List Serving.RestoreCall := firstPages :: ((List.replicate (exhausting + 1) sampleCycle).flatten ++ tearing)

def tornState : Restoration :=
  Restoration.run lastByte .u64 ⟨idle (1 + 2 * (exhausting + 1)), sampleAsked fun _ => [], []⟩ tearing

theorem run_tornRun : Restoration.run lastByte .u64 ⟨sampleStart, fun _ => [], []⟩ tornRun = tornState := by
  have registered : (Restoration.call lastByte .u64 firstPages ⟨sampleStart, fun _ => [], []⟩).2 =
      ⟨idle 1, fun _ => [], []⟩ := by
    have same : (registerPrefix lastByte .u64 (samplePrompt [1, 2]) [sampleRecord 1, sampleRecord 2] sampleStart).2 =
        idle 1 := by
      refine Eq.trans ?_ twoPages_idle
      delta twoPages
      exact rfl
    exact (call_registered (s := ⟨sampleStart, fun _ => [], []⟩)).trans (congrArg (fun t => (⟨t, fun _ => [], []⟩ : Restoration)) same)
  have room : 1 + 2 * (exhausting + 1) < 2 ^ 64 := by norm_num [exhausting]
  have cycles := run_cycles (fun _ => []) 1 exhausting room
  unfold Restoration.run at cycles
  unfold tornRun tornState Restoration.run
  rw [List.foldl_cons, registered, List.foldl_append, cycles]

theorem tornRun_unfaithful :
    PrefixRestoreCoordinator.new (PrefixIndex.new (List.Vector.replicate 32 1)) sampleCapacity = .ok sampleStart ∧
    ([1, 2, 3, 4].map fun page => PrefixPageKey.derive lastByte (List.Vector.replicate 32 1)
      (if page = 1 then none else some (keyOf 1)) (List.replicate 64 page)).Nodup ∧
    ¬Faithful lastByte (Restoration.run lastByte .u64 ⟨sampleStart, fun _ => [], []⟩ tornRun) := by
  refine ⟨rfl, by decide +kernel, ?_⟩
  rw [run_tornRun]
  intro faithful
  have found : tornState.coordinator.index.pages[keyOf 1]?.map (·.parent) = some none := by decide +kernel
  obtain ⟨page, found, isRoot⟩ := Option.map_eq_some_iff.mp found
  have indexed : IndexedAt tornState.coordinator.index (keyOf 1) 0 := .root found isRoot
  have recorded : tornState.coordinator.index.record (keyOf 1) = some (sampleRecord 1) := by decide +kernel
  have upgraded : (tornState.coordinator.ranks (ownerRank 0)).recordOf (keyOf 1) = some (upgradedRecord 1) := by
    decide +kernel
  have owned := (faithful.owned _ _ _ indexed recorded).1
  have clash : sampleRecord 1 = upgradedRecord 1 := Option.some.inj (owned.symm.trans upgraded)
  exact absurd clash (by decide)

end Torn

end Glmaxx.Proof.Prefix
