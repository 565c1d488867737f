import Glmaxx.Proof.Prefix.Restoring

namespace Glmaxx.Proof.Prefix
open Std Library Cache Serving Serving.PrefixRestoreCoordinator
open Cache.ResidencyManager (commitNvmeRegistrations insertRecords registered)
open Proof.Residency (Sound retained)

variable {leases : Bytes32 → Option Lease} {α β : Type}

variable {sha256 : List UInt8 → Bytes32} {s s' : PrefixRestoreCoordinator} {m m' : ResidencyManager} {counter : Counter}
  {bound : Nat} {record : TierRecord} {records : List TierRecord} {key : Bytes32} {candidate : PrefixIndex}
  {keys : List PrefixPageKey} {updates : List (Fin 4 × TierRecord)} {plan : NvmeRegistrationPlan}
  {ready : List (List UInt32 × RestoredPrefix)} {asked : Nat → List UInt32}

section Commit

theorem nvmeRegistrationAction_retain (ok : m.nvmeRegistrationAction record = .ok .retain) :
    ∃ entry, m.entries[record.pageKey]? = some entry ∧ entry.record.relationTo record ≠ .ok .mtpUpgrade := by
  unfold ResidencyManager.nvmeRegistrationAction at ok
  split at ok
  · cases ok
  split at ok
  · cases ok
  split at ok
  · cases ok
  next entry found =>
    refine ⟨entry, found, fun upgrade => ?_⟩
    rw [upgrade] at ok
    dsimp only at ok
    split at ok
    · cases ok
    split at ok
    · cases ok
    split at ok
    · cases ok
    obtain ⟨_, _, ok⟩ := bind_eq_ok.mp ok
    cases ok

def Fresh (m : ResidencyManager) (record : TierRecord) : Prop :=
  ∀ prior, m.recordOf record.pageKey = some prior → prior.relationTo record = .ok .mtpUpgrade

theorem retained_of_fresh (fresh : Fresh m record) : retained m record = false := by
  unfold retained
  split
  next retain =>
    obtain ⟨entry, found, other⟩ := nvmeRegistrationAction_retain retain
    exact absurd (fresh entry.record (by rw [ResidencyManager.recordOf, found]; rfl)) other
  next => rfl

theorem getElem?_insertRecords_of_mem {entries : ExtTreeMap Bytes32 ResidentEntry}
    (distinct : (records.map (·.pageKey)).Nodup) (member : record ∈ records) :
    (insertRecords entries records)[record.pageKey]? = some (registered record) := by
  induction records using List.reverseRecOn with
  | nil => cases member
  | append_singleton records last ih =>
    rw [List.map_append, List.nodup_append] at distinct
    rw [Residency.insertRecords_snoc]
    rcases List.mem_append.mp member with early | isLast
    · have different : record.pageKey ≠ last.pageKey :=
        distinct.2.2 _ (List.mem_map_of_mem early) _ (by simp)
      rw [getElem?_insert_ne different, ih distinct.1 early]
    · rw [List.mem_singleton.mp isLast, ExtTreeMap.getElem?_insert_self]

def taken (records : List TierRecord) (leases : Bytes32 → Option Lease) (key : Bytes32) : Option Lease :=
  match records.find? (·.pageKey = key) with
  | some record => some ⟨record, 0, none⟩
  | none => leases key

theorem taken_of_mem (distinct : (records.map (·.pageKey)).Nodup)
    (member : record ∈ records) : taken records leases record.pageKey = some ⟨record, 0, none⟩ := by
  unfold taken
  cases found : records.find? (·.pageKey = record.pageKey) with
  | none =>
    have := List.find?_eq_none.mp found record member
    simp at this
  | some other =>
    have same : other.pageKey = record.pageKey := by simpa using List.find?_some found
    rw [List.inj_on_of_nodup_map distinct (List.mem_of_find?_eq_some found) member same]

theorem taken_of_not_mem (absent : key ∉ records.map (·.pageKey)) : taken records leases key = leases key := by
  unfold taken
  rw [List.find?_eq_none.mpr]
  intro record member same
  exact absent (List.mem_map.mpr ⟨record, member, by simpa using same⟩)

theorem commit_shifts (sound : Sound m) (planned : m.planNvmeRegistrations records = .ok plan)
    (fresh : ∀ record ∈ records, Fresh m record) (distinct : (records.map (·.pageKey)).Nodup)
    (room : Room counter bound) (below : m.stateGeneration < bound) :
    ∃ m', commitNvmeRegistrations counter plan m = (.ok (), m') ∧ Shifts 1 (taken records (lease m)) m m' ∧
      ∀ record ∈ records, ∀ its, lease m record.pageKey = some its → its.pins = 0 ∧ its.restore = none := by
  have plans := Residency.planNvmeRegistrations_plans planned
  have records_eq : plan.records = records := by
    rw [plans.records_eq, List.nil_append, List.filter_eq_self]
    intro record member
    rw [retained_of_fresh (fresh record member)]
    rfl
  have current : plan.expectedStateGeneration = m.stateGeneration := plans.generation_eq
  obtain ⟨next, isNext⟩ : ∃ next, m.generationAfter counter plan = .ok next := by
    unfold ResidencyManager.generationAfter
    split
    · exact ⟨_, rfl⟩
    · exact ⟨_, nextStateGeneration_of_room room below⟩
  obtain ⟨m', ran⟩ : ∃ m', commitNvmeRegistrations counter plan m = (.ok (), m') := by
    refine ⟨{ m with
        entries := insertRecords m.entries plan.records
        hbmBytes := plan.hbmBytes
        dramBytes := plan.dramBytes
        stateGeneration := next }, Action.updates_ok ?_⟩
    rw [ResidencyManager.validateNvmeRegistrationPlan, if_neg (not_not.mpr current), isNext]
    rfl
  have commits := (Residency.commitNvmeRegistrations_ends counter plan m).value ran
  refine ⟨m', ran, ⟨commits.sound sound (plans.fits (Residency.Fits.nil sound _)), ?_, ?_⟩, ?_⟩
  · funext key
    rw [lease, commits.entries_eq, records_eq]
    by_cases member : key ∈ records.map (·.pageKey)
    · obtain ⟨record, isRecord, rfl⟩ := List.mem_map.mp member
      rw [getElem?_insertRecords_of_mem distinct isRecord, taken_of_mem distinct isRecord]
      rfl
    · rw [Residency.getElem?_insertRecords_of_not_mem member, taken_of_not_mem member]
      rfl
  · rcases commits.generation with ⟨_, same⟩ | ⟨_, next⟩ <;> omega
  · intro record member its leased
    obtain ⟨entry, found, rfl⟩ := entry_of_lease leased
    obtain ⟨action, isAction⟩ := plans.accepted record member
    have replaced : action = .replace := by
      cases action with
      | replace => rfl
      | insert =>
        rw [Residency.nvmeRegistrationAction_insert isAction] at found
        cases found
      | retain =>
        have kept : retained m record = true := by rw [retained, isAction]
        rw [retained_of_fresh (fresh record member)] at kept
        cases kept
    obtain ⟨same, isSame, replaceable, _⟩ := Residency.nvmeRegistrationAction_replace (replaced ▸ isAction)
    rw [found] at isSame
    cases isSame
    exact ⟨replaceable.unpinned, restore_eq_none sound found replaceable.settled⟩

theorem commitPlans_acts (ledger : Leases) (plans : List (Fin 4 × NvmeRegistrationPlan))
    (distinct : (plans.map (·.1)).Nodup) (sound : RanksSound s)
    (each : ∀ plan ∈ plans, ∃ m', commitNvmeRegistrations counter plan.2 (s.ranks plan.1) = (.ok (), m') ∧
      Shifts 1 (ledger plan.1) (s.ranks plan.1) m') :
    ∃ s', (plans.forM fun plan => onRank plan.1 (commitNvmeRegistrations counter plan.2)) s = (.ok (), s') ∧
      Acts plans.length (fun rank => if rank ∈ plans.map (·.1) then ledger rank else leasesOf s rank) s s' := by
  induction plans generalizing s with
  | nil => exact ⟨s, rfl, Acts.refl sound⟩
  | cons plan rest ih =>
    rw [List.map_cons, List.nodup_cons] at distinct
    obtain ⟨m', ran, shifts⟩ := each plan (List.mem_cons_self ..)
    have acts := acts_of_shifts sound shifts
    have elsewhere (rank : Fin 4) (different : rank ≠ plan.1) : (setRank plan.1 m' s).ranks rank = s.ranks rank :=
      Function.update_of_ne different _ _
    obtain ⟨s', ranRest, actsRest⟩ := ih distinct.2 acts.sound fun other member => by
      have different : other.1 ≠ plan.1 := fun same => distinct.1 (same ▸ List.mem_map_of_mem member)
      rw [elsewhere other.1 different]
      exact each other (List.mem_cons_of_mem _ member)
    have first : onRank plan.1 (commitNvmeRegistrations counter plan.2) s = (.ok (), setRank plan.1 m' s) :=
      Action.within_ok ran
    refine ⟨s', ?_, ?_⟩
    · show (onRank plan.1 (commitNvmeRegistrations counter plan.2) >>= fun _ => rest.forM _) s = _
      rw [Action.bind_ok first]
      exact ranRest
    · have both := acts.trans actsRest
      rw [Nat.add_comm, acts.leases_eq] at both
      refine { both with leases_eq := both.leases_eq.trans ?_ }
      funext rank
      rw [List.map_cons]
      by_cases later : rank ∈ rest.map (·.1)
      · rw [if_pos later, if_pos (List.mem_cons_of_mem _ later)]
      · rw [if_neg later, Function.update_apply]
        by_cases here : rank = plan.1
        · rw [if_pos here, if_pos (by simp [here]), here]
        · rw [if_neg here, if_neg (by simp [here, later])]

end Commit

section Plan

/-- The updates are the records the candidate has and the index has not. -/
structure Updating (s : PrefixRestoreCoordinator) (candidate : PrefixIndex) (keys : List PrefixPageKey) (start : Nat)
    (updates : List (Fin 4 × TierRecord)) : Prop where
  agree : ∀ (i : Nat) (key : PrefixPageKey), keys[i]? = some key →
    (s.ranks (ownerRank (start + i))).recordOf key = s.index.record key
  mem_iff : ∀ rank next, (rank, next) ∈ updates ↔ ∃ (i : Nat) (key : PrefixPageKey), keys[i]? = some key ∧
    rank = ownerRank (start + i) ∧ candidate.record key = some next ∧ s.index.record key ≠ some next
  sublist : (updates.map (·.2)).Sublist (keys.filterMap candidate.record)

theorem planUpdates_updating {start : Nat} (ok : s.planUpdates candidate keys start = .ok updates) :
    Updating s candidate keys start updates := by
  induction keys generalizing start updates with
  | nil =>
    cases ok
    exact ⟨by simp, by simp, .slnil⟩
  | cons key rest ih =>
    unfold planUpdates at ok
    dsimp only at ok
    split at ok
    · cases ok
    next agrees =>
    obtain ⟨next, isNext, ok⟩ := bind_eq_ok.mp ok
    obtain ⟨later, isLater, ok⟩ := bind_eq_ok.mp ok
    have isNext := okOr_eq_ok.mp isNext
    cases ok
    obtain ⟨agree, mem_iff, sublist⟩ := ih isLater
    have shift (i : Nat) : start + (i + 1) = start + 1 + i := by omega
    refine ⟨?_, fun rank record => ?_, ?_⟩
    · intro i other get
      cases i with
      | zero =>
        cases get
        exact not_not.mp agrees
      | succ i =>
        rw [shift]
        exact agree i other get
    · have split_first : (∃ (i : Nat) (other : PrefixPageKey), (key :: rest)[i]? = some other ∧
          rank = ownerRank (start + i) ∧ candidate.record other = some record ∧ s.index.record other ≠ some record) ↔
          (rank = ownerRank start ∧ record = next ∧ s.index.record key ≠ some next) ∨ (rank, record) ∈ later := by
        rw [mem_iff]
        constructor
        · rintro ⟨i, other, get, rank_eq, isRecord, changed⟩
          cases i with
          | zero =>
            cases get
            rw [isNext] at isRecord
            cases isRecord
            exact .inl ⟨rank_eq, rfl, changed⟩
          | succ i => exact .inr ⟨i, other, get, shift i ▸ rank_eq, isRecord, changed⟩
        · rintro (⟨rank_eq, rfl, changed⟩ | ⟨i, other, get, rank_eq, isRecord, changed⟩)
          · exact ⟨0, key, rfl, rank_eq, isNext, changed⟩
          · exact ⟨i + 1, other, get, (shift i).symm ▸ rank_eq, isRecord, changed⟩
      rw [split_first]
      split
      next same =>
        simp only [same, ne_eq, not_true_eq_false, and_false, false_or]
      next changed =>
        rw [List.mem_cons, Prod.mk.injEq]
        simp [changed]
    · rw [List.filterMap_cons, isNext]
      split
      · exact sublist.cons _
      · exact sublist.cons_cons _

def Calm {α : Type} (x : Except PrefixRestoreError α) : Prop := x ≠ .error .panicked

theorem Calm.bind {x : Except PrefixRestoreError α} {f : α → Except PrefixRestoreError β} (first : Calm x)
    (next : ∀ a, Calm (f a)) : Calm (x >>= f) := by
  cases x with
  | ok a => exact next a
  | error e => exact fun same => first (congrArg Except.error (Except.error.inj same))

theorem Calm.mapM {f : α → Except PrefixRestoreError β} (each : ∀ a, Calm (f a)) (xs : List α) :
    Calm (xs.mapM f) := by
  induction xs with
  | nil => exact fun same => by cases same
  | cons x xs ih =>
    rw [List.mapM_cons]
    exact (each x).bind fun _ => ih.bind fun _ same => by cases same

theorem Calm.forM {f : α → Except PrefixRestoreError PUnit} (each : ∀ a, Calm (f a)) (xs : List α) :
    Calm (xs.forM f) := by
  induction xs with
  | nil => exact fun same => by cases same
  | cons x xs ih => exact (each x).bind fun _ => ih

theorem Calm.mapError {ε : Type} {lift : ε → PrefixRestoreError} (other : ∀ e, lift e ≠ .panicked) (x : Except ε α) :
    Calm (x.mapError lift) := by
  cases x with
  | ok a => exact fun same => by cases same
  | error e => exact fun same => other e (Except.error.inj same)

theorem planUpdates_calm (candidate : PrefixIndex) (keys : List PrefixPageKey) (start : Nat) :
    Calm (s.planUpdates candidate keys start) := by
  induction keys generalizing start with
  | nil => exact fun same => by cases same
  | cons key rest ih =>
    unfold planUpdates
    dsimp only
    split
    · exact fun same => by cases same
    · refine Calm.bind ?_ fun _ => (ih (start + 1)).bind fun _ same => by cases same
      cases candidate.record key with
      | none | some _ => exact fun same => by cases same

theorem planRegistration_calm (sha256 : List UInt8 → Bytes32) (s : PrefixRestoreCoordinator) (tokens : List UInt32)
    (records : List TierRecord) : Calm (s.planRegistration sha256 tokens records) := by
  refine (Calm.mapError (by simp) _).bind fun _ => ?_
  dsimp only
  split
  · exact fun same => by cases same
  refine (planUpdates_calm _ _ _).bind fun updates => ?_
  refine (Calm.mapM (fun rank => ?_) _).bind fun _ => ?_
  · unfold planRank
    split <;> exact fun same => by cases same
  · exact (Calm.forM (fun _ => Calm.mapError (by simp) _) _).bind fun _ same => by cases same

end Plan

section Register

structure Registered (s : PrefixRestoreCoordinator) (registration : Registration) : Prop where
  inserts : Inserts s.index registration.candidate registration.keys
  planned : ∃ updates, Updating s registration.candidate registration.keys 0 updates ∧
    (registration.plans.map (·.1) = List.finRange 4) ∧
    ∀ plan ∈ registration.plans, (s.ranks plan.1).planNvmeRegistrations (updatesOf plan.1 updates) = .ok plan.2

theorem planRegistration_registered {tokens : List UInt32} {registration : Registration}
    (sound : IndexSound s.index) (ok : s.planRegistration sha256 tokens records = .ok registration) :
    Registered s registration := by
  obtain ⟨⟨keys, candidate⟩, inserted, ok⟩ := bind_eq_ok.mp ok
  dsimp only at ok
  split at ok
  · cases ok
  obtain ⟨updates, isUpdates, ok⟩ := bind_eq_ok.mp ok
  obtain ⟨plans, isPlans, ok⟩ := bind_eq_ok.mp ok
  obtain ⟨_, _, ok⟩ := bind_eq_ok.mp ok
  cases ok
  have inserted : s.index.insert sha256 tokens records = .ok (keys, candidate) := by
    cases outcome : s.index.insert sha256 tokens records with
    | ok pair =>
      rw [outcome] at inserted
      exact congrArg Except.ok (Except.ok.inj inserted)
    | error failure =>
      rw [outcome] at inserted
      cases inserted
  refine ⟨insert_inserts sound inserted, updates, planUpdates_updating isUpdates, ?_⟩
  have each : ∀ rank, ∃ plan, s.planRank updates rank = .ok (rank, plan) ∧
      (s.ranks rank).planNvmeRegistrations (updatesOf rank updates) = .ok plan := by
    intro rank
    obtain ⟨pair, isPair⟩ := forall_of_mapM_ok isPlans rank (List.mem_finRange rank)
    unfold planRank at isPair ⊢
    split at isPair
    · cases isPair
    next plan isPlan => exact ⟨plan, rfl, isPlan⟩
  choose planOf isPlanOf using each
  rw [mapM_ok_of_forall (List.finRange 4) (g := fun rank => (rank, planOf rank))
    fun rank _ => (isPlanOf rank).1] at isPlans
  cases isPlans
  refine ⟨by rw [List.map_map]; exact List.map_id _, fun plan member => ?_⟩
  obtain ⟨rank, _, rfl⟩ := List.mem_map.mp member
  exact (isPlanOf rank).2

theorem mem_updatesOf {rank : Fin 4} {next : TierRecord} : next ∈ updatesOf rank updates ↔ (rank, next) ∈ updates := by
  unfold updatesOf
  simp

section Updating
variable (inserts : Inserts s.index candidate keys) (updating : Updating s candidate keys 0 updates) {rank : Fin 4}
  {next : TierRecord}

include inserts updating in
theorem Updating.placed (member : next ∈ updatesOf rank updates) :
    ∃ i, keys[i]? = some next.pageKey ∧ rank = ownerRank i ∧ candidate.record next.pageKey = some next ∧
      s.index.record next.pageKey ≠ some next := by
  obtain ⟨i, key, get, rank_eq, isNext, changed⟩ := (updating.mem_iff rank next).mp (mem_updatesOf.mp member)
  obtain ⟨same, isSame, key_eq, _⟩ := inserts.written key (List.mem_of_getElem? get)
  rw [isNext] at isSame
  cases isSame
  rw [Nat.zero_add] at rank_eq
  rw [key_eq]
  exact ⟨i, get, rank_eq, isNext, changed⟩

include inserts updating in
theorem Updating.distinct (rank : Fin 4) : ((updatesOf rank updates).map (·.pageKey)).Nodup := by
  have keyed : (keys.filterMap candidate.record).map (·.pageKey) = keys := by
    rw [List.map_filterMap]
    conv_rhs => rw [← List.filterMap_some (l := keys)]
    refine List.filterMap_congr fun key member => ?_
    obtain ⟨next, isNext, key_eq, _⟩ := inserts.written key member
    rw [isNext, Option.map_some, key_eq]
  have sub : ((updatesOf rank updates).map (·.pageKey)).Sublist keys := by
    rw [← keyed]
    exact List.Sublist.map _ (List.Sublist.trans (List.filter_sublist.map _) updating.sublist)
  exact sub.nodup inserts.distinct

include inserts updating in
theorem Updating.fresh (member : next ∈ updatesOf rank updates) : Fresh (s.ranks rank) next := by
  intro prior isPrior
  obtain ⟨i, get, rank_eq, isNext, changed⟩ := updating.placed inserts member
  have agree := updating.agree i next.pageKey get
  rw [Nat.zero_add, ← rank_eq, isPrior] at agree
  obtain ⟨same, isSame, _, relation⟩ := inserts.written next.pageKey (List.mem_of_getElem? get)
  rw [isNext] at isSame
  cases isSame
  rcases relation prior agree.symm with equal | upgrade
  · exact absurd (equal ▸ agree.symm) changed
  · exact upgrade

include inserts updating in
theorem Updating.registers (free : ∀ rank, ∀ record ∈ updatesOf rank updates, ∀ its,
      leasesOf s rank record.pageKey = some its → its.pins = 0 ∧ its.restore = none) :
    Registers s.index candidate keys (leasesOf s) (fun rank => taken (updatesOf rank updates) (leasesOf s rank)) := by
  refine ⟨fun rank key kept => taken_of_not_mem fun member => ?_, fun rank key updates => ?_⟩
  · obtain ⟨next, isNext, rfl⟩ := List.mem_map.mp member
    obtain ⟨i, get, rank_eq, isRecord, changed⟩ := updating.placed inserts isNext
    exact kept ⟨i, get, rank_eq, by rw [isRecord]; exact changed.symm⟩
  · obtain ⟨i, get, rank_eq, changed⟩ := updates
    obtain ⟨next, isNext, rfl, _⟩ := inserts.written key (List.mem_of_getElem? get)
    rw [isNext] at changed
    have member : next ∈ updatesOf rank _ := mem_updatesOf.mpr
      ((updating.mem_iff rank next).mpr ⟨i, next.pageKey, get, by rw [Nat.zero_add]; exact rank_eq, isNext, changed.symm⟩)
    exact ⟨next, isNext, taken_of_mem (updating.distinct inserts rank) member, free rank next member⟩

end Updating

theorem registerPrefix_ends (tokens : List UInt32) (records : List TierRecord) (whole : Whole sha256 asked ready s)
    (room : Room counter bound) (below : ∀ rank, (s.ranks rank).stateGeneration < bound) :
    Action.Ends (registerPrefix sha256 counter tokens records) s
      (fun _ s' => Whole sha256 asked ready s' ∧ s'.pending = s.pending)
      (fun failure s' => failure ≠ .panicked ∧ s' = s) := by
  unfold registerPrefix
  refine Action.Ends.reads (fun registration isRegistration => ?_) fun failure failed => ⟨?_, rfl⟩
  rotate_left
  · rintro rfl
    exact planRegistration_calm sha256 s tokens records failed
  obtain ⟨inserts, updates, updating, ranks_eq, plans⟩ :=
    planRegistration_registered whole.coherent.indexSound isRegistration
  have commits (plan : Fin 4 × NvmeRegistrationPlan) (member : plan ∈ registration.plans) :=
    commit_shifts (whole.ranks plan.1) (plans plan member) (fun _ => updating.fresh inserts)
      (updating.distinct inserts plan.1) room (below plan.1)
  obtain ⟨middle, ran, acts⟩ := commitPlans_acts (fun rank => taken (updatesOf rank updates) (leasesOf s rank))
    registration.plans (by rw [ranks_eq]; exact List.nodup_finRange 4) whole.ranks fun plan member => by
      obtain ⟨m', ran, shifts, _⟩ := commits plan member
      exact ⟨m', ran, shifts⟩
  have all (rank : Fin 4) : rank ∈ registration.plans.map (·.1) := by
    rw [ranks_eq]
    exact List.mem_finRange rank
  have registers := updating.registers inserts fun rank record member its leased => by
    obtain ⟨plan, isPlan, rfl⟩ := List.mem_map.mp (all rank)
    obtain ⟨_, _, _, free⟩ := commits plan isPlan
    exact free record member its leased
  simp only [all, if_true] at acts
  refine Action.Ends.step ran (Action.Ends.step rfl (Action.Ends.pure ⟨⟨?_, acts.sound, fun id restore found => ?_⟩,
    acts.pending_eq⟩))
  · show Coherent sha256 registration.candidate (leasesOf middle) ready middle.pending
    rw [acts.pending_eq, acts.leases_eq]
    refine whole.coherent.register inserts registers fun id restore found page member resident => ?_
    rcases (whole.stored id restore found).held page member with pinned | ⟨handle, restoring⟩
    · rw [pinned] at resident
      cases resident
    · rw [restoring] at resident
      cases resident
  · have stored := whole.stored id restore (acts.pending_eq ▸ found)
    refine ⟨?_, stored.tokens_eq, stored.held⟩
    show _ = (PrefixIndex.deriveKeys sha256 registration.candidate (asked id)).take _
    rw [PrefixIndex.deriveKeys, inserts.nameSpace_eq]
    exact stored.keys_eq

end Register

end Glmaxx.Proof.Prefix
