import Glmaxx.Proof.Residency.Entries

namespace Glmaxx.Proof.Residency
open Std Library Cache Cache.ResidencyManager

variable {m m' : ResidencyManager} {key : Bytes32} {entry entry' : ResidentEntry} {counter : Counter}
  {entries : ExtTreeMap Bytes32 ResidentEntry} {victims : ExtTreeMap Bytes32 Residency}
  {config : ResidencyConfig} {excluded : Bytes32} {incoming release : Nat} {plan plan' : HbmAdmissionPlan}

section Victims

theorem getElem?_applyVictims (victims : ExtTreeMap Bytes32 Residency) (entries : ExtTreeMap Bytes32 ResidentEntry)
    (key : Bytes32) : (applyVictims victims entries)[key]? =
      entries[key]?.map fun entry => victims[key]?.elim entry (evicted entry) :=
  ExtTreeMap.getElem?_map

def Idle (entries : ExtTreeMap Bytes32 ResidentEntry) (excluded key : Bytes32) (bytes : Nat) : Prop :=
  key ≠ excluded ∧ ∃ entry, entries[key]? = some entry ∧ entry.residency = .hbm ∧ entry.pinCount = 0 ∧ bytes = bytesOf entry.record

/-- The victims so far, with the bytes that are left once they and the incoming page are moved. -/
structure Evicts (config : ResidencyConfig) (entries : ExtTreeMap Bytes32 ResidentEntry) (excluded : Bytes32)
    (incoming : Nat) (plan : HbmAdmissionPlan) : Prop where
  hbm_eq : plan.hbmBytes + incoming = total (applyVictims plan.victims entries) hbmShare
  dram_eq : plan.dramBytes = total (applyVictims plan.victims entries) dramShare
  dram_le : plan.dramBytes ≤ config.dramBytes.toNat
  moved : ∀ (key : Bytes32) (destination : Residency), plan.victims[key]? = some destination →
    (destination = .dram ∨ destination = .nvme) ∧ ∃ bytes, Idle entries excluded key bytes

theorem applyVictims_insert {destination : Residency} (found : entries[key]? = some entry)
    (resident : entry.residency = .hbm) (fresh : victims[key]? = none) (goes : destination = .dram ∨ destination = .nvme) :
    total (applyVictims (victims.insert key destination) entries) hbmShare + bytesOf entry.record =
        total (applyVictims victims entries) hbmShare ∧
      total (applyVictims (victims.insert key destination) entries) dramShare =
        total (applyVictims victims entries) dramShare + if destination = .dram then bytesOf entry.record else 0 := by
  have agree : ∀ other, other ≠ key → (applyVictims (victims.insert key destination) entries)[other]? =
      (applyVictims victims entries)[other]? := by
    intro other different
    rw [getElem?_applyVictims, getElem?_applyVictims, getElem?_insert_ne different]
  have before : (applyVictims victims entries)[key]? = some entry := by
    rw [getElem?_applyVictims, found, fresh]
    rfl
  have after : (applyVictims (victims.insert key destination) entries)[key]? = some (evicted entry destination) := by
    rw [getElem?_applyVictims, found, ExtTreeMap.getElem?_insert_self]
    rfl
  have hbmTotal := total_agree hbmShare key agree
  have dramTotal := total_agree dramShare key agree
  rw [before, after] at hbmTotal dramTotal
  rcases goes with rfl | rfl <;>
  · simp only [Option.elim_some, hbmShare, dramShare, resident, evicted, reduceCtorEq, if_true, if_false]
      at hbmTotal dramTotal
    exact ⟨hbmTotal, dramTotal⟩

def freed (done : List Candidate) : Nat := (done.map (·.bytes)).sum

def dramAfter (config : ResidencyConfig) (dram : Nat) (done : List Candidate) : Nat :=
  done.foldl (fun dram candidate =>
    if dram + candidate.bytes ≤ config.dramBytes.toNat then dram + candidate.bytes else dram) dram

/-- Where the candidates go when all of them are evicted, with `dram` bytes in DRAM before. -/
def destinations (config : ResidencyConfig) : Nat → List Candidate → List (Bytes32 × Residency)
  | _, [] => []
  | dram, candidate :: rest =>
    (candidate.key, if dram + candidate.bytes ≤ config.dramBytes.toNat then .dram else .nvme) ::
      destinations config (dramAfter config dram [candidate]) rest

def listed (victims : ExtTreeMap Bytes32 Residency) (moves : List (Bytes32 × Residency)) :
    ExtTreeMap Bytes32 Residency :=
  moves.foldl (fun victims move => victims.insert move.1 move.2) victims

theorem dramAfter_le {dram : Nat} {done : List Candidate} (within : dram ≤ config.dramBytes.toNat) :
    dramAfter config dram done ≤ config.dramBytes.toNat := by
  induction done generalizing dram with
  | nil => exact within
  | cons candidate rest ih =>
    refine @ih (if dram + candidate.bytes ≤ config.dramBytes.toNat then dram + candidate.bytes else dram) ?_
    split
    next fits => exact fits
    next => exact within

theorem mem_destinations {destination : Residency} {dram : Nat} {done : List Candidate}
    (goes : (key, destination) ∈ destinations config dram done) :
    (destination = .dram ∨ destination = .nvme) ∧ ∃ candidate ∈ done, candidate.key = key := by
  induction done generalizing dram with
  | nil => cases goes
  | cons candidate rest ih =>
    rcases List.mem_cons.mp goes with here | later
    · cases here
      refine ⟨?_, candidate, List.mem_cons_self .., rfl⟩
      split <;> simp
    · obtain ⟨way, other, member, isKey⟩ := ih later
      exact ⟨way, other, List.mem_cons_of_mem _ member, isKey⟩

theorem mem_listed {destination : Residency} {moves : List (Bytes32 × Residency)}
    (found : (listed victims moves)[key]? = some destination) :
    (key, destination) ∈ moves ∨ victims[key]? = some destination := by
  induction moves generalizing victims with
  | nil => exact .inr found
  | cons move rest ih =>
    rcases ih found with later | here
    · exact .inl (List.mem_cons_of_mem _ later)
    · rw [getElem?_insert_ite] at here
      split at here
      next same =>
        refine .inl (List.mem_cons.mpr (.inl ?_))
        rw [same, ← Option.some.inj here]
      next => exact .inr here

theorem listed_total {dram : Nat} {done : List Candidate}
    (each : ∀ candidate ∈ done, Idle entries excluded candidate.key candidate.bytes)
    (distinct : (done.map (·.key)).Nodup) (fresh : ∀ candidate ∈ done, victims[candidate.key]? = none) :
    total (applyVictims (listed victims (destinations config dram done)) entries) hbmShare + freed done =
        total (applyVictims victims entries) hbmShare ∧
      total (applyVictims (listed victims (destinations config dram done)) entries) dramShare + dram =
        total (applyVictims victims entries) dramShare + dramAfter config dram done := by
  induction done generalizing victims dram with
  | nil => exact ⟨rfl, rfl⟩
  | cons candidate rest ih =>
    rw [List.map_cons, List.nodup_cons] at distinct
    obtain ⟨_, entry, found, resident, _, bytes_eq⟩ := each candidate (List.mem_cons_self ..)
    generalize way : (if dram + candidate.bytes ≤ config.dramBytes.toNat then Residency.dram else .nvme) = destination
    have goes : destination = .dram ∨ destination = .nvme := by
      subst way
      split <;> simp
    obtain ⟨hbm, inDram⟩ := applyVictims_insert found resident (fresh candidate (List.mem_cons_self ..)) goes
    have stillFresh : ∀ other ∈ rest, (victims.insert candidate.key destination)[other.key]? = none := by
      intro other member
      have different : other.key ≠ candidate.key := fun same => distinct.1 (same ▸ List.mem_map_of_mem member)
      rw [getElem?_insert_ne different, fresh other (List.mem_cons_of_mem _ member)]
    have later := @ih _ (dramAfter config dram [candidate]) (fun other member => each other (List.mem_cons_of_mem _ member))
      distinct.2 stillFresh
    have step : listed victims (destinations config dram (candidate :: rest)) =
        listed (victims.insert candidate.key destination)
          (destinations config (dramAfter config dram [candidate]) rest) := by
      rw [← way]
      rfl
    have all : dramAfter config dram (candidate :: rest) = dramAfter config (dramAfter config dram [candidate]) rest := rfl
    have one : dramAfter config dram [candidate] = dram + if destination = .dram then candidate.bytes else 0 := by
      subst way
      simp only [dramAfter, List.foldl_cons, List.foldl_nil]
      split <;> simp
    rw [step, all]
    simp only [freed, List.map_cons, List.sum_cons] at later ⊢
    rw [← bytes_eq] at hbm inDram
    omega

/-- The prefix `done` of the candidates is evicted, and no shorter one would make room. -/
structure Takes (config : ResidencyConfig) (incoming : Nat) (candidates : List Candidate) (plan plan' : HbmAdmissionPlan)
    (done : List Candidate) : Prop where
  isPrefix : done <+: candidates
  enough : freed done ≤ plan.hbmBytes
  plan_eq : plan' = ⟨listed plan.victims (destinations config plan.dramBytes done), plan.hbmBytes - freed done,
    dramAfter config plan.dramBytes done⟩
  needed : ∀ shorter candidate rest, done = shorter ++ candidate :: rest →
    config.hbmBytes.toNat < plan.hbmBytes - freed shorter + incoming
  stops : done = candidates ∨ plan'.hbmBytes + incoming ≤ config.hbmBytes.toNat

theorem Takes.nil {candidates : List Candidate}
    (stops : candidates = [] ∨ plan.hbmBytes + incoming ≤ config.hbmBytes.toNat) :
    Takes config incoming candidates plan plan [] :=
  ⟨List.nil_prefix, Nat.zero_le _, rfl, by simp, stops.imp Eq.symm id⟩

theorem Takes.cons {candidate : Candidate} {rest done : List Candidate}
    (crowded : config.hbmBytes.toNat < plan.hbmBytes + incoming) (enough : candidate.bytes ≤ plan.hbmBytes)
    (takes : Takes config incoming rest ⟨plan.victims.insert candidate.key
      (if plan.dramBytes + candidate.bytes ≤ config.dramBytes.toNat then .dram else .nvme),
      plan.hbmBytes - candidate.bytes, dramAfter config plan.dramBytes [candidate]⟩ plan' done) :
    Takes config incoming (candidate :: rest) plan plan' (candidate :: done) := by
  have sum : freed (candidate :: done) = candidate.bytes + freed done := by simp [freed]
  have below := takes.enough
  dsimp only at below
  refine ⟨(List.prefix_cons_inj candidate).mpr takes.isPrefix, by omega, ?_, ?_, takes.stops.imp (congrArg _) id⟩
  · rw [takes.plan_eq, sum, Nat.sub_sub]
    rfl
  · intro shorter other tail split
    cases shorter with
    | nil => simpa [freed] using crowded
    | cons first shorter =>
      obtain ⟨rfl, rest_eq⟩ := List.cons.inj split
      have := takes.needed shorter other tail rest_eq
      simp only [freed, List.map_cons, List.sum_cons] at this ⊢
      omega

theorem chooseVictims_takes {candidates : List Candidate}
    (ok : chooseVictims config incoming candidates plan = .ok plan') :
    ∃ done, Takes config incoming candidates plan plan' done := by
  induction candidates generalizing plan with
  | nil =>
    cases ok
    exact ⟨[], Takes.nil (.inl rfl)⟩
  | cons candidate rest ih =>
    obtain ⟨sum, summed, ok⟩ := bind_eq_ok.mp ok
    have sum_eq := checkedAdd_some (okOr_eq_ok.mp summed)
    split at ok
    next fits =>
      cases ok
      exact ⟨[], Takes.nil (.inr (sum_eq ▸ fits))⟩
    next crowded =>
    obtain ⟨hbmAfter, less, ok⟩ := bind_eq_ok.mp ok
    obtain ⟨dramSum, added, ok⟩ := bind_eq_ok.mp ok
    obtain ⟨enough, rfl⟩ := checkedSub_some (okOr_eq_ok.mp less)
    obtain rfl := checkedAdd_some (okOr_eq_ok.mp added)
    have next : chooseVictims config incoming rest ⟨plan.victims.insert candidate.key
        (if plan.dramBytes + candidate.bytes ≤ config.dramBytes.toNat then .dram else .nvme),
        plan.hbmBytes - candidate.bytes, dramAfter config plan.dramBytes [candidate]⟩ = .ok plan' := by
      simp only [dramAfter, List.foldl_cons, List.foldl_nil]
      split at ok
      next fits => rwa [if_pos fits, if_pos fits]
      next full => rwa [if_neg full, if_neg full]
    obtain ⟨done, takes⟩ := ih next
    exact ⟨candidate :: done, takes.cons (by omega) enough⟩

end Victims

section Plan

def asCandidate (pair : Bytes32 × ResidentEntry) : Candidate := ⟨pair.1, pair.2.lastTouch, bytesOf pair.2.record⟩

/-- What may be evicted, the least recently used first. -/
def queue (m : ResidencyManager) (excluded : Bytes32) : List Candidate :=
  ((m.evictable excluded).map asCandidate).insertionSort Candidate.Sooner

theorem candidates_eq {pairs : List (Bytes32 × ResidentEntry)} {candidates : List Candidate}
    (ok : pairs.mapM candidateOf = .ok candidates) : candidates = pairs.map asCandidate := by
  have each : ∀ pair ∈ pairs, candidateOf pair = .ok (asCandidate pair) := by
    intro pair member
    obtain ⟨candidate, isCandidate⟩ := forall_of_mapM_ok ok pair member
    obtain ⟨bytes, counted, same⟩ := bind_eq_ok.mp isCandidate
    unfold candidateOf asCandidate
    rw [counted, ← entryBytes_eq counted]
    rfl
  rw [mapM_ok_of_forall pairs each] at ok
  exact (Except.ok.inj ok).symm

theorem queue_idle {candidate : Candidate} (member : candidate ∈ queue m excluded) :
    Idle m.entries excluded candidate.key candidate.bytes := by
  rw [queue, (List.perm_insertionSort _ _).mem_iff] at member
  obtain ⟨⟨key, entry⟩, isPair, rfl⟩ := List.mem_map.mp member
  obtain ⟨inside, evictable⟩ := List.mem_filter.mp isPair
  obtain ⟨different, resident, unpinned⟩ := of_decide_eq_true evictable
  exact ⟨different, entry, mem_toList_iff.mp inside, resident, unpinned, rfl⟩

theorem queue_distinct : ((queue m excluded).map (·.key)).Nodup := by
  rw [queue, ((List.perm_insertionSort _ _).map _).nodup_iff, List.map_map]
  exact (keys_nodup m.entries).sublist (List.filter_sublist.map _)

theorem planHbmAdmission_takes (ok : m.planHbmAdmission incoming release excluded = .ok plan) :
    release ≤ m.dramBytes ∧ plan.hbmBytes ≤ m.config.hbmBytes.toNat ∧ ∃ chosen done,
      Takes m.config incoming (queue m excluded) ⟨∅, m.hbmBytes, m.dramBytes - release⟩ chosen done ∧
      plan = { chosen with hbmBytes := chosen.hbmBytes + incoming } := by
  obtain ⟨dramAfter, less, ok⟩ := bind_eq_ok.mp ok
  obtain ⟨enough, rfl⟩ := checkedSub_some (okOr_eq_ok.mp less)
  obtain ⟨sum, added, ok⟩ := bind_eq_ok.mp ok
  obtain rfl := checkedAdd_some (okOr_eq_ok.mp added)
  split at ok
  next fits =>
    cases ok
    exact ⟨enough, fits, _, [], Takes.nil (.inr fits), rfl⟩
  next =>
  obtain ⟨candidates, collected, ok⟩ := bind_eq_ok.mp ok
  obtain ⟨chosen, choosing, ok⟩ := bind_eq_ok.mp ok
  obtain ⟨total, addedTotal, ok⟩ := bind_eq_ok.mp ok
  obtain rfl := checkedAdd_some (okOr_eq_ok.mp addedTotal)
  split at ok
  · cases ok
  next fits =>
  cases ok
  rw [candidates_eq collected] at choosing
  obtain ⟨done, takes⟩ := chooseVictims_takes choosing
  exact ⟨enough, Nat.not_lt.mp fits, chosen, done, takes, rfl⟩

structure Enters (m : ResidencyManager) (key : Bytes32) (entry entry' : ResidentEntry) : Prop where
  found : m.entries[key]? = some entry
  outside : entry.residency ≠ .hbm
  inside : entry'.residency = .hbm
  record_eq : entry'.record = entry.record

theorem applyVictims_empty (entries : ExtTreeMap Bytes32 ResidentEntry) : applyVictims ∅ entries = entries := by
  apply ExtTreeMap.ext_getElem?
  intro other
  rw [getElem?_applyVictims]
  simp

theorem planHbmAdmission_evicts (enters : Enters m key entry entry') (sound : Sound m)
    (released : release = dramShare key entry)
    (ok : m.planHbmAdmission (bytesOf entry.record) release key = .ok plan) :
    ∃ hbm, plan.hbmBytes = hbm + bytesOf entry.record ∧ plan.hbmBytes ≤ m.config.hbmBytes.toNat ∧
      Evicts m.config (m.entries.insert key entry') key (bytesOf entry.record) { plan with hbmBytes := hbm } := by
  obtain ⟨enough, hbm_le, chosen, done, takes, rfl⟩ := planHbmAdmission_takes ok
  refine ⟨chosen.hbmBytes, rfl, hbm_le, ?_⟩
  have each : ∀ candidate ∈ done, Idle (m.entries.insert key entry') key candidate.key candidate.bytes := by
    intro candidate member
    obtain ⟨different, its, found, idle⟩ := queue_idle (takes.isPrefix.subset member)
    refine ⟨different, its, ?_, idle⟩
    rw [getElem?_insert_ne different, found]
  obtain ⟨hbm, inDram⟩ := @listed_total _ ∅ m.config key (m.dramBytes - release) done each
    (queue_distinct.sublist (takes.isPrefix.sublist.map _)) (by simp)
  have hbmTotal := total_insert_old hbmShare entry' enters.found
  have dramTotal := total_insert_old dramShare entry' enters.found
  have hbm_eq := sound.hbm_eq
  have dram_eq := sound.dram_eq
  have dram_le := sound.dram_le
  have freed_le := takes.enough
  rw [applyVictims_empty] at hbm inDram
  simp only [hbmShare, dramShare, enters.inside, enters.outside, enters.record_eq, reduceCtorEq, if_true, if_false]
    at hbmTotal dramTotal released freed_le
  rw [takes.plan_eq]
  refine ⟨?_, ?_, dramAfter_le (by dsimp only; omega), ?_⟩
  · dsimp only
    omega
  · dsimp only
    omega
  · intro other destination found
    rcases mem_listed found with goes | impossible
    · obtain ⟨way, candidate, member, rfl⟩ := mem_destinations goes
      exact ⟨way, _, each candidate member⟩
    · simp at impossible

end Plan

section Entering

/-- The page entered HBM and the victims left it; nothing else moved. -/
structure Admits (key : Bytes32) (entry entry' : ResidentEntry) (m m' : ResidencyManager) : Prop where
  enters : Enters m key entry entry'
  here : m'.entries[key]? = some entry'
  others : ∀ other, other ≠ key → m'.entries[other]? = m.entries[other]? ∨
    ∃ its destination, m.entries[other]? = some its ∧ its.residency = .hbm ∧ its.pinCount = 0 ∧
      (destination = .dram ∨ destination = .nvme) ∧ m'.entries[other]? = some (evicted its destination)
  hbm_eq : m'.hbmBytes = total m'.entries hbmShare
  hbm_le : m'.hbmBytes ≤ m.config.hbmBytes.toNat
  dram_eq : m'.dramBytes = total m'.entries dramShare
  dram_le : m'.dramBytes ≤ m.config.dramBytes.toNat
  config_eq : m'.config = m.config
  generation_eq : m'.stateGeneration = m.stateGeneration + 1

theorem admits_of_plan {clock next : Nat} (enters : Enters m key entry entry') (sound : Sound m)
    (released : release = dramShare key entry)
    (planned : m.planHbmAdmission (bytesOf entry.record) release key = .ok plan)
    (advanced : m.nextStateGeneration counter = .ok next) :
    Admits key entry entry' m { applyHbmAdmission plan { m with entries := m.entries.insert key entry' } with
      clock := clock, stateGeneration := next } := by
  obtain ⟨hbm, hbm_eq, hbm_le, evicts⟩ := planHbmAdmission_evicts enters sound released planned
  refine ⟨enters, ?_, ?_, ?_, hbm_le, evicts.dram_eq, evicts.dram_le, rfl, nextStateGeneration_eq advanced⟩
  · show (applyVictims plan.victims (m.entries.insert key entry'))[key]? = _
    have unlisted : plan.victims[key]? = none := by
      cases listed : plan.victims[key]? with
      | none => rfl
      | some destination =>
        obtain ⟨_, _, different, _⟩ := evicts.moved key destination listed
        exact absurd rfl different
    rw [getElem?_applyVictims, ExtTreeMap.getElem?_insert_self, unlisted]
    rfl
  · intro other different
    show (applyVictims plan.victims (m.entries.insert key entry'))[other]? = _ ∨
      ∃ its destination, _ ∧ _ ∧ _ ∧ _ ∧ (applyVictims plan.victims (m.entries.insert key entry'))[other]? = _
    have elsewhere : (m.entries.insert key entry')[other]? = m.entries[other]? :=
      getElem?_insert_ne different
    rw [getElem?_applyVictims, elsewhere]
    cases listed : plan.victims[other]? with
    | none => exact .inl (by simp)
    | some destination =>
      obtain ⟨goes, _, _, its, found, resident, unpinned, _⟩ := evicts.moved other destination listed
      rw [elsewhere] at found
      exact .inr ⟨its, destination, found, resident, unpinned, goes, by rw [found]; rfl⟩
  · show plan.hbmBytes = _
    rw [hbm_eq]
    exact evicts.hbm_eq

theorem EntrySound.evicted {destination : Residency} (entrySound : EntrySound key entry)
    (resident : entry.residency = .hbm) (unpinned : entry.pinCount = 0)
    (goes : destination = .dram ∨ destination = .nvme) : EntrySound key (evicted entry destination) := by
  obtain ⟨valid, tier, key_eq, _, pending, restored, restored_same⟩ := entrySound
  rw [resident] at pending restored
  refine ⟨valid, tier, key_eq, fun positive => ?_, ?_, ?_, fun page isPage => restored_same page ?_⟩
  · exact absurd positive (by simp [ResidencyManager.evicted, unpinned])
  · show entry.pendingRestore.isSome = true ↔ destination = .restoring
    rw [pending]
    rcases goes with rfl | rfl <;> simp
  · show (if destination = .nvme then none else entry.restored).isSome = true ↔ destination = .hbm ∨ destination = .dram
    rcases goes with rfl | rfl
    · simpa using restored
    · simp
  · change (if destination = .nvme then none else entry.restored) = some page at isPage
    split at isPage
    · cases isPage
    · exact isPage

theorem Admits.sound (admits : Admits key entry entry' m m') (sound : Sound m) (entrySound : EntrySound key entry') :
    Sound m' := by
  refine ⟨?_, admits.hbm_eq, ?_, admits.dram_eq, ?_⟩
  · intro other its found
    by_cases here : other = key
    · rw [here, admits.here] at found
      cases found
      exact here ▸ entrySound
    rcases admits.others other here with same | ⟨before, destination, isBefore, resident, unpinned, goes, after⟩
    · exact sound.each other its (same ▸ found)
    · rw [after] at found
      cases found
      exact (sound.each other before isBefore).evicted resident unpinned goes
  · rw [admits.config_eq]
    exact admits.hbm_le
  · rw [admits.config_eq]
    exact admits.dram_le

theorem completeRestore_ends (counter : Counter) (result : RestoreResult) (sound : Sound m) :
    Action.Ends (completeRestore counter result) m
      (fun _ m' => ∃ entry touch, entry.residency = .restoring ∧ entry.record = result.page.record ∧
        entry.pendingRestore = some ⟨result.requestId, result.pageOrdinal⟩ ∧
        Admits result.page.record.pageKey entry { entry with
          residency := .hbm, restored := some result.page, pendingRestore := none, lastTouch := touch } m m')
      (fun _ m' => m' = m) := by
  refine Action.Ends.updates (fun _ m' ran => ?_) fun _ _ => rfl
  obtain ⟨entry, found, ran⟩ := bind_eq_ok.mp ran
  split at ran
  · cases ran
  next fresh =>
  simp only [not_or, not_not] at fresh
  obtain ⟨restoring, pending, record_eq⟩ := fresh
  obtain ⟨bytes, counted, ran⟩ := bind_eq_ok.mp ran
  obtain ⟨clock, _, ran⟩ := bind_eq_ok.mp ran
  obtain ⟨next, advanced, ran⟩ := bind_eq_ok.mp ran
  obtain ⟨plan, planned, ran⟩ := bind_eq_ok.mp ran
  cases ran
  rw [entryBytes_eq counted] at planned
  exact ⟨entry, clock, restoring, record_eq, pending,
    admits_of_plan ⟨okOr_eq_ok.mp found, by simp [restoring], rfl, rfl⟩ sound (by simp [dramShare, restoring]) planned
      advanced⟩

theorem promoteDram_ends (counter : Counter) (key : Bytes32) (sound : Sound m) :
    Action.Ends (promoteDram counter key) m
      (fun _ m' => ∃ entry touch, entry.residency = .dram ∧
        Admits key entry { entry with residency := .hbm, lastTouch := touch } m m')
      (fun _ m' => m' = m) := by
  refine Action.Ends.updates (fun _ m' ran => ?_) fun _ _ => rfl
  obtain ⟨entry, found, ran⟩ := bind_eq_ok.mp ran
  split at ran
  · cases ran
  next resident =>
  have resident := not_not.mp resident
  obtain ⟨bytes, counted, ran⟩ := bind_eq_ok.mp ran
  obtain ⟨clock, _, ran⟩ := bind_eq_ok.mp ran
  obtain ⟨next, advanced, ran⟩ := bind_eq_ok.mp ran
  obtain ⟨plan, planned, ran⟩ := bind_eq_ok.mp ran
  cases ran
  rw [entryBytes_eq counted] at planned
  exact ⟨entry, clock, resident, admits_of_plan ⟨okOr_eq_ok.mp found, by simp [resident], rfl, rfl⟩ sound
    (by simp [dramShare, resident]) planned advanced⟩

theorem Admits.sound_restored {touch : Nat} {page : RestoredPage} (sound : Sound m) (record_eq : entry.record = page.record)
    (admits : Admits key entry
      { entry with residency := .hbm, restored := some page, pendingRestore := none, lastTouch := touch } m m') :
    Sound m' := by
  obtain ⟨valid, tier, key_eq, _, _, _, _⟩ := sound.each key entry admits.enters.found
  refine admits.sound sound ⟨valid, tier, key_eq, fun _ => rfl, by simp, by simp, fun other isOther => ?_⟩
  cases isOther
  exact record_eq.symm

theorem Admits.sound_promoted {touch : Nat} (sound : Sound m) (resident : entry.residency = .dram)
    (admits : Admits key entry { entry with residency := .hbm, lastTouch := touch } m m') : Sound m' := by
  obtain ⟨valid, tier, key_eq, _, pending, restored, restored_same⟩ := sound.each key entry admits.enters.found
  rw [resident] at pending restored
  refine admits.sound sound ⟨valid, tier, key_eq, fun _ => rfl, ?_, ?_, restored_same⟩
  · simpa using pending
  · simpa using restored

end Entering

end Glmaxx.Proof.Residency
