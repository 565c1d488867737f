import Glmaxx.Proof.Prefix.Transfers

namespace Glmaxx.Proof.Prefix
open Std Library Cache Serving Serving.PrefixRestoreCoordinator
open Proof.Residency (Sound)

variable {i j : Nat} {shifted : Bytes32 → Option Lease} {m' : ResidencyManager} {α : Type} {index : PrefixIndex}

variable {s s' s'' : PrefixRestoreCoordinator} {leases leases' : Leases} {rank : Fin 4} {key : Bytes32}
  {counter : Counter} {bound id : Nat} {pages : List PendingPage} {restore : PendingRestore}

def leasesOf (s : PrefixRestoreCoordinator) : Leases := fun rank => lease (s.ranks rank)

def RanksSound (s : PrefixRestoreCoordinator) : Prop := ∀ rank, Sound (s.ranks rank)

/-- The ranks did something that changed the ledgers to `leases`, each at most `steps` times. -/
structure Acts (steps : Nat) (leases : Leases) (s s' : PrefixRestoreCoordinator) : Prop where
  index_eq : s'.index = s.index
  pending_eq : s'.pending = s.pending
  sound : RanksSound s'
  leases_eq : leasesOf s' = leases
  generation_le : ∀ rank, (s'.ranks rank).stateGeneration ≤ (s.ranks rank).stateGeneration + steps

theorem Acts.refl (sound : RanksSound s) : Acts 0 (leasesOf s) s s := ⟨rfl, rfl, sound, rfl, fun _ => Nat.le_refl _⟩

theorem Acts.trans (first : Acts i leases s s') (second : Acts j leases' s' s'') : Acts (i + j) leases' s s'' :=
  ⟨second.index_eq.trans first.index_eq, second.pending_eq.trans first.pending_eq, second.sound, second.leases_eq,
    fun rank => by
      have := first.generation_le rank
      have := second.generation_le rank
      omega⟩

theorem Acts.mono (acts : Acts i leases s s') (less : i ≤ j) : Acts j leases s s' :=
  ⟨acts.index_eq, acts.pending_eq, acts.sound, acts.leases_eq, fun rank => by
    have := acts.generation_le rank
    omega⟩

section Ranks

theorem acts_of_shifts {steps : Nat} (sound : RanksSound s) (shifts : Shifts steps shifted (s.ranks rank) m') :
    Acts steps (Function.update (leasesOf s) rank shifted) s (setRank rank m' s) := by
  refine ⟨rfl, rfl, fun other => ?_, ?_, fun other => ?_⟩
  · show Sound (Function.update s.ranks rank m' other)
    rw [Function.update_apply]
    split
    · exact shifts.sound
    · exact sound other
  · funext other
    show lease (Function.update s.ranks rank m' other) = _
    rw [Function.update_apply, Function.update_apply]
    split
    · exact shifts.leases_eq
    · rfl
  · show (Function.update s.ranks rank m' other).stateGeneration ≤ _
    rw [Function.update_apply]
    split
    next here => rw [here]; exact shifts.generation_le
    next => exact Nat.le_add_right _ _

theorem setRank_same : setRank rank (s.ranks rank) s = s := by
  unfold setRank
  rw [Function.update_eq_self]

theorem onRank_ends {action : Reside α} {good : α → ResidencyManager → Prop}
    {bad : ResidencyError → ResidencyManager → Prop} (ends : Action.Ends action (s.ranks rank) good bad) :
    Action.Ends (onRank rank action) s (fun a s' => ∃ m', good a m' ∧ s' = setRank rank m' s)
      (fun e s' => ∃ failure m', e = .residency failure ∧ bad failure m' ∧ s' = setRank rank m' s) :=
  Action.Ends.within ends (fun _ m' holds => ⟨m', holds, rfl⟩) fun e m' holds => ⟨e, m', rfl, holds, rfl⟩

end Ranks

section Iteration

theorem forM_acts (body : RankPage × α → Restores Unit) (change : α → Lease → Lease)
    (pre : α → Lease → Prop) (step : ∀ (s : PrefixRestoreCoordinator) (entry : RankPage × α) (before : Lease), RanksSound s →
      leasesOf s entry.1.rank entry.1.key = some before → pre entry.2 before →
      (s.ranks entry.1.rank).stateGeneration < bound → ∃ s', body entry s = (.ok (), s') ∧
        Acts 1 (put (leasesOf s) entry.1.rank entry.1.key (change entry.2 before)) s s')
    (entries : List (RankPage × α)) (distinct : (entries.map (·.1)).Nodup) (sound : RanksSound s)
    (each : ∀ entry ∈ entries, ∃ before, leasesOf s entry.1.rank entry.1.key = some before ∧ pre entry.2 before)
    (room : ∀ rank, (s.ranks rank).stateGeneration + entries.length ≤ bound) :
    ∃ s' leases', entries.forM body s = (.ok (), s') ∧ Acts entries.length leases' s s' ∧
      (∀ entry ∈ entries, leases' entry.1.rank entry.1.key =
        (leasesOf s entry.1.rank entry.1.key).map (change entry.2)) ∧
      ∀ page : RankPage, page ∉ entries.map (·.1) → leases' page.rank page.key = leasesOf s page.rank page.key := by
  induction entries generalizing s with
  | nil => exact ⟨s, leasesOf s, rfl, Acts.refl sound, by simp, fun _ _ => rfl⟩
  | cons entry rest ih =>
    rw [List.map_cons, List.nodup_cons] at distinct
    rw [List.length_cons] at room ⊢
    obtain ⟨before, leased, holds⟩ := each entry (List.mem_cons_self ..)
    obtain ⟨middle, ran, acts⟩ := step s entry before sound leased holds (by have := room entry.1.rank; omega)
    have elsewhere (page : RankPage) (different : page ≠ entry.1) :
        leasesOf middle page.rank page.key = leasesOf s page.rank page.key := by
      rw [acts.leases_eq, put_apply, if_neg]
      rintro ⟨sameRank, sameKey⟩
      exact different (by cases page; cases entry; simp_all)
    have apart (other : RankPage × α) (member : other ∈ rest) : other.1 ≠ entry.1 :=
      fun same => distinct.1 (same ▸ List.mem_map_of_mem member)
    obtain ⟨s', leases', ranRest, actsRest, changed, kept⟩ := ih distinct.2 acts.sound
      (fun other member => by
        rw [elsewhere other.1 (apart other member)]
        exact each other (List.mem_cons_of_mem _ member))
      (fun rank => by
        have := room rank
        have := acts.generation_le rank
        omega)
    refine ⟨s', leases', ?_, ?_, ?_, ?_⟩
    · show (body entry >>= fun _ => rest.forM body) s = _
      rw [Action.bind_ok ran, ranRest]
    · rw [Nat.add_comm]
      exact acts.trans actsRest
    · intro other member
      rcases List.mem_cons.mp member with rfl | later
      · rw [kept _ distinct.1, acts.leases_eq, put_apply, if_pos ⟨rfl, rfl⟩, leased]
        rfl
      · rw [changed other later, elsewhere _ (apart other later)]
    · intro page absent
      rw [List.map_cons, List.mem_cons, not_or] at absent
      rw [kept page absent.2, elsewhere page absent.1]

theorem expectRank_acts {action : Reside Unit}
    (sound : RanksSound s) (ran : action (s.ranks rank) = (.ok (), m')) (shifts : Shifts 1 shifted (s.ranks rank) m') :
    ∃ s', expectRank rank action s = (.ok (), s') ∧ Acts 1 (Function.update (leasesOf s) rank shifted) s s' :=
  ⟨_, Action.within_ok ran, acts_of_shifts sound shifts⟩

theorem commitUnpin_acts (room : Room counter bound) (s : PrefixRestoreCoordinator) (entry : RankPage × Nat)
    (before : Lease) (sound : RanksSound s) (leased : leasesOf s entry.1.rank entry.1.key = some before)
    (holds : entry.2 ≠ 0 ∧ entry.2 ≤ before.pins) (below : (s.ranks entry.1.rank).stateGeneration < bound) :
    ∃ s', commitUnpin counter entry s = (.ok (), s') ∧
      Acts 1 (put (leasesOf s) entry.1.rank entry.1.key { before with pins := before.pins - entry.2 }) s s' := by
  obtain ⟨m', ran, shifts⟩ := unpinCount_of_lease room below (sound _) leased holds.1 holds.2
  exact expectRank_acts sound ran shifts

theorem commitAbort_acts (room : Room counter bound) (s : PrefixRestoreCoordinator) (entry : RankPage × Nat × Nat)
    (before : Lease) (sound : RanksSound s) (leased : leasesOf s entry.1.rank entry.1.key = some before)
    (holds : before.restore = some ⟨entry.2.1, entry.2.2⟩) (below : (s.ranks entry.1.rank).stateGeneration < bound) :
    ∃ s', commitAbort counter entry s = (.ok (), s') ∧
      Acts 1 (put (leasesOf s) entry.1.rank entry.1.key { before with restore := none }) s s' := by
  obtain ⟨m', ran, shifts⟩ := abortRestoreIdentity_of_lease room below (sound _) leased holds
  exact expectRank_acts sound ran shifts

end Iteration

section Plan

/-- The plan has a pin for each pinned page and an abort for each page waited for. -/
structure Planned (id : Nat) (pages : List PendingPage) (plan plan' : PendingRollbackPlan) : Prop where
  pins : ∀ (page : RankPage) (count : Nat), plan'.pins[page]? = some count ↔ plan.pins[page]? = some count ∨
    count = 1 ∧ ∃ its ∈ pages, its.state = .pinned ∧ page = ⟨its.rank, its.key⟩
  restores : ∀ (page : RankPage) (identity : Nat × Nat), plan'.restores[page]? = some identity ↔
    plan.restores[page]? = some identity ∨
      ∃ its ∈ pages, waits its.state = true ∧ page = ⟨its.rank, its.key⟩ ∧ identity = (id, its.ordinal)

theorem planPage_planned {plan : PendingRollbackPlan} (page : PendingPage)
    (noPin : plan.pins[(⟨page.rank, page.key⟩ : RankPage)]? = none)
    (noRestore : plan.restores[(⟨page.rank, page.key⟩ : RankPage)]? = none) :
    ∃ plan', planPage id plan page = .ok plan' ∧ Planned id [page] plan plan' := by
  have insertion {α : Type} {entries : ExtTreeMap RankPage α} (absent : entries[(⟨page.rank, page.key⟩ : RankPage)]? = none)
      (value : α) (other : RankPage) (result : α) :
      (entries.insert ⟨page.rank, page.key⟩ value)[other]? = some result ↔
        entries[other]? = some result ∨ other = ⟨page.rank, page.key⟩ ∧ result = value := by
    rw [getElem?_insert_ite]
    split
    next here =>
      rw [here, absent]
      simp [eq_comm]
    next elsewhere => simp [elsewhere]
  cases isState : page.state with
  | pinned =>
    refine ⟨{ plan with pins := plan.pins.insert ⟨page.rank, page.key⟩ 1 }, ?_, ⟨fun other count => ?_, ?_⟩⟩
    · unfold planPage countPin
      rw [isState]
      dsimp only
      rw [noPin]
      rfl
    · rw [insertion noPin]
      simp [isState, and_comm]
    · simp [isState, waits]
  | resident =>
    refine ⟨plan, ?_, ⟨?_, ?_⟩⟩
    · unfold planPage
      rw [isState]
    · simp [isState]
    · simp [isState, waits]
  | restoreReserved | restoring _ =>
    refine ⟨{ plan with restores := plan.restores.insert ⟨page.rank, page.key⟩ (id, page.ordinal) }, ?_, ⟨?_, fun other identity => ?_⟩⟩
    · unfold planPage
      rw [isState]
      dsimp only
      rw [noRestore]
      rfl
    · simp [isState]
    · rw [insertion noRestore]
      simp [isState, waits]

theorem planPages_planned (distinct : (pages.map (·.key)).Nodup) {plan : PendingRollbackPlan}
    (noPins : ∀ page ∈ pages, plan.pins[(⟨page.rank, page.key⟩ : RankPage)]? = none)
    (noRestores : ∀ page ∈ pages, plan.restores[(⟨page.rank, page.key⟩ : RankPage)]? = none) :
    ∃ plan', pages.foldlM (planPage id) plan = .ok plan' ∧ Planned id pages plan plan' := by
  induction pages generalizing plan with
  | nil => exact ⟨plan, rfl, ⟨by simp, by simp⟩⟩
  | cons page rest ih =>
    rw [List.map_cons, List.nodup_cons] at distinct
    obtain ⟨middle, ran, first⟩ := @planPage_planned id plan page (noPins page (List.mem_cons_self ..))
      (noRestores page (List.mem_cons_self ..))
    have apart (other : PendingPage) (member : other ∈ rest) :
        (⟨other.rank, other.key⟩ : RankPage) ≠ ⟨page.rank, page.key⟩ := by
      intro same
      exact distinct.1 ((RankPage.mk.inj same).2 ▸ List.mem_map_of_mem member)
    obtain ⟨plan', ranRest, later⟩ := @ih distinct.2 middle
      (fun other member => by
        rw [Option.eq_none_iff_forall_ne_some]
        intro count found
        rcases (first.pins _ _).mp found with old | ⟨_, its, isPage, _, same⟩
        · rw [noPins other (List.mem_cons_of_mem _ member)] at old
          cases old
        · rw [List.mem_singleton.mp isPage] at same
          exact apart other member same)
      (fun other member => by
        rw [Option.eq_none_iff_forall_ne_some]
        intro identity found
        rcases (first.restores _ _).mp found with old | ⟨its, isPage, _, same, _⟩
        · rw [noRestores other (List.mem_cons_of_mem _ member)] at old
          cases old
        · rw [List.mem_singleton.mp isPage] at same
          exact apart other member same)
    refine ⟨plan', ?_, ⟨fun other count => ?_, fun other identity => ?_⟩⟩
    · rw [List.foldlM_cons, ran]
      exact ranRest
    · rw [later.pins, first.pins]
      simp only [List.mem_cons, exists_eq_or_imp]
      tauto
    · rw [later.restores, first.restores]
      simp only [List.mem_cons, exists_eq_or_imp]
      tauto

theorem length_toList_le {entries : ExtTreeMap RankPage α}
    (each : ∀ (page : RankPage) (value : α), entries[page]? = some value → ∃ its ∈ pages, page = ⟨its.rank, its.key⟩) :
    entries.toList.length ≤ pages.length := by
  have subset : entries.toList.map (·.1) ⊆ pages.map fun page => (⟨page.rank, page.key⟩ : RankPage) := by
    intro page member
    obtain ⟨⟨_, value⟩, listed, rfl⟩ := List.mem_map.mp member
    obtain ⟨its, isPage, same⟩ := each _ value (mem_toList_iff.mp listed)
    exact List.mem_map.mpr ⟨its, isPage, same.symm⟩
  have := (List.subperm_of_subset (keys_nodup entries) subset).length_le
  simpa using this

end Plan

section Rollback
variable {sha256 : List UInt8 → Bytes32} {ready : List (List UInt32 × RestoredPrefix)} {page : PendingPage}
  {pending : ExtTreeMap Nat PendingRestore} {plan : PendingRollbackPlan}
  (coherent : Coherent sha256 s.index (leasesOf s) ready (pending.insert id restore))

include coherent in
theorem Coherent.restoreSound : RestoreSound s.index (leasesOf s) id restore :=
  coherent.restores id restore (by rw [getElem?_insert_ite, if_pos rfl])

include coherent in
theorem Coherent.page_lease (member : page ∈ restore.pages) :
    ∃ its, leasesOf s page.rank page.key = some its ∧ (page.state = .pinned → 0 < its.pins) ∧
      (waits page.state = true → its.restore = some ⟨id, page.ordinal⟩) := by
  have sound := coherent.restoreSound
  have pageSound := sound.page_sound member
  obtain ⟨its, leased⟩ := coherent.leased pageSound.indexed
  rw [← pageSound.rank_eq] at leased
  refine ⟨its, leased, fun pinned => ?_, fun isWaiting => ?_⟩
  · exact coherent.pinned_pos (by rw [getElem?_insert_ite, if_pos rfl]) member pinned leased
  · obtain ⟨same, isSame, identity⟩ := sound.waiting page member isWaiting
    rw [leased] at isSame
    cases isSame
    exact identity

include coherent in
theorem Coherent.pins_ready (planned : Planned id restore.pages ⟨∅, ∅⟩ plan) :
    ∀ entry ∈ plan.pins.toList, ∃ before, leasesOf s entry.1.rank entry.1.key = some before ∧
      entry.2 ≠ 0 ∧ entry.2 ≤ before.pins := by
  rintro ⟨_, count⟩ listed
  rcases (planned.pins _ count).mp (mem_toList_iff.mp listed) with none | ⟨rfl, page, member, pinned, rfl⟩
  · simp at none
  · obtain ⟨its, leased, positive, _⟩ := coherent.page_lease member
    exact ⟨its, leased, by simp, positive pinned⟩

include coherent in
theorem Coherent.restores_ready (planned : Planned id restore.pages ⟨∅, ∅⟩ plan) :
    ∀ entry ∈ plan.restores.toList, ∃ before, leasesOf s entry.1.rank entry.1.key = some before ∧
      before.restore = some ⟨entry.2.1, entry.2.2⟩ := by
  rintro ⟨_, identity⟩ listed
  rcases (planned.restores _ identity).mp (mem_toList_iff.mp listed) with none | ⟨page, member, waiting, rfl, rfl⟩
  · simp at none
  · obtain ⟨its, leased, _, isWaiting⟩ := coherent.page_lease member
    exact ⟨its, leased, isWaiting waiting⟩

include coherent in
theorem Coherent.planRollback (sound : RanksSound s) (id_eq : restore.requestId = id) :
    ∃ plan, s.planPendingRollback restore = .ok plan ∧ Planned id restore.pages ⟨∅, ∅⟩ plan := by
  obtain ⟨plan, ran, planned⟩ := @planPages_planned id restore.pages coherent.restoreSound.keys_nodup ⟨∅, ∅⟩
    (by simp) (by simp)
  refine ⟨plan, ?_, planned⟩
  have pinsValid : plan.pins.toList.forM s.validateUnpin = .ok () := by
    refine forM_ok_of_forall _ fun entry listed => ?_
    obtain ⟨before, leased, positive, enough⟩ := coherent.pins_ready planned entry listed
    unfold validateUnpin
    rw [validateUnpinCount_of_lease (sound _) leased positive enough]
    rfl
  have restoresValid : plan.restores.toList.forM s.validateAbort = .ok () := by
    refine forM_ok_of_forall _ fun entry listed => ?_
    obtain ⟨before, leased, isWaiting⟩ := coherent.restores_ready planned entry listed
    unfold validateAbort
    rw [validateAbort_of_lease (sound _) leased isWaiting]
    rfl
  unfold planPendingRollback
  rw [id_eq, ran]
  show (plan.pins.toList.forM s.validateUnpin >>= _) = _
  rw [pinsValid]
  show (plan.restores.toList.forM s.validateAbort >>= _) = _
  rw [restoresValid]
  rfl

section
variable (sound : RestoreSound index leases id restore) (member : page ∈ restore.pages)
include sound member

theorem RestoreSound.undone_pinned (pinned : page.state = .pinned) :
    undone restore.pages page.key = fun its => { its with pins := its.pins - 1 } := by
  have one : pinnedIn restore.pages page.key = 1 := by
    have := pinnedIn_le_one sound.keys_nodup page.key
    have := pinnedIn_pos.mpr ⟨page, member, pinned, rfl⟩
    omega
  have free : waitsFor restore.pages page.key = false := by
    rw [Bool.eq_false_iff]
    intro isWaiting
    obtain ⟨other, otherMember, waiting, same⟩ := waitsFor_iff.mp isWaiting
    rw [sound.page_unique member otherMember same, pinned] at waiting
    cases waiting
  funext its
  rw [undone, one, free]
  rfl

theorem RestoreSound.undone_waiting (waiting : waits page.state = true) :
    undone restore.pages page.key = fun its => { its with restore := none } := by
  have zero : pinnedIn restore.pages page.key = 0 := by
    by_contra positive
    obtain ⟨other, otherMember, pinned, same⟩ := pinnedIn_pos.mp (Nat.pos_of_ne_zero positive)
    rw [← sound.page_unique member otherMember same, pinned] at waiting
    cases waiting
  funext its
  rw [undone, zero, waitsFor_iff.mpr ⟨page, member, waiting, rfl⟩]
  rfl

end

theorem undone_free {its : Lease} (unpinned : ¬∃ page ∈ pages, page.state = .pinned ∧ page.key = key)
    (idle : ¬∃ page ∈ pages, waits page.state = true ∧ page.key = key) : undone pages key its = its := by
  have zero : pinnedIn pages key = 0 := by
    by_contra positive
    exact unpinned (pinnedIn_pos.mp (Nat.pos_of_ne_zero positive))
  have free : waitsFor pages key = false := by
    rw [Bool.eq_false_iff]
    exact fun waiting => idle (waitsFor_iff.mp waiting)
  rw [undone, zero, free]
  rfl

theorem mem_keys {entries : ExtTreeMap RankPage α} {page : RankPage} :
    page ∈ entries.toList.map (·.1) ↔ ∃ value, entries[page]? = some value := by
  simp only [List.mem_map, Prod.exists, exists_and_right, exists_eq_right, mem_toList_iff]

include coherent in
theorem Coherent.commitRollback (sound : RanksSound s) (room : Room counter bound)
    (planned : Planned id restore.pages ⟨∅, ∅⟩ plan)
    (below : ∀ rank, (s.ranks rank).stateGeneration + 2 * restore.pages.length ≤ bound) :
    ∃ s', commitPendingRollback counter plan s = (.ok (), s') ∧
      Acts (2 * restore.pages.length) (fun rank key => (leasesOf s rank key).map (undone restore.pages key)) s s' := by
  have pinPages {page : RankPage} {count : Nat} (found : plan.pins[page]? = some count) :
      count = 1 ∧ ∃ its ∈ restore.pages, its.state = .pinned ∧ page = ⟨its.rank, its.key⟩ := by
    simpa using (planned.pins page count).mp found
  have restorePages {page : RankPage} {identity : Nat × Nat} (found : plan.restores[page]? = some identity) :
      ∃ its ∈ restore.pages, waits its.state = true ∧ page = ⟨its.rank, its.key⟩ ∧ identity = (id, its.ordinal) := by
    simpa using (planned.restores page identity).mp found
  have pinsLength : plan.pins.toList.length ≤ restore.pages.length := length_toList_le fun page count found => by
    obtain ⟨_, its, member, _, same⟩ := pinPages found
    exact ⟨its, member, same⟩
  have restoresLength : plan.restores.toList.length ≤ restore.pages.length := length_toList_le fun page _ found => by
    obtain ⟨its, member, _, same, _⟩ := restorePages found
    exact ⟨its, member, same⟩
  -- A page is pinned or waited for, never both.
  have disjoint (page : RankPage) (inPins : page ∈ plan.pins.toList.map (·.1))
      (inRestores : page ∈ plan.restores.toList.map (·.1)) : False := by
    obtain ⟨_, isPin⟩ := mem_keys.mp inPins
    obtain ⟨_, isRestore⟩ := mem_keys.mp inRestores
    obtain ⟨_, first, firstMember, pinned, firstPage⟩ := pinPages isPin
    obtain ⟨second, secondMember, isWaiting, secondPage, _⟩ := restorePages isRestore
    rw [firstPage] at secondPage
    obtain rfl := coherent.restoreSound.page_unique secondMember firstMember (RankPage.mk.inj secondPage).2
    rw [pinned] at isWaiting
    cases isWaiting
  obtain ⟨middle, unpinned, ranPins, actsPins, pinsChanged, pinsKept⟩ := forM_acts (commitUnpin counter)
    (fun count before => { before with pins := before.pins - count })
    (fun count before => count ≠ 0 ∧ count ≤ before.pins) (commitUnpin_acts room) plan.pins.toList (keys_nodup _) sound (coherent.pins_ready planned) (fun rank => by have := below rank; omega)
  obtain ⟨s', aborted, ranRestores, actsRestores, restoresChanged, restoresKept⟩ := forM_acts (commitAbort counter)
    (fun _ before => { before with restore := none })
    (fun identity before => before.restore = some ⟨identity.1, identity.2⟩) (commitAbort_acts room) plan.restores.toList (keys_nodup _) actsPins.sound
    (fun entry listed => by
      rw [actsPins.leases_eq, pinsKept entry.1 fun inPins => disjoint _ inPins (List.mem_map_of_mem listed)]
      exact coherent.restores_ready planned entry listed)
    (fun rank => by
      have := below rank
      have := actsPins.generation_le rank
      omega)
  have effect : aborted = fun rank key => (leasesOf s rank key).map (undone restore.pages key) := by
    funext rank key
    have own := coherent.restoreSound
    by_cases inPins : (⟨rank, key⟩ : RankPage) ∈ plan.pins.toList.map (·.1)
    · have same := restoresKept ⟨rank, key⟩ fun inRestores => disjoint _ inPins inRestores
      obtain ⟨count, isPin⟩ := mem_keys.mp inPins
      have changed := pinsChanged (⟨rank, key⟩, count) (mem_toList_iff.mpr isPin)
      obtain ⟨rfl, page, member, pinned, isPage⟩ := pinPages isPin
      obtain ⟨rfl, rfl⟩ := RankPage.mk.inj isPage
      rw [same, actsPins.leases_eq, changed, own.undone_pinned member pinned]
    by_cases inRestores : (⟨rank, key⟩ : RankPage) ∈ plan.restores.toList.map (·.1)
    · obtain ⟨identity, isRestore⟩ := mem_keys.mp inRestores
      have changed := restoresChanged (⟨rank, key⟩, identity) (mem_toList_iff.mpr isRestore)
      obtain ⟨page, member, waiting, isPage, _⟩ := restorePages isRestore
      rw [changed, actsPins.leases_eq, pinsKept _ inPins]
      obtain ⟨rfl, rfl⟩ := RankPage.mk.inj isPage
      rw [own.undone_waiting member waiting]
    · rw [restoresKept _ inRestores, actsPins.leases_eq, pinsKept _ inPins]
      cases leased : leasesOf s rank key with
      | none => rfl
      | some its =>
        have here {page : PendingPage} (member : page ∈ restore.pages) (same : page.key = key) :
            (⟨rank, key⟩ : RankPage) = ⟨page.rank, page.key⟩ := by
          have pageSound := own.page_sound member
          rw [coherent.owner (same ▸ pageSound.indexed) leased, pageSound.rank_eq, same]
        rw [Option.map_some, undone_free]
        · rintro ⟨page, member, pinned, same⟩
          exact inPins (mem_keys.mpr ⟨1, (planned.pins _ 1).mpr (.inr ⟨rfl, page, member, pinned, here member same⟩)⟩)
        · rintro ⟨page, member, waiting, same⟩
          exact inRestores (mem_keys.mpr ⟨_, (planned.restores _ _).mpr
            (.inr ⟨page, member, waiting, here member same, rfl⟩)⟩)
  refine ⟨s', ?_, effect ▸ (actsPins.trans actsRestores).mono (by omega)⟩
  show (plan.pins.toList.forM (commitUnpin counter) >>= fun _ => plan.restores.toList.forM (commitAbort counter)) s = _
  rw [Action.bind_ok ranPins, ranRestores]

include coherent in
theorem Coherent.rollback (sound : RanksSound s) (room : Room counter bound)
    (below : ∀ rank, (s.ranks rank).stateGeneration + 2 * restore.pages.length ≤ bound) :
    ∃ s', rollbackPending counter restore s = (.ok (), s') ∧
      Acts (2 * restore.pages.length) (fun rank key => (leasesOf s rank key).map (undone restore.pages key)) s s' := by
  obtain ⟨plan, isPlan, planned⟩ := coherent.planRollback sound coherent.restoreSound.id_eq
  obtain ⟨s', ran, acts⟩ := coherent.commitRollback sound room planned below
  have read : (Action.reads fun s => s.planPendingRollback restore : Restores PendingRollbackPlan) s = (.ok plan, s) := by
    show (s.planPendingRollback restore, s) = _
    rw [isPlan]
  refine ⟨s', ?_, acts⟩
  unfold rollbackPending
  rw [Action.bind_ok read, ran]

end Rollback

end Glmaxx.Proof.Prefix
