import Glmaxx.Proof.Residency.Entries

namespace Glmaxx.Proof.Residency
open Std Library Cache Cache.ResidencyManager

variable {entries : ExtTreeMap Bytes32 ResidentEntry} {key : Bytes32} {entry : ResidentEntry}

variable {m m' : ResidencyManager} {record : TierRecord} {records : List TierRecord} {counter : Counter}
  {plan plan' : NvmeRegistrationPlan} {keys : List Bytes32}

section Action

theorem nvmeRegistrationAction_valid {action : NvmeRegistrationAction}
    (ok : m.nvmeRegistrationAction record = .ok action) : record.validate = .ok () ∧ record.tier = .nvme := by
  unfold nvmeRegistrationAction at ok
  split at ok
  · cases ok
  next valid =>
  split at ok
  · cases ok
  next tier => exact ⟨valid, not_not.mp tier⟩

theorem nvmeRegistrationAction_insert (ok : m.nvmeRegistrationAction record = .ok .insert) :
    m.entries[record.pageKey]? = none := by
  unfold nvmeRegistrationAction at ok
  split at ok
  · cases ok
  split at ok
  · cases ok
  split at ok
  next absent => exact absent
  next =>
    split at ok
    · cases ok
    · cases ok
    · cases ok
    · split at ok
      · cases ok
      split at ok
      · cases ok
      split at ok
      · cases ok
      obtain ⟨_, _, ok⟩ := bind_eq_ok.mp ok
      cases ok

/-- What a page must be like to be replaced by a record with a draft. -/
structure Replaceable (entry : ResidentEntry) (record : TierRecord) : Prop where
  upgrade : entry.record.relationTo record = .ok .mtpUpgrade
  newer : entry.record.generation < record.generation
  unpinned : entry.pinCount = 0
  settled : entry.residency ≠ .restoring

theorem nvmeRegistrationAction_replace (ok : m.nvmeRegistrationAction record = .ok .replace) :
    ∃ entry, m.entries[record.pageKey]? = some entry ∧ Replaceable entry record ∧
      ∃ bytes, entryBytes entry.record = .ok bytes := by
  unfold nvmeRegistrationAction at ok
  split at ok
  · cases ok
  split at ok
  · cases ok
  split at ok
  · cases ok
  next entry found =>
    refine ⟨entry, found, ?_⟩
    split at ok
    · cases ok
    · cases ok
    · cases ok
    next upgrade =>
      split at ok
      · cases ok
      next newer =>
      split at ok
      · cases ok
      next unpinned =>
      split at ok
      · cases ok
      next settled =>
        obtain ⟨bytes, counted, _⟩ := bind_eq_ok.mp ok
        exact ⟨⟨upgrade, UInt64.not_le.mp newer, not_not.mp unpinned, settled⟩, bytes, counted⟩

end Action

section Plan

structure Fits (m : ResidencyManager) (plan : NvmeRegistrationPlan) : Prop where
  each : ∀ record ∈ plan.records, record.validate = .ok () ∧ record.tier = .nvme
  hbm_eq : plan.hbmBytes = total (insertRecords m.entries plan.records) hbmShare
  hbm_le : plan.hbmBytes ≤ m.config.hbmBytes.toNat
  dram_eq : plan.dramBytes = total (insertRecords m.entries plan.records) dramShare
  dram_le : plan.dramBytes ≤ m.config.dramBytes.toNat

theorem insertRecords_snoc (entries : ExtTreeMap Bytes32 ResidentEntry) (records : List TierRecord)
    (record : TierRecord) : insertRecords entries (records ++ [record]) =
      (insertRecords entries records).insert record.pageKey (registered record) := by
  unfold insertRecords
  rw [List.foldl_append]
  rfl

theorem getElem?_insertRecords_of_not_mem
    (absent : key ∉ records.map (·.pageKey)) : (insertRecords entries records)[key]? = entries[key]? := by
  induction records using List.reverseRecOn with
  | nil => rfl
  | append_singleton records record ih =>
    rw [List.map_append, List.mem_append, not_or, List.map_singleton, List.mem_singleton] at absent
    rw [insertRecords_snoc, getElem?_insert_ne absent.2, ih absent.1]

theorem dropReplaced_eq {hbm dram hbm' dram' : Nat}
    (found : m.entries[record.pageKey]? = some entry) (ok : m.dropReplaced record hbm dram = .ok (hbm', dram')) :
    hbm = hbm' + hbmShare record.pageKey entry ∧ dram = dram' + dramShare record.pageKey entry := by
  obtain ⟨same, isSame, ok⟩ := bind_eq_ok.mp ok
  have isSame := okOr_eq_ok.mp isSame
  rw [found] at isSame
  cases isSame
  obtain ⟨bytes, counted, ok⟩ := bind_eq_ok.mp ok
  have bytes_eq := entryBytes_eq counted
  cases residency : entry.residency with
  | hbm | dram =>
    rw [residency] at ok
    obtain ⟨rest, less, ok⟩ := bind_eq_ok.mp ok
    obtain ⟨enough, rest_eq⟩ := checkedSub_some (okOr_eq_ok.mp less)
    cases ok
    simp only [hbmShare, dramShare, residency, if_true, reduceCtorEq, if_false]
    omega
  | nvme =>
    rw [residency] at ok
    cases ok
    simp [hbmShare, dramShare, residency]
  | restoring =>
    rw [residency] at ok
    cases ok

theorem Fits.snoc (fits : Fits m plan) (fresh : record.pageKey ∉ plan.records.map (·.pageKey))
    (valid : record.validate = .ok () ∧ record.tier = .nvme) (records_eq : plan'.records = plan.records ++ [record])
    (hbm : plan.hbmBytes = plan'.hbmBytes + m.entries[record.pageKey]?.elim 0 (hbmShare record.pageKey))
    (dram : plan.dramBytes = plan'.dramBytes + m.entries[record.pageKey]?.elim 0 (dramShare record.pageKey)) :
    Fits m plan' := by
  have agree : ∀ other, other ≠ record.pageKey →
      (insertRecords m.entries plan'.records)[other]? = (insertRecords m.entries plan.records)[other]? := by
    intro other different
    rw [records_eq, insertRecords_snoc, getElem?_insert_ne different]
  have here : (insertRecords m.entries plan'.records)[record.pageKey]? = some (registered record) := by
    rw [records_eq, insertRecords_snoc]
    exact ExtTreeMap.getElem?_insert_self
  have hbmTotal := total_agree hbmShare record.pageKey agree
  have dramTotal := total_agree dramShare record.pageKey agree
  rw [here, getElem?_insertRecords_of_not_mem fresh] at hbmTotal dramTotal
  have hbm_le := fits.hbm_le
  have dram_le := fits.dram_le
  rw [fits.hbm_eq] at hbm
  rw [fits.dram_eq] at dram
  rw [fits.hbm_eq] at hbm_le
  rw [fits.dram_eq] at dram_le
  simp only [Option.elim_some, hbmShare, dramShare, registered, reduceCtorEq, if_false] at hbmTotal dramTotal hbm dram
  refine ⟨?_, by omega, by omega, by omega, by omega⟩
  intro other member
  rw [records_eq] at member
  rcases List.mem_append.mp member with old | new
  · exact fits.each other old
  · rw [List.mem_singleton.mp new]
    exact valid

def retained (m : ResidencyManager) (record : TierRecord) : Bool :=
  match m.nvmeRegistrationAction record with
  | .ok .retain => true
  | _ => false

structure Plans (m : ResidencyManager) (records : List TierRecord) (plan plan' : NvmeRegistrationPlan) : Prop where
  records_eq : plan'.records = plan.records ++ records.filter fun record => !retained m record
  generation_eq : plan'.expectedStateGeneration = plan.expectedStateGeneration
  accepted : ∀ record ∈ records, ∃ action, m.nvmeRegistrationAction record = .ok action
  fits : Fits m plan → Fits m plan'

theorem planRecords_plans (seen : ∀ key ∈ plan.records.map (·.pageKey), key ∈ keys)
    (ok : m.planRecords records keys plan = .ok plan') : Plans m records plan plan' := by
  induction records generalizing keys plan with
  | nil =>
    cases ok
    exact ⟨by simp, rfl, by simp, fun fits => fits⟩
  | cons record rest ih =>
    unfold planRecords at ok
    split at ok
    · cases ok
    next fresh =>
    obtain ⟨action, isAction, ok⟩ := bind_eq_ok.mp ok
    have valid := nvmeRegistrationAction_valid isAction
    have unplanned : record.pageKey ∉ plan.records.map (·.pageKey) := fun member => fresh (seen _ member)
    have seenNext : ∀ key ∈ (plan.records ++ [record]).map (·.pageKey), key ∈ record.pageKey :: keys := by
      intro key member
      rw [List.map_append, List.mem_append] at member
      rcases member with old | new
      · exact List.mem_cons_of_mem _ (seen key old)
      · rw [List.map_singleton, List.mem_singleton] at new
        exact new ▸ List.mem_cons_self ..
    have accepted (tail : ∀ other ∈ rest, ∃ action, m.nvmeRegistrationAction other = .ok action) :
        ∀ other ∈ record :: rest, ∃ action, m.nvmeRegistrationAction other = .ok action := by
      intro other member
      rcases List.mem_cons.mp member with rfl | later
      · exact ⟨action, isAction⟩
      · exact tail other later
    cases action with
    | retain =>
      have plans := ih (fun key member => List.mem_cons_of_mem _ (seen key member)) ok
      have isRetained : retained m record = true := by rw [retained, isAction]
      refine ⟨?_, plans.generation_eq, accepted plans.accepted, plans.fits⟩
      rw [plans.records_eq, List.filter_cons_of_neg (by simp [isRetained])]
    | insert =>
      have plans := ih seenNext ok
      have notRetained : retained m record = false := by rw [retained, isAction]
      refine ⟨?_, plans.generation_eq, accepted plans.accepted, fun fits => plans.fits ?_⟩
      · rw [plans.records_eq, List.filter_cons_of_pos (by simp [notRetained]), List.append_assoc]
        rfl
      · have absent := nvmeRegistrationAction_insert isAction
        exact fits.snoc unplanned valid rfl (by rw [absent]; rfl) (by rw [absent]; rfl)
    | replace =>
      obtain ⟨⟨hbm, dram⟩, dropped, ok⟩ := bind_eq_ok.mp ok
      have plans := ih seenNext ok
      have notRetained : retained m record = false := by rw [retained, isAction]
      refine ⟨?_, plans.generation_eq, accepted plans.accepted, fun fits => plans.fits ?_⟩
      · rw [plans.records_eq, List.filter_cons_of_pos (by simp [notRetained]), List.append_assoc]
        rfl
      · obtain ⟨entry, found, _⟩ := nvmeRegistrationAction_replace isAction
        obtain ⟨hbm_eq, dram_eq⟩ := dropReplaced_eq found dropped
        exact fits.snoc unplanned valid rfl (by rw [found]; exact hbm_eq) (by rw [found]; exact dram_eq)

theorem Fits.nil (sound : Sound m) (generation : Nat) : Fits m ⟨[], m.hbmBytes, m.dramBytes, generation⟩ :=
  ⟨by simp, sound.hbm_eq, sound.hbm_le, sound.dram_eq, sound.dram_le⟩

theorem planNvmeRegistrations_plans (ok : m.planNvmeRegistrations records = .ok plan) :
    Plans m records ⟨[], m.hbmBytes, m.dramBytes, m.stateGeneration⟩ plan :=
  planRecords_plans (by simp) ok

end Plan

section Commit

structure Commits (plan : NvmeRegistrationPlan) (m m' : ResidencyManager) : Prop where
  current : plan.expectedStateGeneration = m.stateGeneration
  entries_eq : m'.entries = insertRecords m.entries plan.records
  config_eq : m'.config = m.config
  hbm_eq : m'.hbmBytes = plan.hbmBytes
  dram_eq : m'.dramBytes = plan.dramBytes
  generation : plan.records = [] ∧ m'.stateGeneration = m.stateGeneration ∨
    plan.records ≠ [] ∧ m'.stateGeneration = m.stateGeneration + 1

theorem commitNvmeRegistrations_ends (counter : Counter) (plan : NvmeRegistrationPlan) (m : ResidencyManager) :
    Action.Ends (commitNvmeRegistrations counter plan) m (fun _ m' => Commits plan m m') (fun _ m' => m' = m) := by
  refine Action.Ends.updates (fun _ m' ran => ?_) fun _ _ => rfl
  obtain ⟨_, valid, ran⟩ := bind_eq_ok.mp ran
  obtain ⟨next, advanced, ran⟩ := bind_eq_ok.mp ran
  cases ran
  have current : plan.expectedStateGeneration = m.stateGeneration := by
    unfold validateNvmeRegistrationPlan at valid
    split at valid
    · cases valid
    next same => exact not_not.mp same
  refine ⟨current, rfl, rfl, rfl, rfl, ?_⟩
  unfold generationAfter at advanced
  split at advanced
  next none =>
    cases advanced
    exact .inl ⟨none, rfl⟩
  next some => exact .inr ⟨some, nextStateGeneration_eq advanced⟩

theorem insertRecords_cases (found : (insertRecords entries records)[key]? = some entry) :
    (∃ record ∈ records, record.pageKey = key ∧ entry = registered record) ∨ entries[key]? = some entry := by
  induction records using List.reverseRecOn with
  | nil => exact .inr found
  | append_singleton records record ih =>
    rw [insertRecords_snoc, getElem?_insert_ite] at found
    split at found
    next here => exact .inl ⟨record, by simp, here.symm, (Option.some.inj found).symm⟩
    next =>
      rcases ih found with ⟨other, member, isKey, same⟩ | old
      · exact .inl ⟨other, by simp [member], isKey, same⟩
      · exact .inr old

theorem Commits.sound (commits : Commits plan m m') (sound : Sound m) (fits : Fits m plan) : Sound m' := by
  refine ⟨?_, ?_, ?_, ?_, ?_⟩
  · intro key entry found
    rw [commits.entries_eq] at found
    rcases insertRecords_cases found with ⟨record, member, isKey, rfl⟩ | old
    · obtain ⟨valid, tier⟩ := fits.each record member
      exact ⟨valid, tier, isKey, nofun, by simp [registered], by simp [registered], nofun⟩
    · exact sound.each key entry old
  · rw [commits.hbm_eq, commits.entries_eq]
    exact fits.hbm_eq
  · rw [commits.hbm_eq, commits.config_eq]
    exact fits.hbm_le
  · rw [commits.dram_eq, commits.entries_eq]
    exact fits.dram_eq
  · rw [commits.dram_eq, commits.config_eq]
    exact fits.dram_le

theorem registerNvme_ends (counter : Counter) (record : TierRecord) (m : ResidencyManager) :
    Action.Ends (registerNvme counter record) m
      (fun _ m' => ∃ plan, m.planNvmeRegistrations [record] = .ok plan ∧ Commits plan m m') (fun _ m' => m' = m) := by
  refine Action.Ends.reads (fun plan planned => ?_) fun _ _ => rfl
  exact (commitNvmeRegistrations_ends counter plan m).mono (fun _ _ commits => ⟨plan, planned, commits⟩)
    fun _ _ same => same

end Commit

end Glmaxx.Proof.Residency
