import Glmaxx.Proof.Residency.Runs

namespace Glmaxx.Proof.Residency
open Std Library Cache Cache.ResidencyManager

variable {m m₁ m' : ResidencyManager} {record : TierRecord} {records records' rest : List TierRecord}
  {keys : List Bytes32} {plan plan' : NvmeRegistrationPlan} {entry : ResidentEntry}

def Accepts (m : ResidencyManager) (record : TierRecord) : Prop :=
  ∃ action, m.nvmeRegistrationAction record = .ok action

section Planning

theorem planRecords_cons : m.planRecords (record :: rest) keys plan =
    m.planRecords [record] keys plan >>= m.planRecords rest (record.pageKey :: keys) := by
  simp only [planRecords]
  split
  · rfl
  cases m.nvmeRegistrationAction record with
  | error failure => rfl
  | ok action =>
    cases action with
    | retain => rfl
    | insert => rfl
    | replace => cases m.dropReplaced record plan.hbmBytes plan.dramBytes <;> rfl

theorem dropReplaced_total {hbm dram bytes : Nat} (found : m.entries[record.pageKey]? = some entry)
    (counted : entryBytes entry.record = .ok bytes) (settled : entry.residency ≠ .restoring)
    (hbm_le : hbmShare record.pageKey entry ≤ hbm) (dram_le : dramShare record.pageKey entry ≤ dram) :
    ∃ left, m.dropReplaced record hbm dram = .ok left := by
  unfold hbmShare at hbm_le
  unfold dramShare at dram_le
  rw [← entryBytes_eq counted] at hbm_le dram_le
  cases residency : entry.residency with
  | hbm =>
    simp only [residency, if_true] at hbm_le
    simp [dropReplaced, found, okOr, counted, residency, checkedSub_of_le hbm_le, bind, Except.bind]
  | dram =>
    simp only [residency, if_true] at dram_le
    simp [dropReplaced, found, okOr, counted, residency, checkedSub_of_le dram_le, bind, Except.bind]
  | nvme => simp [dropReplaced, found, okOr, counted, residency, bind, Except.bind]
  | restoring => exact absurd residency settled

theorem planRecords_single_total (fits : Fits m plan) (accepts : Accepts m record) (fresh : record.pageKey ∉ keys)
    (unplanned : record.pageKey ∉ plan.records.map (·.pageKey)) :
    ∃ plan', m.planRecords [record] keys plan = .ok plan' := by
  obtain ⟨action, isAction⟩ := accepts
  simp only [planRecords, if_neg fresh, isAction]
  cases action with
  | retain | insert => exact ⟨_, rfl⟩
  | replace =>
    obtain ⟨entry, found, replaceable, bytes, counted⟩ := nvmeRegistrationAction_replace isAction
    have inside : (insertRecords m.entries plan.records)[record.pageKey]? = some entry := by
      rw [getElem?_insertRecords_of_not_mem unplanned, found]
    obtain ⟨left, dropped⟩ := dropReplaced_total found counted replaceable.settled
      (fits.hbm_eq ▸ le_total hbmShare inside) (fits.dram_eq ▸ le_total dramShare inside)
    exact ⟨_, bind_eq_ok.mpr ⟨.replace, rfl, bind_eq_ok.mpr ⟨left, dropped, rfl⟩⟩⟩

theorem planRecords_total (fits : Fits m plan) (seen : ∀ key ∈ plan.records.map (·.pageKey), key ∈ keys)
    (accepts : ∀ record ∈ records, Accepts m record) (fresh : ∀ record ∈ records, record.pageKey ∉ keys)
    (distinct : (records.map (·.pageKey)).Nodup) : ∃ plan', m.planRecords records keys plan = .ok plan' := by
  induction records generalizing keys plan with
  | nil => exact ⟨plan, rfl⟩
  | cons record rest ih =>
    rw [List.map_cons, List.nodup_cons] at distinct
    have first := fresh record (List.mem_cons_self ..)
    obtain ⟨plan₁, planned⟩ := planRecords_single_total fits (accepts record (List.mem_cons_self ..)) first
      fun member => first (seen _ member)
    have plans := planRecords_plans seen planned
    have seen₁ : ∀ key ∈ plan₁.records.map (·.pageKey), key ∈ record.pageKey :: keys := by
      intro key member
      rw [plans.records_eq, List.map_append, List.mem_append] at member
      rcases member with old | new
      · exact List.mem_cons_of_mem _ (seen key old)
      · obtain ⟨other, isOther, rfl⟩ := List.mem_map.mp new
        rw [List.mem_singleton.mp (List.mem_of_mem_filter isOther)]
        exact List.mem_cons_self ..
    have fresh₁ : ∀ other ∈ rest, other.pageKey ∉ record.pageKey :: keys := by
      intro other member again
      rcases List.mem_cons.mp again with same | old
      · exact distinct.1 (same ▸ List.mem_map_of_mem member)
      · exact fresh other (List.mem_cons_of_mem _ member) old
    obtain ⟨plan', rest_planned⟩ := ih (plans.fits fits) seen₁
      (fun other member => accepts other (List.mem_cons_of_mem _ member)) fresh₁ distinct.2
    exact ⟨plan', by rw [planRecords_cons, planned]; exact rest_planned⟩

end Planning

section Registering

/-- The records of a list that change the manager. -/
def taken (m : ResidencyManager) (records : List TierRecord) : List TierRecord :=
  records.filter fun record => !retained m record

def registerPlanned (records : List TierRecord) : Reside Unit := do
  let plan ← .reads fun m => m.planNvmeRegistrations records
  commitNvmeRegistrations .u64 plan

/-- What registering `records` makes of a manager, in one batch or one by one. -/
structure Registers (records : List TierRecord) (m m' : ResidencyManager) : Prop where
  accepts : ∀ record ∈ records, Accepts m record
  entries_eq : m'.entries = insertRecords m.entries (taken m records)
  sound : Sound m'
  generation_le : m'.stateGeneration ≤ m.stateGeneration + (taken m records).length

theorem registerPlanned_registers (sound : Sound m) (reply : (registerPlanned records m).1 = .ok ()) :
    Registers records m (registerPlanned records m).2 := by
  have ends : Action.Ends (registerPlanned records) m (fun _ m' => Registers records m m') fun _ _ => True := by
    refine Action.Ends.reads (fun plan planned => ?_) fun _ _ => trivial
    refine (commitNvmeRegistrations_ends .u64 plan m).mono (fun _ m' commits => ?_) fun _ _ _ => trivial
    have plans := planNvmeRegistrations_plans planned
    have records_eq : plan.records = taken m records := plans.records_eq
    refine ⟨plans.accepted, ?_, commits.sound sound (plans.fits (Fits.nil sound _)), ?_⟩
    · rw [commits.entries_eq, records_eq]
    · rw [← records_eq]
      rcases commits.generation with ⟨_, same⟩ | ⟨some, next⟩
      · omega
      · have := List.length_pos_of_ne_nil some
        omega
  cases outcome : registerPlanned records m with
  | mk result m' =>
    rw [outcome] at reply
    obtain rfl : result = .ok () := reply
    exact ends.value outcome

theorem registerPlanned_total (sound : Sound m) (distinct : (records.map (·.pageKey)).Nodup)
    (bound : m.stateGeneration + (taken m records).length < 2 ^ 64) (accepts : ∀ record ∈ records, Accepts m record) :
    (registerPlanned records m).1 = .ok () := by
  obtain ⟨plan, planned⟩ : ∃ plan, m.planNvmeRegistrations records = .ok plan :=
    planRecords_total (Fits.nil sound _) (by simp) accepts (by simp) distinct
  have plans := planNvmeRegistrations_plans planned
  have records_eq : plan.records = taken m records := plans.records_eq
  have valid : m.validateNvmeRegistrationPlan plan = .ok () := if_neg (not_not.mpr plans.generation_eq)
  obtain ⟨next, advanced⟩ : ∃ next, m.generationAfter .u64 plan = .ok next := by
    unfold generationAfter
    split
    · exact ⟨_, rfl⟩
    next some =>
      have := List.length_pos_of_ne_nil (records_eq ▸ some)
      exact ⟨_, okOr_eq_ok.mpr (if_pos (by omega))⟩
  have read : (Action.reads fun m => m.planNvmeRegistrations records : Reside _) m = (.ok plan, m) :=
    Action.reads_ok planned
  have commits : ∃ m', commitNvmeRegistrations .u64 plan m = (.ok (), m') :=
    ⟨_, Action.updates_ok (bind_eq_ok.mpr ⟨_, valid, bind_eq_ok.mpr ⟨next, advanced, rfl⟩⟩)⟩
  obtain ⟨m', committed⟩ := commits
  unfold registerPlanned
  rw [Action.bind_ok read, committed]

theorem nvmeRegistrationAction_congr (same : m'.entries[record.pageKey]? = m.entries[record.pageKey]?) :
    m'.nvmeRegistrationAction record = m.nvmeRegistrationAction record := by
  unfold nvmeRegistrationAction
  rw [same]

theorem taken_cons (m : ResidencyManager) (record : TierRecord) (rest : List TierRecord) :
    taken m (record :: rest) = taken m [record] ++ taken m rest :=
  List.filter_append [record] rest

/-- Registering one record leaves what becomes of the records of other pages as it was. -/
theorem Registers.later (registers : Registers [record] m m₁) (apart : record.pageKey ∉ rest.map (·.pageKey)) :
    (∀ other ∈ rest, m₁.nvmeRegistrationAction other = m.nvmeRegistrationAction other) ∧
      taken m₁ rest = taken m rest := by
  have same : ∀ other ∈ rest, m₁.nvmeRegistrationAction other = m.nvmeRegistrationAction other := by
    intro other member
    apply nvmeRegistrationAction_congr
    rw [registers.entries_eq]
    apply getElem?_insertRecords_of_not_mem
    intro again
    obtain ⟨found, isFound, key⟩ := List.mem_map.mp again
    rw [List.mem_singleton.mp (List.mem_of_mem_filter isFound)] at key
    exact apart (key ▸ List.mem_map_of_mem member)
  refine ⟨same, List.filter_congr fun other member => ?_⟩
  rw [retained, retained, same other member]

theorem Registers.cons (first : Registers [record] m m₁) (later : Registers rest m₁ m')
    (apart : record.pageKey ∉ rest.map (·.pageKey)) : Registers (record :: rest) m m' := by
  obtain ⟨same, taken_eq⟩ := first.later apart
  refine ⟨fun other member => ?_, ?_, later.sound, ?_⟩
  · rcases List.mem_cons.mp member with rfl | later'
    · exact first.accepts other (List.mem_singleton_self other)
    · obtain ⟨action, isAction⟩ := later.accepts other later'
      exact ⟨action, same other later' ▸ isAction⟩
  · rw [later.entries_eq, first.entries_eq, taken_eq, taken_cons m record rest]
    unfold insertRecords
    rw [List.foldl_append]
  · have := first.generation_le
    have := later.generation_le
    rw [taken_eq] at this
    rw [taken_cons m record rest, List.length_append]
    omega

theorem registerEach_cons (reply : (registerPlanned [record] m).1 = .ok ()) :
    (record :: rest).forM (registerNvme .u64) m = rest.forM (registerNvme .u64) (registerPlanned [record] m).2 := by
  have one : registerNvme .u64 record m = (.ok (), (registerPlanned [record] m).2) := Prod.ext reply rfl
  exact Action.bind_ok one

theorem registerEach_registers (sound : Sound m) (distinct : (records.map (·.pageKey)).Nodup)
    (reply : (records.forM (registerNvme .u64) m).1 = .ok ()) :
    Registers records m (records.forM (registerNvme .u64) m).2 := by
  induction records generalizing m with
  | nil => exact ⟨by simp, rfl, sound, Nat.le_refl _⟩
  | cons record rest ih =>
    rw [List.map_cons, List.nodup_cons] at distinct
    obtain ⟨_, one, _⟩ := Action.bind_reply reply
    have first := registerPlanned_registers sound one
    rw [registerEach_cons one] at reply ⊢
    exact first.cons (ih first.sound distinct.2 reply) distinct.1

theorem registerEach_total (sound : Sound m) (distinct : (records.map (·.pageKey)).Nodup)
    (bound : m.stateGeneration + (taken m records).length < 2 ^ 64) (accepts : ∀ record ∈ records, Accepts m record) :
    (records.forM (registerNvme .u64) m).1 = .ok () := by
  induction records generalizing m with
  | nil => rfl
  | cons record rest ih =>
    rw [List.map_cons, List.nodup_cons] at distinct
    rw [taken_cons m record rest, List.length_append] at bound
    have one : (registerPlanned [record] m).1 = .ok () :=
      registerPlanned_total sound (List.nodup_singleton record.pageKey) (by omega)
        (List.forall_mem_singleton.mpr (accepts record (List.mem_cons_self ..)))
    have first := registerPlanned_registers sound one
    obtain ⟨same, taken_eq⟩ := first.later distinct.1
    rw [registerEach_cons one]
    have := first.generation_le
    refine ih first.sound distinct.2 (by rw [taken_eq]; omega) fun other member => ?_
    obtain ⟨action, isAction⟩ := accepts other (List.mem_cons_of_mem _ member)
    exact ⟨action, same other member ▸ isAction⟩

theorem insertRecords_perm (entries : ExtTreeMap Bytes32 ResidentEntry) (perm : records.Perm records')
    (distinct : (records.map (·.pageKey)).Nodup) : insertRecords entries records = insertRecords entries records' := by
  refine perm.foldl_eq' (fun first isFirst second isSecond entries => ?_) entries
  by_cases same : first = second
  · rw [same]
  have apart : first.pageKey ≠ second.pageKey := fun key =>
    same (List.inj_on_of_nodup_map distinct isFirst isSecond key)
  apply ExtTreeMap.ext_getElem?
  intro key
  grind

theorem Registers.unique (registers : Registers records m m₁) (registers' : Registers records' m m')
    (perm : records'.Perm records) (distinct : (records.map (·.pageKey)).Nodup) :
    m'.entries = m₁.entries ∧ m'.hbmBytes = m₁.hbmBytes ∧ m'.dramBytes = m₁.dramBytes := by
  have entries_eq : m'.entries = m₁.entries := by
    rw [registers'.entries_eq, registers.entries_eq]
    exact (insertRecords_perm m.entries (perm.filter _).symm (distinct.sublist (List.filter_sublist.map _))).symm
  refine ⟨entries_eq, ?_, ?_⟩
  · rw [registers'.sound.hbm_eq, registers.sound.hbm_eq, entries_eq]
  · rw [registers'.sound.dram_eq, registers.sound.dram_eq, entries_eq]

/-- A batch of records of distinct pages is registered as its records are one by one, in any order. -/
theorem registerPlanned_eq_each {config : ResidencyConfig} {start : ResidencyManager}
    (created : ResidencyManager.new config = .ok start) (calls : List ResidencyCall)
    (records records' : List TierRecord) (distinct : (records.map (·.pageKey)).Nodup)
    (perm : records'.Perm records) :
    let m := (Managed.run .u64 ⟨start, []⟩ calls).manager
    let batch := registerPlanned records m
    let each := records'.forM (registerNvme .u64) m
    m.stateGeneration + (taken m records).length < 2 ^ 64 →
      (batch.1 = .ok () ↔ each.1 = .ok ()) ∧
      (batch.1 = .ok () → batch.2.entries = each.2.entries ∧ batch.2.hbmBytes = each.2.hbmBytes ∧
        batch.2.dramBytes = each.2.dramBytes) := by
  intro m batch each bound
  have sound : Sound m := (run_keeps .u64 ⟨new_sound created, by simp⟩ calls).1.sound
  have distinct' : (records'.map (·.pageKey)).Nodup := (perm.map _).nodup_iff.mpr distinct
  have bound' : m.stateGeneration + (taken m records').length < 2 ^ 64 := by
    unfold taken
    rw [(perm.filter _).length_eq]
    exact bound
  have success : batch.1 = .ok () ↔ each.1 = .ok () := by
    constructor
    · intro reply
      have registers := registerPlanned_registers sound reply
      exact registerEach_total sound distinct' bound' fun record member =>
        registers.accepts record (perm.mem_iff.mp member)
    · intro reply
      have registers := registerEach_registers sound distinct' reply
      exact registerPlanned_total sound distinct bound fun record member =>
        registers.accepts record (perm.mem_iff.mpr member)
  refine ⟨success, fun reply => ?_⟩
  exact (registerEach_registers sound distinct' (success.mp reply)).unique (registerPlanned_registers sound reply)
    perm.symm distinct'

theorem samplePages_batch : let start : ResidencyManager := ⟨⟨3000000, 3000000⟩, ∅, 0, 0, 0, 0⟩
    let m := (Managed.run .u64 ⟨start, []⟩ (sampleEviction.take 5)).manager
    (registerPlanned [sampleRecord 1, sampleRecord 3] m).1 = .ok () ∧
      ([sampleRecord 3, sampleRecord 1].forM (registerNvme .u64) m).1 = .ok () := by
  intro start m
  have created : ResidencyManager.new ⟨3000000, 3000000⟩ = .ok start := by
    unfold ResidencyManager.new
    rw [if_neg (by decide)]
  have reply : (registerPlanned [sampleRecord 1, sampleRecord 3] m).1 = .ok () := by decide
  have same := (registerPlanned_eq_each created (sampleEviction.take 5) [sampleRecord 1, sampleRecord 3]
    [sampleRecord 3, sampleRecord 1] (by decide) (List.Perm.swap ..) (by decide)).1
  exact ⟨reply, same.mp reply⟩

end Registering

end Glmaxx.Proof.Residency
