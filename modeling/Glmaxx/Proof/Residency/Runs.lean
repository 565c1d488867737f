import Glmaxx.Library.Run
import Glmaxx.Proof.Residency.Eviction
import Glmaxx.Proof.Residency.Registration

namespace Glmaxx.Proof.Residency
open Std Library Cache Cache.ResidencyManager

variable {key : Bytes32} {entry entry' : ResidentEntry} {α : Type}

variable {m m' : ResidencyManager} {s : Managed} {counter : Counter} {plan : NvmeRegistrationPlan}

section Steps

/-- A manager moved on: a plan made before is stale now, or nothing it rests on has changed. -/
structure Advances (m m' : ResidencyManager) : Prop where
  sound : Sound m'
  config_eq : m'.config = m.config
  generation : m.stateGeneration < m'.stateGeneration ∨
    m'.stateGeneration = m.stateGeneration ∧ m'.entries = m.entries

theorem Touches.advances (touches : Touches key entry entry' m m') (sound : Sound m') : Advances m m' :=
  ⟨sound, touches.config_eq, .inl (by rw [touches.generation_eq]; exact Nat.lt_succ_self _)⟩

theorem Admits.advances (admits : Admits key entry entry' m m') (sound : Sound m') : Advances m m' :=
  ⟨sound, admits.config_eq, .inl (by rw [admits.generation_eq]; exact Nat.lt_succ_self _)⟩

theorem Commits.advances (commits : Commits plan m m') (sound : Sound m) (fits : Fits m plan) : Advances m m' := by
  refine ⟨commits.sound sound fits, commits.config_eq, ?_⟩
  rcases commits.generation with ⟨empty, same⟩ | ⟨_, next⟩
  · exact .inr ⟨same, by rw [commits.entries_eq, empty]; rfl⟩
  · exact .inl (by omega)

/-- The manager is sound, and so would it be after any plan that can still be committed. -/
structure Keeps (s : Managed) : Prop where
  sound : Sound s.manager
  plans : ∀ plan ∈ s.plans, plan.expectedStateGeneration ≤ s.manager.stateGeneration ∧
    (plan.expectedStateGeneration = s.manager.stateGeneration → Fits s.manager plan)

theorem Keeps.advance {plans : List NvmeRegistrationPlan} (keeps : Keeps s) (advances : Advances s.manager m')
    (subset : ∀ plan ∈ plans, plan ∈ s.plans) : Keeps ⟨m', plans⟩ := by
  refine ⟨advances.sound, fun plan member => ?_⟩
  obtain ⟨bound, fits⟩ := keeps.plans plan (subset plan member)
  rcases advances.generation with later | ⟨same, entries_eq⟩
  · exact ⟨bound.trans later.le, fun current => absurd (current ▸ bound) (Nat.not_le.mpr later)⟩
  · refine ⟨by rw [same]; exact bound, fun current => ?_⟩
    obtain ⟨each, hbm_eq, hbm_le, dram_eq, dram_le⟩ := fits (current.trans same)
    refine ⟨each, ?_, ?_, ?_, ?_⟩
    · rwa [entries_eq]
    · rwa [advances.config_eq]
    · rwa [entries_eq]
    · rwa [advances.config_eq]

def CallEnds (counter : Counter) (entry : ResidencyCall) (s : Managed) : Prop :=
  Action.Ends (Managed.call counter entry) s (fun _ s' => Keeps s' ∧ s'.manager.config = s.manager.config)
    (fun _ s' => Keeps s' ∧ s'.manager = s.manager)

theorem onManager_ends {action : Reside α} {plans : List NvmeRegistrationPlan} (keeps : Keeps s)
    (subset : ∀ plan ∈ plans, plan ∈ s.plans)
    (ends : Action.Ends action s.manager (fun _ m' => Advances s.manager m') (fun _ m' => m' = s.manager)) :
    Action.Ends (Managed.onManager action) { s with plans := plans }
      (fun _ s' => Keeps s' ∧ s'.manager.config = s.manager.config) (fun _ s' => Keeps s' ∧ s'.manager = s.manager) := by
  have inner : Action.Ends (action.within Managed.manager (fun manager s => { s with manager := manager }) id)
      { s with plans := plans } (fun _ s' => Keeps s' ∧ s'.manager.config = s.manager.config)
      (fun _ s' => Keeps s' ∧ s'.manager = s.manager) := by
    refine Action.Ends.within ends (fun _ m' advances => ⟨keeps.advance advances subset, advances.config_eq⟩) ?_
    rintro _ m' rfl
    exact ⟨⟨keeps.sound, fun plan member => keeps.plans plan (subset plan member)⟩, rfl⟩
  exact inner.bind fun _ _ holds => Action.Ends.pure holds

theorem Keeps.onManager {action : Reside α} (keeps : Keeps s)
    (ends : Action.Ends action s.manager (fun _ m' => Advances s.manager m') (fun _ m' => m' = s.manager)) :
    Action.Ends (Managed.onManager action) s
      (fun _ s' => Keeps s' ∧ s'.manager.config = s.manager.config) (fun _ s' => Keeps s' ∧ s'.manager = s.manager) :=
  onManager_ends keeps (fun _ member => member) ends

theorem Keeps.planned {records : List TierRecord} (keeps : Keeps s)
    (planned : s.manager.planNvmeRegistrations records = .ok plan) : Keeps { s with plans := s.plans ++ [plan] } := by
  have plans := planNvmeRegistrations_plans planned
  refine ⟨keeps.sound, fun other member => ?_⟩
  rcases List.mem_append.mp member with old | new
  · exact keeps.plans other old
  · rw [List.mem_singleton.mp new]
    exact ⟨plans.generation_eq.le, fun _ => plans.fits (Fits.nil keeps.sound _)⟩

theorem call_ends (counter : Counter) (keeps : Keeps s) : ∀ entry, CallEnds counter entry s
  | .registerNvme record => by
    refine keeps.onManager ((registerNvme_ends counter record _).mono ?_ fun _ _ same => same)
    rintro _ m' ⟨plan, planned, commits⟩
    exact commits.advances keeps.sound ((planNvmeRegistrations_plans planned).fits (Fits.nil keeps.sound _))
  | .planNvmeRegistrations records => by
    refine Action.Ends.updates (fun _ s' ran => ?_) fun _ _ => ⟨keeps, rfl⟩
    obtain ⟨plan, planned, ran⟩ := bind_eq_ok.mp ran
    cases ran
    exact ⟨keeps.planned planned, rfl⟩
  | .commitNvmeRegistrations index => by
    cases found : s.plans[index]? with
    | none =>
      have refused : Managed.call counter (.commitNvmeRegistrations index) s = (.error .missing, s) := by
        unfold Managed.call
        simp only [found]
      exact Action.Ends.of_error refused ⟨keeps, rfl⟩
    | some plan =>
      have commits : Managed.call counter (.commitNvmeRegistrations index) s =
          Managed.onManager (commitNvmeRegistrations counter plan) { s with plans := s.plans.eraseIdx index } := by
        unfold Managed.call
        simp only [found]
      unfold CallEnds Action.Ends
      rw [commits]
      refine onManager_ends keeps (fun _ member => List.mem_of_mem_eraseIdx member) ?_
      refine (commitNvmeRegistrations_ends counter plan _).mono (fun _ _ commits => ?_) fun _ _ same => same
      exact commits.advances keeps.sound ((keeps.plans plan (List.mem_of_getElem? found)).2 commits.current)
  | .beginRestore requestId key ordinal rank => by
    refine keeps.onManager ((beginRestore_ends counter requestId key ordinal rank _).mono ?_ fun _ _ same => same)
    rintro _ m' ⟨entry, nvme, _, touches, _⟩
    exact touches.advances (touches.sound_restoring keeps.sound nvme)
  | .abortRestore key => by
    refine keeps.onManager ((abortRestore_ends counter key _).mono ?_ fun _ _ same => same)
    rintro _ m' ⟨entry, restoring, touches⟩
    exact touches.advances (touches.sound_abandoned keeps.sound restoring)
  | .abortRestoreIdentity key requestId ordinal => by
    refine keeps.onManager ((abortRestoreIdentity_ends counter key requestId ordinal _).mono ?_ fun _ _ same => same)
    rintro _ m' ⟨entry, restoring, _, touches⟩
    exact touches.advances (touches.sound_abandoned keeps.sound restoring)
  | .completeRestore result => by
    refine keeps.onManager ((completeRestore_ends counter result keeps.sound).mono ?_ fun _ _ same => same)
    rintro _ m' ⟨entry, touch, _, record_eq, _, admits⟩
    exact admits.advances (admits.sound_restored keeps.sound record_eq)
  | .promoteDram key => by
    refine keeps.onManager ((promoteDram_ends counter key keeps.sound).mono ?_ fun _ _ same => same)
    rintro _ m' ⟨entry, touch, resident, admits⟩
    exact admits.advances (admits.sound_promoted keeps.sound resident)
  | .pinHbm key => by
    refine keeps.onManager ((pinHbm_ends counter key _).mono ?_ fun _ _ same => same)
    rintro _ m' ⟨entry, touch, resident, touches⟩
    exact touches.advances (touches.sound_of_same keeps.sound rfl rfl rfl rfl fun _ => resident)
  | .unpin key => by
    refine keeps.onManager ((unpinCount_ends counter key 1 _).mono ?_ fun _ _ same => same)
    rintro _ m' ⟨entry, resident, _, touches⟩
    exact touches.advances (touches.sound_of_same keeps.sound rfl rfl rfl rfl fun _ => resident)
  | .unpinCount key count => by
    refine keeps.onManager ((unpinCount_ends counter key count _).mono ?_ fun _ _ same => same)
    rintro _ m' ⟨entry, resident, _, touches⟩
    exact touches.advances (touches.sound_of_same keeps.sound rfl rfl rfl rfl fun _ => resident)

end Steps

section Runs

theorem CallEnds.keeps {entry : ResidencyCall} (ends : CallEnds counter entry s) :
    Keeps (Managed.call counter entry s).2 ∧
      (Managed.call counter entry s).2.manager.config = s.manager.config := by
  unfold CallEnds Action.Ends at ends
  split at ends
  next a s' outcome =>
    rw [outcome]
    exact ends
  next e s' outcome =>
    rw [outcome]
    exact ⟨ends.1, by rw [ends.2]⟩

theorem run_keeps (counter : Counter) (keeps : Keeps s) (calls : List ResidencyCall) :
    Keeps (Managed.run counter s calls) ∧ (Managed.run counter s calls).manager.config = s.manager.config := by
  refine foldl_invariant (fun other => Keeps other ∧ other.manager.config = s.manager.config) ?_ calls s ⟨keeps, rfl⟩
  rintro other entry ⟨holds, config_eq⟩
  obtain ⟨next, same⟩ := (call_ends counter holds entry).keeps
  exact ⟨next, same.trans config_eq⟩

theorem new_config {config : ResidencyConfig} {start : ResidencyManager}
    (created : ResidencyManager.new config = .ok start) : start.config = config := by
  unfold ResidencyManager.new at created
  split at created
  · cases created
  cases created
  rfl

/-- Along every run the two byte counts are the sizes of what is resident, within the budget. -/
theorem run_accounts_residency {config : ResidencyConfig} {start : ResidencyManager}
    (created : ResidencyManager.new config = .ok start) (calls : List ResidencyCall) :
    let s := Managed.run .u64 ⟨start, []⟩ calls
    s.manager.config = config ∧ Sound s.manager ∧
      ∀ entry e, (Managed.call .u64 entry s).1 = .error e → (Managed.call .u64 entry s).2.manager = s.manager := by
  intro s
  have startKeeps : Keeps ⟨start, []⟩ := ⟨new_sound created, by simp⟩
  obtain ⟨keeps, config_eq⟩ := run_keeps .u64 startKeeps calls
  refine ⟨config_eq.trans (new_config created), keeps.sound, fun entry e failed => ?_⟩
  have ends := call_ends .u64 keeps entry
  unfold CallEnds Action.Ends at ends
  split at ends
  next a s' outcome =>
    rw [outcome] at failed
    cases failed
  next e s' outcome =>
    rw [outcome]
    exact ends.2

def sampleRecord (byte : UInt8) : TierRecord where
  nameSpace := List.Vector.replicate 32 1
  pageKey := List.Vector.replicate 32 byte
  generation := 1
  tier := .nvme
  mtp := false
  pieces := [⟨.targetKv, 1837056, 0, List.Vector.replicate 32 1⟩,
    ⟨.targetIndexer, 177408, 1839104, List.Vector.replicate 32 2⟩]

def sampleEviction : List ResidencyCall :=
  [.registerNvme (sampleRecord 1), .planNvmeRegistrations [sampleRecord 2], .commitNvmeRegistrations 0,
    .beginRestore 7 (sampleRecord 1).pageKey 0 0, .completeRestore ⟨7, 0, ⟨sampleRecord 1⟩⟩,
    .beginRestore 8 (sampleRecord 2).pageKey 1 1, .completeRestore ⟨8, 1, ⟨sampleRecord 2⟩⟩,
    .pinHbm (sampleRecord 2).pageKey, .promoteDram (sampleRecord 1).pageKey]

theorem sampleEviction_accounts_residency : let start : ResidencyManager := ⟨⟨3000000, 3000000⟩, ∅, 0, 0, 0, 0⟩
    let s := Managed.run .u64 ⟨start, []⟩ sampleEviction
    s.manager.hbmBytes = 2014464 ∧ s.manager.dramBytes = 2014464 ∧ Sound s.manager := by
  intro start s
  have created : ResidencyManager.new ⟨3000000, 3000000⟩ = .ok start := by
    unfold ResidencyManager.new
    rw [if_neg (by decide)]
  exact ⟨by decide, by decide, (run_accounts_residency created sampleEviction).2.1⟩

end Runs

end Glmaxx.Proof.Residency
