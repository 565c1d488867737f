import Glmaxx.Cache.Delta

namespace Glmaxx.Engine
open Std Library Cache

variable {seen entries : List GraphEntry}

def stepPlanAbi : String := "glmaxx.step-plan.v1"
def kernelAbi : String := "glmaxx.sm120.nvfp4.routed_moe.v2"
def graphProfileSchema : String := "glmaxx.graph-profile.v1"
def graphProfileDomain : List UInt8 := "glmaxx.graph-profile.v1".toUTF8.toList ++ [0]

def maxActiveSequences : Nat := 64
def maxVerifierRows : Nat := 448
def maxMtpDepth : Nat := 6

inductive StepMode where
  | prefill
  | decode
  | verify
  | mixed
  | cacheOnly
deriving DecidableEq, Repr

def StepMode.code : StepMode → UInt8
  | .prefill => 1
  | .decode => 2
  | .verify => 3
  | .mixed => 4
  | .cacheOnly => 5

inductive AttentionTransport where
  | none
  | prefillCkv
  | prefillQuery
  | decodeQueryLse
deriving DecidableEq, Repr

def AttentionTransport.code : AttentionTransport → UInt8
  | .none => 0
  | .prefillCkv => 1
  | .prefillQuery => 2
  | .decodeQueryLse => 3

structure GraphKey where
  mode : StepMode
  sequenceBucket : UInt16
  verifierRowBucket : UInt32
  mtpDepth : UInt8
  attentionTransport : AttentionTransport
deriving DecidableEq, Repr

structure GraphEntry where
  graphId : UInt32
  key : GraphKey
  maximumActiveSequences : UInt16
  maximumPromptTokens : UInt32
  maximumQueryRows : UInt32
  compatibleTpRoutes : List UInt16
  compatibleDcpRoutes : List UInt16
  compatibleSamplingRoutes : List UInt16
  maximumScratchBytes : UInt64
  argumentBytes : UInt64
  graphObjectBytes : UInt64
  residentModuleBytes : UInt64
  admissionSloClass : UInt16
deriving DecidableEq, Repr

structure GraphProfile where
  schema : String
  stepPlanAbi : String
  kernelAbi : String
  entries : List GraphEntry
  profileHash : Bytes32
deriving DecidableEq

inductive GraphProfileError where
  | empty
  | abi
  | entry
  | hash
  | missingGraph
  | incompatible
  | cacheOnlyHasNoGraph
deriving DecidableEq, Repr

def strictlySortedNonzero (values : List UInt16) : Bool :=
  values.all (· ≠ 0) && (values.zip (values.drop 1)).all fun window => window.1 < window.2

def modeRefused (entry : GraphEntry) : Prop :=
  if entry.key.mode = .prefill then
    entry.maximumPromptTokens = 0 ∨ entry.key.verifierRowBucket ≠ 0 ∨ entry.key.mtpDepth ≠ 0
      ∨ ¬(entry.key.attentionTransport = .prefillCkv ∨ entry.key.attentionTransport = .prefillQuery)
      ∨ entry.compatibleSamplingRoutes ≠ []
  else if entry.key.mode = .decode ∨ entry.key.mode = .verify then
    entry.maximumPromptTokens ≠ 0 ∨ entry.key.attentionTransport ≠ .decodeQueryLse
      ∨ entry.compatibleSamplingRoutes = []
      ∨ (entry.key.mode = .decode ∧ entry.key.mtpDepth ≠ 0)
      ∨ (entry.key.mode = .verify ∧ entry.key.mtpDepth = 0)
  else True

instance (entry : GraphEntry) : Decidable (modeRefused entry) := by
  unfold modeRefused
  infer_instance

/-- One round of the loop of `validate_entries`, after the entries in `seen`. -/
def entryRefused (seen : List GraphEntry) (entry : GraphEntry) : Prop :=
  entry.graphId = 0
    ∨ entry.graphId ∈ seen.map (·.graphId)
    ∨ entry.key ∈ seen.map (·.key)
    ∨ entry.maximumActiveSequences = 0
    ∨ entry.maximumActiveSequences > entry.key.sequenceBucket
    ∨ entry.maximumQueryRows = 0
    ∨ entry.admissionSloClass = 0
    ∨ entry.compatibleTpRoutes = []
    ∨ entry.compatibleDcpRoutes = []
    ∨ strictlySortedNonzero entry.compatibleTpRoutes = false
    ∨ strictlySortedNonzero entry.compatibleDcpRoutes = false
    ∨ strictlySortedNonzero entry.compatibleSamplingRoutes = false
    ∨ modeRefused entry

instance (seen : List GraphEntry) (entry : GraphEntry) : Decidable (entryRefused seen entry) := by
  unfold entryRefused
  infer_instance

def validateEach (seen : List GraphEntry) : List GraphEntry → Except GraphProfileError Unit
  | [] => .ok ()
  | entry :: rest => if entryRefused seen entry then .error .entry else validateEach (entry :: seen) rest

def validateEntries (entries : List GraphEntry) : Except GraphProfileError Unit :=
  if entries = [] then .error .empty else validateEach [] entries

def u16ListBytes (values : List UInt16) : List UInt8 :=
  leBytes 2 (min values.length (2 ^ 16 - 1)) ++ values.flatMap fun value => leBytes 2 value.toNat

def GraphEntry.hashBytes (entry : GraphEntry) : List UInt8 :=
  leBytes 4 entry.graphId.toNat ++ [entry.key.mode.code] ++ leBytes 2 entry.key.sequenceBucket.toNat
    ++ leBytes 4 entry.key.verifierRowBucket.toNat ++ [entry.key.mtpDepth] ++ [entry.key.attentionTransport.code]
    ++ leBytes 2 entry.maximumActiveSequences.toNat ++ leBytes 4 entry.maximumPromptTokens.toNat
    ++ leBytes 4 entry.maximumQueryRows.toNat ++ u16ListBytes entry.compatibleTpRoutes
    ++ u16ListBytes entry.compatibleDcpRoutes ++ u16ListBytes entry.compatibleSamplingRoutes
    ++ leBytes 8 entry.maximumScratchBytes.toNat ++ leBytes 8 entry.argumentBytes.toNat
    ++ leBytes 8 entry.graphObjectBytes.toNat ++ leBytes 8 entry.residentModuleBytes.toNat
    ++ leBytes 2 entry.admissionSloClass.toNat

def entriesHashInput (sha256 : List UInt8 → Bytes32) (entries : List GraphEntry) : List UInt8 :=
  graphProfileDomain ++ (sha256 Engine.stepPlanAbi.toUTF8.toList).toList
    ++ (sha256 Engine.kernelAbi.toUTF8.toList).toList ++ leBytes 4 (min entries.length (2 ^ 32 - 1))
    ++ entries.flatMap (·.hashBytes)

def hashEntries (sha256 : List UInt8 → Bytes32) (entries : List GraphEntry) : Bytes32 :=
  sha256 (entriesHashInput sha256 entries)

namespace GraphProfile

def new (sha256 : List UInt8 → Bytes32) (entries : List GraphEntry) : Except GraphProfileError GraphProfile := do
  let entries := entries.insertionSort fun a b => a.graphId ≤ b.graphId
  validateEntries entries
  pure ⟨graphProfileSchema, Engine.stepPlanAbi, Engine.kernelAbi, entries, hashEntries sha256 entries⟩

def verify (sha256 : List UInt8 → Bytes32) (profile : GraphProfile) : Except GraphProfileError Unit :=
  if profile.schema ≠ graphProfileSchema ∨ profile.stepPlanAbi ≠ Engine.stepPlanAbi
      ∨ profile.kernelAbi ≠ Engine.kernelAbi then .error .abi
  else do
    validateEntries profile.entries
    if hashEntries sha256 profile.entries ≠ profile.profileHash then .error .hash else .ok ()

end GraphProfile

/-- What `validate_entries` guarantees of each entry. -/
structure GraphEntry.Valid (entry : GraphEntry) : Prop where
  graphId : entry.graphId ≠ 0
  sequences : entry.maximumActiveSequences ≠ 0
  bucket : entry.maximumActiveSequences ≤ entry.key.sequenceBucket
  rows : entry.maximumQueryRows ≠ 0
  mode : ¬modeRefused entry

theorem GraphEntry.valid_of_accepted (accepted : ¬entryRefused seen entry) : entry.Valid := by
  unfold entryRefused at accepted
  simp only [not_or] at accepted
  obtain ⟨graphId, _, _, sequences, bucket, rows, _, _, _, _, _, _, mode⟩ := accepted
  exact ⟨graphId, sequences, UInt16.not_lt.mp bucket, rows, mode⟩

/-- Each entry was accepted after those before it, and the ids are distinct. -/
theorem validateEach_accepted (ok : validateEach seen entries = .ok ()) :
    (entries.map (·.graphId)).Nodup ∧ ∀ entry ∈ entries,
      entry.graphId ∉ seen.map (·.graphId) ∧ ∃ before, ¬entryRefused before entry := by
  induction entries generalizing seen with
  | nil => simp
  | cons entry rest ih =>
    unfold validateEach at ok
    split at ok
    · cases ok
    next accepted =>
      obtain ⟨distinct, others⟩ := ih ok
      have later : ∀ other ∈ rest, other.graphId ≠ entry.graphId ∧ other.graphId ∉ seen.map (·.graphId) := by
        intro other isIn
        have unseen := (others other isIn).1
        rw [List.map_cons, List.mem_cons, not_or] at unseen
        exact unseen
      constructor
      · rw [List.map_cons, List.nodup_cons]
        refine ⟨fun repeated => ?_, distinct⟩
        obtain ⟨other, isIn, same⟩ := List.mem_map.mp repeated
        exact (later other isIn).1 same
      · intro other isIn
        rcases List.mem_cons.mp isIn with rfl | isIn
        · exact ⟨fun old => accepted (.inr (.inl old)), seen, accepted⟩
        · exact ⟨(later other isIn).2, (others other isIn).2⟩

theorem validateEntries_accepted (ok : validateEntries entries = .ok ()) :
    (entries.map (·.graphId)).Nodup ∧ ∀ entry ∈ entries, ∃ before, ¬entryRefused before entry := by
  unfold validateEntries at ok
  split at ok
  · cases ok
  obtain ⟨distinct, each⟩ := validateEach_accepted ok
  exact ⟨distinct, fun entry isIn => (each entry isIn).2⟩

theorem validateEntries_ok (ok : validateEntries entries = .ok ()) : ∀ entry ∈ entries, entry.Valid := by
  intro entry isIn
  obtain ⟨before, accepted⟩ := (validateEntries_accepted ok).2 entry isIn
  exact GraphEntry.valid_of_accepted accepted

theorem GraphProfile.valid_of_verify {sha256 : List UInt8 → Bytes32} {profile : GraphProfile}
    (ok : profile.verify sha256 = .ok ()) : ∀ entry ∈ profile.entries, entry.Valid := by
  unfold GraphProfile.verify at ok
  split at ok
  · cases ok
  obtain ⟨_, valid, _⟩ := bind_eq_ok.mp ok
  exact validateEntries_ok valid

namespace GraphEntry.Valid
variable {entry : GraphEntry}

theorem prefill (valid : entry.Valid) (mode : entry.key.mode = .prefill) :
    entry.maximumPromptTokens ≠ 0 ∧ entry.key.mtpDepth = 0 := by
  have accepted := valid.mode
  rw [modeRefused, if_pos mode] at accepted
  simp only [not_or, not_not] at accepted
  exact ⟨accepted.1, accepted.2.2.1⟩

theorem verify (valid : entry.Valid) (mode : entry.key.mode = .verify) : entry.key.mtpDepth ≠ 0 := by
  have accepted := valid.mode
  rw [modeRefused, if_neg (by simp [mode]), if_pos (.inr mode)] at accepted
  simp only [not_or, not_and] at accepted
  exact accepted.2.2.2.2 mode

end GraphEntry.Valid

end Glmaxx.Engine
