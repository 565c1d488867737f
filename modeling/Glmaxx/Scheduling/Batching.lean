import Glmaxx.Engine.Graph
import Glmaxx.Library.Action

namespace Glmaxx.Scheduling
open Std Library Cache Engine

structure TenantConfig where
  tenant : Nat
  weight : UInt16
  maximumActiveRequests : UInt16
deriving DecidableEq, Repr

inductive SamplingCollective where
  | greedy
  | topK
  | mass
deriving DecidableEq, Repr

structure RequestSpec where
  id : Nat
  tenant : Nat
  promptTokens : UInt32
  maximumNewTokens : UInt32
  mtpDepth : UInt8
  sampling : SamplingCollective
deriving DecidableEq, Repr

inductive RequestState where
  | waitingPrefill
  | decoding
  | finished
  | cancelled
  | failed
deriving DecidableEq, Repr

def RequestState.isTerminal : RequestState → Bool
  | .finished | .cancelled | .failed => true
  | .waitingPrefill | .decoding => false

inductive BatchKind where
  | prefill
  | decode
  | verify (depth : Nat)
deriving DecidableEq, Repr

structure BatchRow where
  requestId : Nat
  promptTokens : Nat
deriving DecidableEq, Repr

structure BatchCompletion where
  requestId : Nat
  committedTokens : UInt8
  terminal : Bool
deriving DecidableEq, Repr

structure ScheduledBatch where
  stepId : Nat
  kind : BatchKind
  graphId : UInt32
  rows : List BatchRow
  queryRows : Nat
  sampling : SamplingCollective
deriving DecidableEq, Repr

structure SchedulerConfig where
  maximumBatchSequences : UInt16
  maximumPrefillTokens : UInt32
  maximumDecodeBurst : UInt16
deriving DecidableEq, Repr

structure Request where
  spec : RequestSpec
  state : RequestState
  promptDone : Nat
  generated : Nat
deriving DecidableEq, Repr

structure Tenant where
  config : TenantConfig
  serviceUnits : Nat
deriving DecidableEq, Repr

structure RequestCompletionUpdate where
  requestId : Nat
  state : RequestState
  promptDone : Nat
  generated : Nat
deriving DecidableEq, Repr

structure TenantServiceUpdate where
  tenantId : Nat
  serviceUnits : Nat
deriving DecidableEq, Repr

/-- The slots of the source's arrays that are filled, in order. -/
structure BatchCompletionPlan where
  requests : List RequestCompletionUpdate
  tenantServiceUnits : List TenantServiceUpdate
  decodeBurst : Nat
deriving DecidableEq, Repr

structure Scheduler where
  config : SchedulerConfig
  profile : GraphProfile
  tenants : ExtTreeMap Nat Tenant
  requests : ExtTreeMap Nat Request
  cancellations : Finset Nat
  inflight : Option ScheduledBatch
  nextStepId : Nat
  decodeBurst : Nat

inductive SchedulerError where
  | config
  | graphProfile
  | tenant
  | tenantLimit
  | request
  | unknownRequest
  | uncapturedShape
  | noRunnable
  | inflight
  | noInflight
  | commit
  | overflow
deriving DecidableEq, Repr

abbrev Schedule := Action Scheduler SchedulerError

def maximumBatchRows : Nat := maxActiveSequences

namespace Scheduler

section Construction

def addTenants (tenants : ExtTreeMap Nat Tenant) :
    List TenantConfig → Except SchedulerError (ExtTreeMap Nat Tenant)
  | [] => .ok tenants
  | config :: rest =>
    if config.tenant = 0 ∨ config.weight = 0 ∨ config.maximumActiveRequests = 0 ∨ config.tenant ∈ tenants then
      .error .tenant
    else addTenants (tenants.insert config.tenant ⟨config, 0⟩) rest

def new (sha256 : List UInt8 → Bytes32) (config : SchedulerConfig) (profile : GraphProfile)
    (tenantConfigs : List TenantConfig) : Except SchedulerError Scheduler :=
  match profile.verify sha256 with
  | .error _ => .error .graphProfile
  | .ok () =>
    if config.maximumBatchSequences = 0 ∨ config.maximumBatchSequences.toNat > maxActiveSequences
        ∨ config.maximumPrefillTokens = 0 ∨ config.maximumDecodeBurst = 0 then .error .config
    else do
      let tenants ← addTenants ∅ tenantConfigs
      if tenants.isEmpty then .error .tenant
      else .ok ⟨config, profile, tenants, ∅, ∅, none, 1, 0⟩

end Construction

section Requests

def requestState (s : Scheduler) (requestId : Nat) : Option RequestState :=
  s.requests[requestId]?.map (·.state)

def graphEntry (s : Scheduler) (graphId : UInt32) : Option GraphEntry :=
  s.profile.entries.find? (·.graphId = graphId)

def hasGraphForRequest (s : Scheduler) (spec : RequestSpec) : Bool :=
  (s.profile.entries.any fun entry => entry.key.mode = .prefill)
    && (s.profile.entries.any fun entry =>
      entry.key.mode = .decode ∧ entry.key.mtpDepth = 0 ∧ entry.maximumQueryRows ≠ 0)
    && (spec.mtpDepth = 0 || s.profile.entries.any fun entry =>
      entry.key.mode = .verify ∧ entry.key.mtpDepth = spec.mtpDepth
        ∧ entry.maximumQueryRows.toNat > spec.mtpDepth.toNat)

/-- How many requests of a tenant are neither finished nor cancelled nor failed. -/
def activeRequests (s : Scheduler) (tenant : Nat) : Nat :=
  s.requests.values.countP fun request => request.spec.tenant = tenant ∧ request.state.isTerminal = false

def admitWithPrefix (spec : RequestSpec) (cachedPromptTokens : UInt32) : Schedule Unit :=
  .updates fun s =>
    if spec.id = 0 ∨ spec.promptTokens = 0 ∨ spec.maximumNewTokens = 0 ∨ spec.mtpDepth > 6
        ∨ cachedPromptTokens > spec.promptTokens
        ∨ (cachedPromptTokens ≠ spec.promptTokens ∧ cachedPromptTokens.toNat % 64 ≠ 0)
        ∨ spec.id ∈ s.requests then .error .request
    else do
      let tenant ← okOr s.tenants[spec.tenant]? .tenant
      if tenant.config.maximumActiveRequests.toNat ≤ s.activeRequests spec.tenant then .error .tenantLimit
      else if s.hasGraphForRequest spec = false then .error .uncapturedShape
      else
        let state := if cachedPromptTokens = spec.promptTokens then RequestState.decoding else .waitingPrefill
        .ok ((), { s with requests := s.requests.insert spec.id ⟨spec, state, cachedPromptTokens.toNat, 0⟩ })

/-- The source calls this `admit`. -/
def admitRequest (spec : RequestSpec) : Schedule Unit := admitWithPrefix spec 0

def cancel (requestId : Nat) : Schedule Unit :=
  .updates fun s => do
    let request ← okOr s.requests[requestId]? .unknownRequest
    if request.state.isTerminal then .ok ((), s)
    else .ok ((), { s with cancellations := insert requestId s.cancellations })

/-- A request whose cancellation is due; one that has finished or failed keeps its state. -/
def cancelRequest (request : Request) : Request :=
  if request.state = .finished ∨ request.state = .failed then request else { request with state := .cancelled }

def applyCancellations (s : Scheduler) : Scheduler :=
  { s with
    requests := s.requests.map fun id request => if id ∈ s.cancellations then cancelRequest request else request
    cancellations := ∅ }

def applyCancellationsAtBoundary : Schedule Unit := do
  let s ← .get
  .failIf (s.inflight.isSome = true) .inflight
  .modify applyCancellations

end Requests

section Order

/-- The depths up to `maximumDepth` that a verify graph was captured for. -/
def capturedDepths (s : Scheduler) (maximumDepth : Nat) : List Nat :=
  (s.profile.entries.filter fun entry =>
    entry.key.mode = .verify ∧ entry.key.mtpDepth.toNat ≤ maximumDepth
      ∧ entry.maximumQueryRows.toNat > entry.key.mtpDepth.toNat).map (·.key.mtpDepth.toNat)

def effectiveDecodeDepth (s : Scheduler) (request : Request) : Except SchedulerError Nat := do
  let remaining ← okOr (checkedSub request.spec.maximumNewTokens.toNat request.generated) .commit
  if remaining = 0 then .error .commit
  else
    let maximumDepth := min request.spec.mtpDepth.toNat ((narrow 8 (remaining - 1)).getD 255)
    .ok ((s.capturedDepths maximumDepth).max?.getD 0)

/-- The tenant of a request; the source indexes the map, and every request's tenant is configured. -/
def tenantOf (s : Scheduler) (request : Request) : Tenant :=
  s.tenants[request.spec.tenant]?.getD ⟨⟨0, 1, 0⟩, 0⟩

def Precedes (s : Scheduler) (left right : Request) : Prop :=
  let leftScore := (s.tenantOf left).serviceUnits * (s.tenantOf right).config.weight.toNat
  let rightScore := (s.tenantOf right).serviceUnits * (s.tenantOf left).config.weight.toNat
  leftScore < rightScore ∨ leftScore = rightScore ∧
    (left.spec.tenant < right.spec.tenant ∨ left.spec.tenant = right.spec.tenant ∧ left.spec.id ≤ right.spec.id)

instance (s : Scheduler) : DecidableRel s.Precedes := fun left right => by
  unfold Precedes
  infer_instance

def inClass (s : Scheduler) (request : Request) : Option (Nat × SamplingCollective) → Bool
  | none => true
  | some (depth, sampling) =>
    (match s.effectiveDecodeDepth request with
      | .ok actual => actual = depth
      | .error _ => false) && request.spec.sampling = sampling

def orderedRequests (s : Scheduler) (state : RequestState) (decodeClass : Option (Nat × SamplingCollective)) :
    List Request :=
  (s.requests.values.filter fun request => request.state = state ∧ s.inClass request decodeClass).insertionSort
    s.Precedes

end Order

section Batches

def bestGraph (s : Scheduler) (kind : BatchKind) (active queryRows : Nat) : Option GraphEntry :=
  let (mode, depth) := match kind with
    | .prefill => (StepMode.prefill, 0)
    | .decode => (StepMode.decode, 0)
    | .verify depth => (StepMode.verify, depth)
  (s.profile.entries.filter fun entry =>
    entry.key.mode = mode ∧ entry.key.mtpDepth.toNat = depth ∧ active ≤ entry.maximumActiveSequences.toNat
      ∧ queryRows ≤ entry.maximumQueryRows.toNat
      ∧ (mode ≠ .prefill ∨ queryRows ≤ entry.maximumPromptTokens.toNat)).argmin fun entry =>
    toLex (entry.key.sequenceBucket.toNat, toLex (entry.key.verifierRowBucket.toNat,
      toLex (entry.maximumQueryRows.toNat, entry.graphId.toNat)))

def sumPromptTokens (rows : List BatchRow) : Except SchedulerError Nat :=
  rows.foldlM (fun sum row => okOr (checkedAdd 32 sum row.promptTokens) .overflow) 0

def queryRowsOf (kind : BatchKind) (active : Nat) (rows : List BatchRow) : Except SchedulerError Nat :=
  match kind with
  | .prefill => sumPromptTokens rows
  | .decode => .ok active
  | .verify depth => okOr (checkedMul 32 active (depth + 1)) .overflow

def finalizeBatch (counter : Counter) (kind : BatchKind) (sampling : SamplingCollective) (rows : List BatchRow) :
    Schedule ScheduledBatch :=
  .updates fun s =>
    if rows = [] then .error .noRunnable
    else do
      let active ← okOr (narrow 16 rows.length) .overflow
      let queryRows ← queryRowsOf kind active rows
      let graph ← okOr (s.bestGraph kind active queryRows) .uncapturedShape
      let next ← okOr (counter.add s.nextStepId 1) .overflow
      .ok (⟨s.nextStepId, kind, graph.graphId, rows, queryRows, sampling⟩, { s with nextStepId := next })

/-- Rows for the requests in order, until the tokens that are available are used up. -/
def fillRows : Nat → List Request → List BatchRow
  | _, [] => []
  | available, request :: rest =>
    if available = 0 then []
    else
      let tokens := min (request.spec.promptTokens.toNat - request.promptDone) available
      if tokens ≠ 0 then ⟨request.spec.id, tokens⟩ :: fillRows (available - tokens) rest
      else fillRows available rest

def prefillRows (s : Scheduler) (eligible : List Request) (entry : GraphEntry) : List BatchRow :=
  fillRows
    (min (min s.config.maximumPrefillTokens.toNat entry.maximumPromptTokens.toNat) entry.maximumQueryRows.toNat)
    (eligible.take (min s.config.maximumBatchSequences.toNat entry.maximumActiveSequences.toNat))

def improves (queryRows : Nat) (rows : List BatchRow) : Option (Nat × List BatchRow) → Prop
  | none => True
  | some (bestQueryRows, bestRows) =>
    bestQueryRows < queryRows ∨ bestQueryRows = queryRows ∧ bestRows.length < rows.length

instance (queryRows : Nat) (rows : List BatchRow) :
    (best : Option (Nat × List BatchRow)) → Decidable (improves queryRows rows best)
  | none => inferInstanceAs (Decidable True)
  | some (bestQueryRows, bestRows) => inferInstanceAs
      (Decidable (bestQueryRows < queryRows ∨ bestQueryRows = queryRows ∧ bestRows.length < rows.length))

def bestPrefill (s : Scheduler) (eligible : List Request) :
    List GraphEntry → Option (Nat × List BatchRow) → Except SchedulerError (Option (Nat × List BatchRow))
  | [], best => .ok best
  | entry :: rest, best => do
    let queryRows ← sumPromptTokens (s.prefillRows eligible entry)
    bestPrefill s eligible rest <|
      if queryRows ≠ 0 ∧ improves queryRows (s.prefillRows eligible entry) best then
        some (queryRows, s.prefillRows eligible entry)
      else best

def choosePrefillRows (s : Scheduler) : Except SchedulerError (List BatchRow) := do
  let best ← s.bestPrefill (s.orderedRequests .waitingPrefill none)
    (s.profile.entries.filter fun entry => entry.key.mode = .prefill) none
  okOr (best.map (·.2)) .uncapturedShape

def buildPrefillBatch (counter : Counter) : Schedule ScheduledBatch := do
  let rows ← .reads choosePrefillRows
  finalizeBatch counter .prefill .greedy rows

def chooseDecodeClass (s : Scheduler) : Except SchedulerError (Nat × SamplingCollective) := do
  let first ← okOr (s.orderedRequests .decoding none).head? .noRunnable
  let depth ← s.effectiveDecodeDepth first
  .ok (depth, first.spec.sampling)

def decodeKind (depth : Nat) : BatchKind := if depth = 0 then .decode else .verify depth

def decodeRows (requests : List Request) : List BatchRow := requests.map fun request => ⟨request.spec.id, 0⟩

def fitBatch (counter : Counter) (kind : BatchKind) (sampling : SamplingCollective) (eligible : List Request) :
    Nat → Schedule ScheduledBatch
  | 0 => .fail .uncapturedShape
  | size + 1 => do
    match ← (finalizeBatch counter kind sampling (decodeRows (eligible.take (size + 1)))).attempt with
    | .ok batch => pure batch
    | .error _ => fitBatch counter kind sampling eligible size

def buildDecodeBatch (counter : Counter) : Schedule ScheduledBatch := do
  let (depth, sampling) ← .reads chooseDecodeClass
  let s ← .get
  let eligible := (s.orderedRequests .decoding (some (depth, sampling))).take s.config.maximumBatchSequences.toNat
  fitBatch counter (decodeKind depth) sampling eligible eligible.length

def hasRequest (s : Scheduler) (state : RequestState) : Bool := s.requests.values.any fun request => request.state = state

def choosesPrefill (s : Scheduler) : Bool :=
  s.hasRequest .waitingPrefill
    && (!s.hasRequest .decoding || s.config.maximumDecodeBurst.toNat ≤ s.decodeBurst)

def buildBatch (counter : Counter) : Schedule ScheduledBatch := fun s =>
  if s.choosesPrefill then buildPrefillBatch counter s else buildDecodeBatch counter s

def selectBatch (counter : Counter) : Schedule (Option ScheduledBatch) := do
  let batch ← buildBatch counter
  .modify fun s => { s with inflight := some batch }
  pure (some batch)

def nextBatch (counter : Counter) : Schedule (Option ScheduledBatch) := do
  let s ← .get
  .failIf (s.inflight.isSome = true) .inflight
  .modify applyCancellations
  let s ← .get
  if s.hasRequest .waitingPrefill = false ∧ s.hasRequest .decoding = false then pure none else selectBatch counter

end Batches

section Completion

def assignCompletions (rows : List BatchRow) (byRow : List (Option BatchCompletion)) :
    List BatchCompletion → Except SchedulerError (List (Option BatchCompletion))
  | [] => .ok byRow
  | completion :: rest => do
    let row ← okOr (rows.findIdx? (·.requestId = completion.requestId)) .commit
    if (byRow[row]?.getD none).isSome then .error .commit
    else assignCompletions rows (byRow.set row (some completion)) rest

def prefillUpdate (request : Request) (row : BatchRow) : Except SchedulerError (RequestCompletionUpdate × Nat) :=
  if request.state ≠ .waitingPrefill ∨ row.promptTokens = 0 then .error .commit
  else do
    let promptDone ← okOr (checkedAdd 32 request.promptDone row.promptTokens) .overflow
    if promptDone > request.spec.promptTokens.toNat then .error .commit
    else
      let state := if promptDone = request.spec.promptTokens.toNat then RequestState.decoding else .waitingPrefill
      .ok (⟨row.requestId, state, promptDone, request.generated⟩, row.promptTokens)

/-- The same for a decode row that may commit up to `maximumCommit` tokens. -/
def decodeUpdate (maximumCommit : Nat) (request : Request) (row : BatchRow) (completion : Option BatchCompletion) :
    Except SchedulerError (RequestCompletionUpdate × Nat) :=
  if request.state ≠ .decoding ∨ row.promptTokens ≠ 0 then .error .commit
  else do
    let completion := completion.getD ⟨row.requestId, 1, false⟩
    let remaining ← okOr (checkedSub request.spec.maximumNewTokens.toNat request.generated) .commit
    if completion.committedTokens = 0 ∨ completion.committedTokens.toNat > maximumCommit
        ∨ completion.committedTokens.toNat > remaining then .error .commit
    else do
      let generated ← okOr (checkedAdd 32 request.generated completion.committedTokens.toNat) .overflow
      let state := if completion.terminal ∨ generated = request.spec.maximumNewTokens.toNat then
        RequestState.finished else .decoding
      .ok (⟨row.requestId, state, request.promptDone, generated⟩, completion.committedTokens.toNat)

def rowUpdate (kind : BatchKind) (request : Request) (row : BatchRow) (completion : Option BatchCompletion) :
    Except SchedulerError (RequestCompletionUpdate × Nat) :=
  match kind with
  | .prefill => prefillUpdate request row
  | .decode => decodeUpdate 1 request row completion
  | .verify depth => decodeUpdate (depth + 1) request row completion

def tenantUpdateIndex (updates : List TenantServiceUpdate) (tenant : Nat) : Except SchedulerError Nat :=
  match updates.findIdx? (·.tenantId = tenant) with
  | some index => .ok index
  | none => if updates.length < maximumBatchRows then .ok updates.length else .error .overflow

def putTenantUpdate (updates : List TenantServiceUpdate) (index : Nat) (update : TenantServiceUpdate) :
    List TenantServiceUpdate :=
  if index < updates.length then updates.set index update else updates ++ [update]

def planRow (counter : Counter) (s : Scheduler) (success : Bool) (kind : BatchKind)
    (plan : BatchCompletionPlan) (row : BatchRow) (completion : Option BatchCompletion) :
    Except SchedulerError BatchCompletionPlan := do
  let request ← okOr s.requests[row.requestId]? .unknownRequest
  if success = false then
    .ok { plan with requests := plan.requests ++ [⟨row.requestId, .failed, request.promptDone, request.generated⟩] }
  else do
    let tenant ← okOr s.tenants[request.spec.tenant]? .tenant
    let index ← tenantUpdateIndex plan.tenantServiceUnits request.spec.tenant
    let serviceUnits := plan.tenantServiceUnits[index]?.elim tenant.serviceUnits (·.serviceUnits)
    let (update, serviceDelta) ← rowUpdate kind request row completion
    let charged ← okOr (counter.add serviceUnits serviceDelta) .overflow
    .ok { plan with
      requests := plan.requests ++ [update]
      tenantServiceUnits := putTenantUpdate plan.tenantServiceUnits index ⟨request.spec.tenant, charged⟩ }

def planRows (counter : Counter) (s : Scheduler) (success : Bool) (kind : BatchKind) :
    List (BatchRow × Option BatchCompletion) → BatchCompletionPlan → Except SchedulerError BatchCompletionPlan
  | [], plan => .ok plan
  | (row, completion) :: rest, plan => do
    let plan ← planRow counter s success kind plan row completion
    planRows counter s success kind rest plan

def completionsRefused (inflight : ScheduledBatch) (success : Bool) (completions : List BatchCompletion)
    (requireExplicit : Bool) : Prop :=
  inflight.rows.length > maximumBatchRows
    ∨ (success = false ∧ completions ≠ [])
    ∨ (inflight.kind = .prefill ∧ completions ≠ [])
    ∨ (completions ≠ [] ∧ completions.length ≠ inflight.rows.length)
    ∨ (requireExplicit = true ∧ success = true ∧ inflight.kind ≠ .prefill
      ∧ completions.length ≠ inflight.rows.length)
    ∨ ¬(inflight.rows.map (·.requestId)).Nodup

instance (inflight : ScheduledBatch) (success : Bool) (completions : List BatchCompletion)
    (requireExplicit : Bool) : Decidable (completionsRefused inflight success completions requireExplicit) := by
  unfold completionsRefused
  infer_instance

def completionPlan (counter : Counter) (success : Bool) (completions : List BatchCompletion)
    (requireExplicit : Bool) (s : Scheduler) : Except SchedulerError BatchCompletionPlan := do
  let inflight ← okOr s.inflight .noInflight
  if completionsRefused inflight success completions requireExplicit then .error .commit
  else do
    let byRow ← assignCompletions inflight.rows (List.replicate maximumBatchRows none) completions
    let decodeBurst := if inflight.kind = .prefill then 0 else min (s.decodeBurst + 1) (2 ^ 16 - 1)
    planRows counter s success inflight.kind (inflight.rows.zip byRow) ⟨[], [], decodeBurst⟩

def updateRequest (requests : ExtTreeMap Nat Request) (update : RequestCompletionUpdate) : ExtTreeMap Nat Request :=
  requests.modify update.requestId fun request =>
    { request with state := update.state, promptDone := update.promptDone, generated := update.generated }

def updateTenant (tenants : ExtTreeMap Nat Tenant) (update : TenantServiceUpdate) : ExtTreeMap Nat Tenant :=
  tenants.modify update.tenantId fun tenant => { tenant with serviceUnits := update.serviceUnits }

def commitPlan (plan : BatchCompletionPlan) (s : Scheduler) : Scheduler :=
  { s with
    inflight := none
    requests := plan.requests.foldl updateRequest s.requests
    tenants := plan.tenantServiceUnits.foldl updateTenant s.tenants
    decodeBurst := plan.decodeBurst }

def completeBatchInternal (counter : Counter) (success : Bool) (completions : List BatchCompletion)
    (requireExplicit : Bool) : Schedule Unit := do
  let plan ← .reads (completionPlan counter success completions requireExplicit)
  .modify (commitPlan plan)

def completeBatchWithCommits (counter : Counter) (success : Bool) (commits : List (Nat × UInt8)) : Schedule Unit :=
  completeBatchInternal counter success (commits.map fun commit => ⟨commit.1, commit.2, false⟩) false

def completeBatch (counter : Counter) (success : Bool) : Schedule Unit :=
  completeBatchWithCommits counter success []

def completeBatchWithResults (counter : Counter) (success : Bool) (completions : List BatchCompletion) :
    Schedule Unit :=
  completeBatchInternal counter success completions true

end Completion

end Scheduler

inductive SchedulerCall where
  | admitRequest (spec : RequestSpec)
  | admitWithPrefix (spec : RequestSpec) (cachedPromptTokens : UInt32)
  | cancel (requestId : Nat)
  | applyCancellationsAtBoundary
  | nextBatch
  | completeBatch (success : Bool)
  | completeBatchWithCommits (success : Bool) (commits : List (Nat × UInt8))
  | completeBatchWithResults (success : Bool) (completions : List BatchCompletion)
deriving DecidableEq, Repr

namespace Scheduler

def call (counter : Counter) : SchedulerCall → Schedule Unit
  | .admitRequest spec => admitRequest spec
  | .admitWithPrefix spec cachedPromptTokens => admitWithPrefix spec cachedPromptTokens
  | .cancel requestId => cancel requestId
  | .applyCancellationsAtBoundary => applyCancellationsAtBoundary
  | .nextBatch => do
    let _ ← nextBatch counter
    pure ()
  | .completeBatch success => completeBatch counter success
  | .completeBatchWithCommits success commits => completeBatchWithCommits counter success commits
  | .completeBatchWithResults success completions => completeBatchWithResults counter success completions

def run (counter : Counter) (s : Scheduler) (calls : List SchedulerCall) : Scheduler :=
  calls.foldl (fun s request => (call counter request s).2) s

end Scheduler

end Glmaxx.Scheduling
