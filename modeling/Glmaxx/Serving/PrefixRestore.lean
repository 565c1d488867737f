import Glmaxx.Cache.Prefix
import Glmaxx.Cache.Residency

namespace Glmaxx.Serving
open Std Library Cache

structure RestoredPrefix where
  matchedTokens : Nat
  pageKeys : List PrefixPageKey
  pageAttachments : List PrefixPageAttachment
deriving DecidableEq

def RestoredPrefix.empty : RestoredPrefix := ⟨0, [], []⟩

inductive RestoreError where
  | config
  | request
  | saturated
  | poisoned
  | missing
  | stale
  | timeout
  | workerClosed
  | store
  | thread
deriving DecidableEq, Repr

/-- The errors of the source, and `panicked` for an `expect` that fails. -/
inductive PrefixRestoreError where
  | record
  | busy
  | unknownRequest
  | overflow
  | index (failure : PrefixError)
  | residency (failure : ResidencyError)
  | restore (failure : RestoreError)
  | panicked
deriving DecidableEq, Repr

inductive PrefixRestoreStatus where
  | pending
  | ready (restored : RestoredPrefix)
deriving DecidableEq

section Service

/-- The receiving end of the request's answer. -/
structure RestoreHandle where
  request : RestoreRequest
deriving DecidableEq

/-- What a service answers when the page of an ordinal is submitted to it, and what it has sent back when it is
asked for: nothing yet, an error, or what its store holds under the page's key. -/
structure RestoreAnswers where
  submission : Nat → Option RestoreError
  response : Nat → Option (Except RestoreError (Option RestoredPage))

def trySubmit (answer : Option RestoreError) (request : RestoreRequest) : Except RestoreError RestoreHandle :=
  if request.requestId = 0 ∨ request.expectedNamespace = Bytes32.zero ∨ request.minimumGeneration = 0
      ∨ request.workerRank ≥ 4 ∨ (ownerRank request.pageOrdinal).val ≠ request.workerRank then
    .error .request
  else match answer with
    | some failure => .error failure
    | none => .ok ⟨request⟩

def restoreOne (stored : Option RestoredPage) (request : RestoreRequest) : Except RestoreError RestoreResult :=
  match stored with
  | none => .error .missing
  | some page =>
    if page.record.nameSpace ≠ request.expectedNamespace ∨ page.record.generation < request.minimumGeneration then
      .error .stale
    else .ok ⟨request.requestId, request.pageOrdinal, page⟩

def RestoreHandle.tryReceive (answer : Option (Except RestoreError (Option RestoredPage))) (handle : RestoreHandle) :
    Except RestoreError (Option RestoreResult) :=
  match answer with
  | none => .ok none
  | some (.error failure) => .error failure
  | some (.ok stored) => do
    let result ← restoreOne stored handle.request
    .ok (some result)

end Service

inductive PendingPageState where
  | pinned
  | resident
  | restoreReserved
  | restoring (handle : RestoreHandle)
deriving DecidableEq

structure PendingPage where
  key : PrefixPageKey
  ordinal : Nat
  rank : Fin 4
  attachment : PrefixPageAttachment
  state : PendingPageState
deriving DecidableEq

structure PendingRestore where
  requestId : Nat
  matchedTokens : Nat
  pages : List PendingPage
deriving DecidableEq

/-- A page of one rank, the key of the plans. -/
structure RankPage where
  rank : Fin 4
  key : Bytes32
deriving DecidableEq

instance : Ord RankPage := ⟨compareLex (compareOn RankPage.rank) (compareOn RankPage.key)⟩

instance : TransOrd RankPage :=
  inferInstanceAs (TransCmp (compareLex (compareOn RankPage.rank) (compareOn RankPage.key)))

instance : LawfulEqOrd RankPage where
  eq_of_compare {a b} equal := by
    have lex : compareLex (compareOn RankPage.rank) (compareOn RankPage.key) a b = .eq := equal
    simp only [compareLex_eq_eq, compareOn, Std.compare_eq_iff_eq] at lex
    cases a
    cases b
    simp_all

structure PendingRollbackPlan where
  pins : ExtTreeMap RankPage Nat
  restores : ExtTreeMap RankPage (Nat × Nat)

structure PrefixReleasePlan where
  entries : ExtTreeMap RankPage Nat

structure PrefixRestoreCoordinator where
  index : PrefixIndex
  ranks : Fin 4 → ResidencyManager
  pending : ExtTreeMap Nat PendingRestore
deriving DecidableEq

abbrev Restores := Action PrefixRestoreCoordinator PrefixRestoreError

namespace PrefixRestoreCoordinator

def new (index : PrefixIndex) (perRankCapacity : ResidencyConfig) :
    Except PrefixRestoreError PrefixRestoreCoordinator :=
  if index.pages.isEmpty = false then .error .record
  else match ResidencyManager.new perRankCapacity with
    | .error failure => .error (.residency failure)
    | .ok manager => .ok ⟨index, fun _ => manager, ∅⟩

def setRank (rank : Fin 4) (manager : ResidencyManager) (s : PrefixRestoreCoordinator) : PrefixRestoreCoordinator :=
  { s with ranks := Function.update s.ranks rank manager }

def onRank {α : Type} (rank : Fin 4) (action : Reside α) : Restores α :=
  action.within (fun s => s.ranks rank) (setRank rank) .residency

/-- An `expect` on what a rank answers. -/
def expectRank {α : Type} (rank : Fin 4) (action : Reside α) : Restores α :=
  action.within (fun s => s.ranks rank) (setRank rank) fun _ => .panicked

section Register

/-- The records each rank has to take over, from the keys at `ordinal` and after it. -/
def planUpdates (s : PrefixRestoreCoordinator) (candidate : PrefixIndex) :
    List PrefixPageKey → Nat → Except PrefixRestoreError (List (Fin 4 × TierRecord))
  | [], _ => .ok []
  | key :: rest, ordinal => do
    let prior := s.index.record key
    if (s.ranks (ownerRank ordinal)).recordOf key ≠ prior then .error .record
    else do
      let next ← okOr (candidate.record key) .record
      let later ← planUpdates s candidate rest (ordinal + 1)
      .ok (if prior = some next then later else (ownerRank ordinal, next) :: later)

def updatesOf (rank : Fin 4) (updates : List (Fin 4 × TierRecord)) : List TierRecord :=
  (updates.filter fun update => update.1 = rank).map (·.2)

def planRank (s : PrefixRestoreCoordinator) (updates : List (Fin 4 × TierRecord)) (rank : Fin 4) :
    Except PrefixRestoreError (Fin 4 × NvmeRegistrationPlan) :=
  match (s.ranks rank).planNvmeRegistrations (updatesOf rank updates) with
  | .error failure => .error (.residency failure)
  | .ok plan => .ok (rank, plan)

def validatePlan (s : PrefixRestoreCoordinator) (plan : Fin 4 × NvmeRegistrationPlan) :
    Except PrefixRestoreError Unit :=
  ((s.ranks plan.1).validateNvmeRegistrationPlan plan.2).mapError .residency

structure Registration where
  keys : List PrefixPageKey
  candidate : PrefixIndex
  plans : List (Fin 4 × NvmeRegistrationPlan)

/-- What `register_prefix` checks before it writes. -/
def planRegistration (sha256 : List UInt8 → Bytes32) (s : PrefixRestoreCoordinator) (tokens : List UInt32)
    (records : List TierRecord) : Except PrefixRestoreError Registration := do
  let (keys, candidate) ← (s.index.insert sha256 tokens records).mapError .index
  if keys.length ≠ records.length then .error .record
  else do
    let updates ← s.planUpdates candidate keys 0
    let plans ← (List.finRange 4).mapM (s.planRank updates)
    plans.forM s.validatePlan
    .ok ⟨keys, candidate, plans⟩

def registerPrefix (sha256 : List UInt8 → Bytes32) (counter : Counter) (tokens : List UInt32)
    (records : List TierRecord) : Restores (List PrefixPageKey) := do
  let registration ← .reads fun s => s.planRegistration sha256 tokens records
  registration.plans.forM fun plan =>
    onRank plan.1 (ResidencyManager.commitNvmeRegistrations counter plan.2)
  .modify fun s => { s with index := registration.candidate }
  pure registration.keys

end Register

section Rollback

def countPin (pins : ExtTreeMap RankPage Nat) (page : RankPage) : Except PrefixRestoreError (ExtTreeMap RankPage Nat) := do
  let count ← okOr (checkedAdd 32 (pins[page]?.getD 0) 1) .overflow
  .ok (pins.insert page count)

def planPage (requestId : Nat) (plan : PendingRollbackPlan) (page : PendingPage) :
    Except PrefixRestoreError PendingRollbackPlan :=
  match page.state with
  | .pinned => do
    let pins ← countPin plan.pins ⟨page.rank, page.key⟩
    .ok { plan with pins := pins }
  | .restoreReserved | .restoring _ =>
    if (plan.restores[(⟨page.rank, page.key⟩ : RankPage)]?).isSome then .error .record
    else .ok { plan with restores := plan.restores.insert ⟨page.rank, page.key⟩ (requestId, page.ordinal) }
  | .resident => .ok plan

def validateUnpin (s : PrefixRestoreCoordinator) (pin : RankPage × Nat) : Except PrefixRestoreError Unit :=
  ((s.ranks pin.1.rank).validateUnpinCount pin.1.key pin.2).mapError .residency

def validateAbort (s : PrefixRestoreCoordinator) (restore : RankPage × Nat × Nat) : Except PrefixRestoreError Unit :=
  ((s.ranks restore.1.rank).validateAbortRestoreIdentity restore.1.key restore.2.1 restore.2.2).mapError .residency

def planPendingRollback (s : PrefixRestoreCoordinator) (pending : PendingRestore) :
    Except PrefixRestoreError PendingRollbackPlan := do
  let plan ← pending.pages.foldlM (planPage pending.requestId) ⟨∅, ∅⟩
  plan.pins.toList.forM s.validateUnpin
  plan.restores.toList.forM s.validateAbort
  .ok plan

def commitUnpin (counter : Counter) (pin : RankPage × Nat) : Restores Unit :=
  expectRank pin.1.rank (ResidencyManager.unpinCount counter pin.1.key pin.2)

def commitAbort (counter : Counter) (restore : RankPage × Nat × Nat) : Restores Unit :=
  expectRank restore.1.rank
    (ResidencyManager.abortRestoreIdentity counter restore.1.key restore.2.1 restore.2.2)

def commitPendingRollback (counter : Counter) (plan : PendingRollbackPlan) : Restores Unit := do
  plan.pins.toList.forM (commitUnpin counter)
  plan.restores.toList.forM (commitAbort counter)

def rollbackPending (counter : Counter) (pending : PendingRestore) : Restores Unit := do
  let plan ← .reads fun s => s.planPendingRollback pending
  commitPendingRollback counter plan

/-- Rolls back; where that is refused the pages are kept for a later attempt. -/
def rollbackOrKeep (counter : Counter) (pending : PendingRestore) : Restores Unit := fun s =>
  match rollbackPending counter pending s with
  | (.ok (), s') => (.ok (), s')
  | (.error .panicked, s') => (.error .panicked, s')
  | (.error failure, s') =>
    if s'.pending[pending.requestId]?.isSome then (.error .panicked, s')
    else (.error failure, { s' with pending := s'.pending.insert pending.requestId pending })

def rollbackFailedSubmission (counter : Counter) (pending : PendingRestore) (reserved : PendingPage) : Restores Unit :=
  rollbackOrKeep counter { pending with pages := pending.pages ++ [reserved] }

def failPolledRestore {α : Type} (counter : Counter) (pending : PendingRestore) (failure : PrefixRestoreError) :
    Restores α := do
  rollbackOrKeep counter pending
  .fail failure

end Rollback

section Begin

/-- Runs a step of `begin_restore`; the pages so far are rolled back where it fails. -/
def orRollback {α : Type} (counter : Counter) (pending : PendingRestore) (action : Restores α) : Restores α := do
  match ← action.attempt with
  | .ok value => pure value
  | .error failure => do
    rollbackPending counter pending
    .fail failure

def submitPage (counter : Counter) (answers : RestoreAnswers) (pending : PendingRestore) (page : PendingPage) :
    Restores PendingPageState := do
  let request ← orRollback counter pending
    (onRank page.rank (ResidencyManager.beginRestore counter pending.requestId page.key page.ordinal page.rank))
  match trySubmit (answers.submission page.ordinal) request with
  | .ok handle => pure (.restoring handle)
  | .error failure => do
    rollbackFailedSubmission counter pending page
    .fail (.restore failure)

/-- Pins the page or asks for it, by where it is; `page` is what is kept of it where that fails. -/
def takePage (counter : Counter) (answers : RestoreAnswers) (pending : PendingRestore) (page : PendingPage)
    (location : Option Residency) : Restores PendingPageState :=
  match location with
  | some .hbm => do
    orRollback counter pending (onRank page.rank (ResidencyManager.pinHbm counter page.key))
    pure .pinned
  | some .dram => do
    orRollback counter pending (onRank page.rank do
      ResidencyManager.promoteDram counter page.key
      ResidencyManager.pinHbm counter page.key)
    pure .pinned
  | some .nvme => submitPage counter answers pending page
  | some .restoring => do
    rollbackPending counter pending
    .fail .busy
  | none => do
    rollbackPending counter pending
    .fail .record

def beginPages (counter : Counter) (answers : RestoreAnswers) :
    List PrefixPageKey → PendingRestore → Restores PendingRestore
  | [], pending => pure pending
  | key :: rest, pending => do
    let ordinal := pending.pages.length
    let rank := ownerRank ordinal
    let record ← .reads fun s => okOr (s.index.record key) .record
    let attachment ← .reads fun _ => (PrefixPageAttachment.fromTierRecord record).mapError fun _ => .record
    let page : PendingPage := ⟨key, ordinal, rank, attachment, .restoreReserved⟩
    let location ← .reads fun s => .ok ((s.ranks rank).location key)
    let state ← takePage counter answers pending page location
    beginPages counter answers rest { pending with pages := pending.pages ++ [{ page with state := state }] }

/-- The result of a restore whose pages are all pinned; the others stay pending. -/
def settle (pending : PendingRestore) : Restores PrefixRestoreStatus :=
  if pending.pages.all (fun page => page.state = .pinned) then
    pure (.ready ⟨pending.matchedTokens, pending.pages.map (·.key), pending.pages.map (·.attachment)⟩)
  else do
    .modify fun s => { s with pending := s.pending.insert pending.requestId pending }
    pure .pending

def matchedPages (sha256 : List UInt8 → Bytes32) (s : PrefixRestoreCoordinator) (requestId : Nat)
    (tokens : List UInt32) (requireDraft : Bool) : Except PrefixRestoreError (Option PrefixMatch) :=
  if requestId = 0 ∨ (s.pending[requestId]?).isSome then .error .busy
  else match s.index.longestMatchWithCapability sha256 tokens requireDraft with
    | none => .ok none
    | some found => do
      let matchedTokens ← okOr (narrow 32 found.matchedTokens) .overflow
      .ok (some ⟨found.pageKeys, matchedTokens⟩)

def beginRestoreLongestWithCapability (sha256 : List UInt8 → Bytes32) (counter : Counter) (answers : RestoreAnswers)
    (requestId : Nat) (tokens : List UInt32) (requireDraft : Bool) : Restores PrefixRestoreStatus := do
  match ← .reads fun s => s.matchedPages sha256 requestId tokens requireDraft with
  | none => pure (.ready .empty)
  | some found => do
    let pending ← beginPages counter answers found.pageKeys ⟨requestId, found.matchedTokens, []⟩
    settle pending

end Begin

section Poll

def receivePage (counter : Counter) (pending : PendingRestore) (done rest : List PendingPage) (page : PendingPage)
    (result : RestoreResult) : Restores Unit := do
  match ← (onRank page.rank (ResidencyManager.completeRestore counter result)).attempt with
  | .error failure => failPolledRestore counter { pending with pages := done ++ page :: rest } failure
  | .ok () =>
    match ← (onRank page.rank (ResidencyManager.pinHbm counter page.key)).attempt with
    | .error failure =>
      failPolledRestore counter { pending with pages := done ++ { page with state := .resident } :: rest } failure
    | .ok () => pure ()

/-- The loop of `poll_restore`, with the pages it has passed. -/
def pollPages (counter : Counter) (answers : RestoreAnswers) (pending : PendingRestore) :
    List PendingPage → List PendingPage → Restores (List PendingPage)
  | done, [] => pure done
  | done, page :: rest =>
    match page.state with
    | .restoring handle =>
      match handle.tryReceive (answers.response page.ordinal) with
      | .error failure => failPolledRestore counter { pending with pages := done ++ page :: rest } (.restore failure)
      | .ok none => pollPages counter answers pending (done ++ [page]) rest
      | .ok (some result) => do
        receivePage counter pending done rest page result
        pollPages counter answers pending (done ++ [{ page with state := .pinned }]) rest
    | _ => pollPages counter answers pending (done ++ [page]) rest

def takePending (requestId : Nat) : Restores PendingRestore :=
  .updates fun s => do
    let pending ← okOr s.pending[requestId]? .unknownRequest
    .ok (pending, { s with pending := s.pending.erase requestId })

def pollRestore (counter : Counter) (answers : RestoreAnswers) (requestId : Nat) : Restores PrefixRestoreStatus := do
  let pending ← takePending requestId
  if pending.pages.any (fun page => page.state = .restoreReserved) then
    failPolledRestore counter pending .busy
  else do
    let pages ← pollPages counter answers pending [] pending.pages
    settle { pending with pages := pages }

end Poll

def cancelRestore (counter : Counter) (requestId : Nat) : Restores Unit := do
  let pending ← .reads fun s => okOr s.pending[requestId]? .unknownRequest
  let plan ← .reads fun s => s.planPendingRollback pending
  .modify fun s => { s with pending := s.pending.erase requestId }
  commitPendingRollback counter plan

section Release

def rankPages (pageKeys : List PrefixPageKey) : List RankPage :=
  pageKeys.zipIdx.map fun (key, ordinal) => ⟨ownerRank ordinal, key⟩

def planReleaseMany (s : PrefixRestoreCoordinator) (pageSets : List (List PrefixPageKey)) :
    Except PrefixRestoreError PrefixReleasePlan := do
  let entries ← (pageSets.flatMap rankPages).foldlM countPin ∅
  entries.toList.forM s.validateUnpin
  .ok ⟨entries⟩

def commitRelease (counter : Counter) (plan : PrefixReleasePlan) : Restores Unit :=
  plan.entries.toList.forM (commitUnpin counter)

def release (counter : Counter) (pageKeys : List PrefixPageKey) : Restores Unit := do
  let plan ← .reads fun s => s.planReleaseMany [pageKeys]
  commitRelease counter plan

end Release

end PrefixRestoreCoordinator

/-- A call on the coordinator; a release names its result by its place among those not yet released. -/
inductive RestoreCall where
  | registerPrefix (tokens : List UInt32) (records : List TierRecord)
  | beginRestore (requestId : Nat) (tokens : List UInt32) (requireDraft : Bool) (answers : RestoreAnswers)
  | pollRestore (requestId : Nat) (answers : RestoreAnswers)
  | cancelRestore (requestId : Nat)
  | release (index : Nat)

/-- A coordinator with the tokens each request asked for and the results its user has not released yet. -/
structure Restoration where
  coordinator : PrefixRestoreCoordinator
  asked : Nat → List UInt32
  ready : List (List UInt32 × RestoredPrefix)

namespace Restoration

def onCoordinator {α : Type} (action : Restores α) : Action Restoration PrefixRestoreError α :=
  action.within Restoration.coordinator (fun coordinator s => { s with coordinator := coordinator }) id

def note (tokens : List UInt32) : PrefixRestoreStatus → Action Restoration PrefixRestoreError Unit
  | .pending => pure ()
  | .ready restored => .modify fun s => { s with ready := s.ready ++ [(tokens, restored)] }

def call (sha256 : List UInt8 → Bytes32) (counter : Counter) : RestoreCall → Action Restoration PrefixRestoreError Unit
  | .registerPrefix tokens records => do
    let _ ← onCoordinator (PrefixRestoreCoordinator.registerPrefix sha256 counter tokens records)
    pure ()
  | .beginRestore requestId tokens requireDraft answers => do
    let status ← onCoordinator
      (PrefixRestoreCoordinator.beginRestoreLongestWithCapability sha256 counter answers requestId tokens requireDraft)
    .modify fun s => { s with asked := Function.update s.asked requestId tokens }
    note tokens status
  | .pollRestore requestId answers => do
    let status ← onCoordinator (PrefixRestoreCoordinator.pollRestore counter answers requestId)
    let tokens ← .reads fun s => .ok (s.asked requestId)
    note tokens status
  | .cancelRestore requestId => onCoordinator (PrefixRestoreCoordinator.cancelRestore counter requestId)
  | .release index => do
    let held ← .reads fun s => okOr s.ready[index]? .unknownRequest
    onCoordinator (PrefixRestoreCoordinator.release counter held.2.pageKeys)
    .modify fun s => { s with ready := s.ready.eraseIdx index }

def run (sha256 : List UInt8 → Bytes32) (counter : Counter) (s : Restoration) (calls : List RestoreCall) : Restoration :=
  calls.foldl (fun s entry => (call sha256 counter entry s).2) s

end Restoration

end Glmaxx.Serving
