import Glmaxx.Library.Bytes
import Glmaxx.Cache.Sequence

namespace Glmaxx.Cache
open Std Library

def maximumDeltaSequences : Nat := 64

structure RankPageEntry where
  ordinal : Nat
  ownerRank : Fin 4
  targetLocalPageId : Nat
  draftLocalPageId : Option Nat
  state : PageState
  validTokens : Nat
deriving DecidableEq, Repr

/-- `From<SequencePageView>`: what the ranks see of a page. -/
def RankPageEntry.fromView (page : SequencePageView) : RankPageEntry where
  ordinal := page.ordinal
  ownerRank := page.physical.ownerRank
  targetLocalPageId := page.physical.targetLocalPageId
  draftLocalPageId := page.draftLocalPageId
  state := page.state
  validTokens := page.validTokens

structure SequencePageUpdate where
  requestId : Nat
  mtp : Bool
  committedTokens : Nat
  tentativeTokens : Nat
  pageCountAfter : Nat
  firstChangedOrdinal : Nat
  changedPages : List RankPageEntry
deriving DecidableEq, Repr

structure PageTableDelta where
  generationBefore : Nat
  generationAfter : Nat
  updates : List SequencePageUpdate
  removedSequenceIds : List Nat
  globalDigest : Bytes32
deriving DecidableEq

structure NormalizedSequence where
  mtp : Bool
  committedTokens : Nat
  tentativeTokens : Nat
  pages : List RankPageEntry
deriving DecidableEq, Repr

structure PageTableMirror where
  config : PageTableConfig
  generation : Nat
  sequences : ExtTreeMap Nat NormalizedSequence

inductive PageTableDeltaError where
  | generation
  | shape
  | sequence
  | page
  | rank
  | collision
  | digest
  | overflow
  | table (failure : SequencePageError)
deriving DecidableEq, Repr

def pageStateCode : PageState → UInt8
  | .free => 0
  | .hbmMutable => 1
  | .hbmTentative => 2
  | .hbmSealed => 3
  | .dramWriting => 4
  | .dramResident => 5
  | .nvmeWriting => 6
  | .nvmeResident => 7
  | .restoring => 8
  | .invalid => 9

def globalHashDomain : List UInt8 := "glmaxx.page-table-delta.v1".toUTF8.toList ++ [0]

def SequencePageUpdate.invariantBytes (update : SequencePageUpdate) : List UInt8 :=
  leBytes 8 update.requestId ++ [if update.mtp then 1 else 0] ++ leBytes 8 update.committedTokens
    ++ leBytes 1 update.tentativeTokens ++ leBytes 4 update.pageCountAfter
    ++ leBytes 4 update.firstChangedOrdinal ++ leBytes 4 update.changedPages.length

/-- The input of `hash_invariant_fields`. -/
def PageTableDelta.invariantBytes (delta : PageTableDelta) : List UInt8 :=
  leBytes 8 delta.generationBefore ++ leBytes 8 delta.generationAfter
    ++ leBytes 4 delta.updates.length ++ leBytes 4 delta.removedSequenceIds.length
    ++ delta.updates.flatMap (·.invariantBytes) ++ delta.removedSequenceIds.flatMap (leBytes 8)

/-- The input of `hash_page`. -/
def RankPageEntry.hashBytes (page : RankPageEntry) : List UInt8 :=
  leBytes 8 page.ordinal ++ leBytes 1 page.ownerRank ++ leBytes 4 page.targetLocalPageId
    ++ leBytes 4 (page.draftLocalPageId.getD (2 ^ 32 - 1)) ++ [pageStateCode page.state]
    ++ leBytes 1 page.validTokens

def validateGenerations (before after : Nat) : Except PageTableDeltaError Unit :=
  if before = 0 ∨ checkedAdd 64 before 1 ≠ some after then .error .generation else .ok ()

/-- No adjacent pair of the list has its first element at or above its second. -/
def strictlyAscending : List Nat → Bool
  | a :: b :: rest => decide (a < b) && strictlyAscending (b :: rest)
  | _ => true

namespace PageTableDelta

/-- The loop of `validate_shape` over the changed pages of one update, from `expected` on. -/
def validateChangedPages (mtp : Bool) : List RankPageEntry → Nat → Except PageTableDeltaError Unit
  | [], _ => pure ()
  | page :: rest, expected => do
    if page.ordinal ≠ expected ∨ page.ownerRank ≠ ownerRank page.ordinal ∨ page.validTokens = 0
        ∨ page.validTokens > pageTokens ∨ page.draftLocalPageId.isSome ≠ mtp
        ∨ ¬(page.state = .hbmMutable ∨ page.state = .hbmTentative ∨ page.state = .hbmSealed) then
      throw .page
    validateChangedPages mtp rest (expected + 1)

def validateUpdate (removed : List Nat) (update : SequencePageUpdate) :
    Except PageTableDeltaError Unit := do
  if update.requestId = 0 ∨ update.requestId ∈ removed ∨ update.tentativeTokens > 7
      ∨ update.committedTokens > maximumContextTokens
      ∨ update.firstChangedOrdinal > update.pageCountAfter
      ∨ update.pageCountAfter - update.firstChangedOrdinal ≠ update.changedPages.length then
    throw .shape
  validateChangedPages update.mtp update.changedPages update.firstChangedOrdinal

def validateShape (delta : PageTableDelta) : Except PageTableDeltaError Unit := do
  validateGenerations delta.generationBefore delta.generationAfter
  if (delta.updates.isEmpty ∧ delta.removedSequenceIds.isEmpty)
      ∨ delta.updates.length > maximumDeltaSequences
      ∨ delta.removedSequenceIds.length > maximumDeltaSequences
      ∨ ¬strictlyAscending (delta.updates.map (·.requestId))
      ∨ ¬strictlyAscending delta.removedSequenceIds then
    throw .shape
  delta.updates.forM (validateUpdate delta.removedSequenceIds)

def globalHashInput (delta : PageTableDelta) : List UInt8 :=
  globalHashDomain ++ delta.invariantBytes
    ++ delta.updates.flatMap fun update => update.changedPages.flatMap (·.hashBytes)

/-- SHA-256 enters as a parameter: nothing here depends on what it computes. -/
def computeGlobalDigest (sha256 : List UInt8 → Bytes32) (delta : PageTableDelta) : Bytes32 :=
  sha256 delta.globalHashInput

def verify (sha256 : List UInt8 → Bytes32) (delta : PageTableDelta) :
    Except PageTableDeltaError Unit := do
  delta.validateShape
  if delta.computeGlobalDigest sha256 ≠ delta.globalDigest then
    throw .digest

end PageTableDelta

/-- `expected_state` of a page while nothing is reserved. -/
def idleState (isLast : Bool) (validTokens : Nat) : PageState :=
  if isLast ∧ validTokens < pageTokens then .hbmMutable else .hbmSealed

/-- The checks of `validate_sequence` on one page, against the local ids seen so far. -/
def validatePage (sequence : NormalizedSequence) (page : RankPageEntry) (ordinal : Nat)
    (targetIds draftIds : Finset (Fin 4 × Nat)) : Except PageTableDeltaError Unit :=
  let isLast := decide (ordinal + 1 = sequence.pages.length)
  if page.ordinal ≠ ordinal ∨ page.ownerRank ≠ ownerRank ordinal ∨ page.validTokens = 0
      ∨ page.validTokens > pageTokens ∨ page.draftLocalPageId.isSome ≠ sequence.mtp
      ∨ (page.ownerRank, page.targetLocalPageId) ∈ targetIds
      ∨ page.draftLocalPageId.any (fun draft => decide ((page.ownerRank, draft) ∈ draftIds)) then
    throw .page
  else if sequence.tentativeTokens = 0 ∧ page.state ≠ idleState isLast page.validTokens then
    throw .page
  else if sequence.tentativeTokens ≠ 0 ∧ ¬(page.state = .hbmSealed ∨ page.state = .hbmTentative) then
    throw .page
  else if ¬isLast ∧ page.validTokens ≠ pageTokens then
    throw .page
  else
    pure ()

/-- The page loop of `validate_sequence` from `ordinal` on, with the positions counted so far. -/
def validatePages (sequence : NormalizedSequence) : List RankPageEntry → Nat → Nat →
    Finset (Fin 4 × Nat) → Finset (Fin 4 × Nat) → Except PageTableDeltaError Nat
  | [], _, validPositions, _, _ => pure validPositions
  | page :: rest, ordinal, validPositions, targetIds, draftIds => do
    validatePage sequence page ordinal targetIds draftIds
    let validPositions ← okOr (checkedAdd 64 validPositions page.validTokens) .overflow
    validatePages sequence rest (ordinal + 1) validPositions
      (insert (page.ownerRank, page.targetLocalPageId) targetIds)
      (page.draftLocalPageId.elim draftIds fun draft => insert (page.ownerRank, draft) draftIds)

def validateSequence (sequence : NormalizedSequence) : Except PageTableDeltaError Unit := do
  let positions ← okOr ((checkedAdd 64 sequence.committedTokens sequence.tentativeTokens).filter
    (· ≤ maximumContextTokens)) .overflow
  if sequence.pages.length ≠ SequencePageTable.pageCount positions then
    throw .shape
  let validPositions ← validatePages sequence sequence.pages 0 0 ∅ ∅
  if validPositions ≠ positions ∨ (sequence.tentativeTokens ≠ 0
      ∧ ¬sequence.pages.any (fun page => decide (page.state = .hbmTentative))) then
    throw .page

def normalizeSnapshot (snapshot : SequencePageSnapshot) :
    Except PageTableDeltaError (Nat × NormalizedSequence) := do
  let sequence : NormalizedSequence :=
    { mtp := snapshot.mtp, committedTokens := snapshot.committedTokens,
      tentativeTokens := snapshot.tentativeTokens,
      pages := snapshot.pages.map RankPageEntry.fromView }
  validateSequence sequence
  pure (snapshot.sequenceId, sequence)

def normalizedSnapshots (table : SequencePageTable) :
    Except PageTableDeltaError (ExtTreeMap Nat NormalizedSequence) := do
  let snapshots ← table.snapshots.mapError .table
  let entries ← snapshots.mapM normalizeSnapshot
  pure (collectMap entries)

def commonPrefix : List RankPageEntry → List RankPageEntry → Nat
  | left :: lefts, right :: rights => if left = right then commonPrefix lefts rights + 1 else 0
  | _, _ => 0

/-- The update that `between` writes for a live sequence, unless nothing changed. -/
def sequenceUpdate (before : ExtTreeMap Nat NormalizedSequence) (entry : Nat × NormalizedSequence) :
    Except PageTableDeltaError (Option SequencePageUpdate) := do
  let (requestId, next) := entry
  let prior := before[requestId]?
  if prior = some next then
    return none
  let firstChanged := prior.elim 0 fun prior => commonPrefix prior.pages next.pages
  let firstChangedOrdinal ← okOr (narrow 32 firstChanged) .overflow
  let pageCountAfter ← okOr (narrow 32 next.pages.length) .overflow
  pure (some { requestId, mtp := next.mtp, committedTokens := next.committedTokens,
               tentativeTokens := next.tentativeTokens, pageCountAfter, firstChangedOrdinal,
               changedPages := next.pages.drop firstChanged })

def PageTableDelta.between (sha256 : List UInt8 → Bytes32) (before after : SequencePageTable)
    (generationBefore generationAfter : Nat) : Except PageTableDeltaError PageTableDelta := do
  validateGenerations generationBefore generationAfter
  if before.config ≠ after.config then
    throw .shape
  let before ← normalizedSnapshots before
  let after ← normalizedSnapshots after
  let removedSequenceIds := before.keys.filter fun requestId => !after.contains requestId
  let updates ← after.toList.mapM (sequenceUpdate before)
  let delta : PageTableDelta :=
    { generationBefore, generationAfter, updates := updates.reduceOption, removedSequenceIds,
      globalDigest := Bytes32.zero }
  delta.validateShape
  pure { delta with globalDigest := delta.computeGlobalDigest sha256 }

namespace PageTableMirror

/-- The pages by physical id, and the physical ids by draft id, that `validate` has met. -/
abbrev SeenIds := ExtTreeMap PhysicalPageId RankPageEntry × ExtTreeMap PhysicalPageId PhysicalPageId

def recordDraft (page : RankPageEntry) (id : PhysicalPageId)
    (draft : ExtTreeMap PhysicalPageId PhysicalPageId) :
    Except PageTableDeltaError (ExtTreeMap PhysicalPageId PhysicalPageId) :=
  match page.draftLocalPageId with
  | none => pure draft
  | some draftLocalPageId =>
    let key : PhysicalPageId := ⟨page.ownerRank, draftLocalPageId⟩
    if draft[key]?.any (fun prior => decide (prior ≠ id)) then throw .collision
    else pure (draft.insert key id)

/-- The body of the page loop of `validate`. -/
def recordIds (config : PageTableConfig) (page : RankPageEntry) (seen : SeenIds) :
    Except PageTableDeltaError SeenIds :=
  let id : PhysicalPageId := ⟨page.ownerRank, page.targetLocalPageId⟩
  if page.targetLocalPageId ≥ config.targetPagesPerRank
      ∨ page.draftLocalPageId.any (fun draft => decide (draft ≥ config.draftPagesPerRank)) then
    throw .page
  else if seen.1[id]?.any (fun prior => decide (prior ≠ page)) then
    throw .collision
  else do
    let draft ← recordDraft page id seen.2
    pure (seen.1.insert id page, draft)

/-- The sequence loop of `validate`. -/
def validateSequences (config : PageTableConfig) : List (Nat × NormalizedSequence) → SeenIds →
    Except PageTableDeltaError Unit
  | [], _ => pure ()
  | (requestId, sequence) :: rest, seen => do
    if requestId = 0 then
      throw .sequence
    validateSequence sequence
    let seen ← sequence.pages.foldlM (fun seen page => recordIds config page seen) seen
    validateSequences config rest seen

def validate (mirror : PageTableMirror) : Except PageTableDeltaError Unit := do
  if mirror.generation = 0 ∨ mirror.sequences.size > maximumDeltaSequences then
    throw .shape
  validateSequences mirror.config mirror.sequences.toList (∅, ∅)

def fromTable (table : SequencePageTable) (generation : Nat) :
    Except PageTableDeltaError PageTableMirror := do
  if generation = 0 then
    throw .generation
  let mirror : PageTableMirror :=
    { config := table.config, generation, sequences := ← normalizedSnapshots table }
  mirror.validate
  pure mirror

def removeSequences : List Nat → ExtTreeMap Nat NormalizedSequence →
    Except PageTableDeltaError (ExtTreeMap Nat NormalizedSequence)
  | [], sequences => pure sequences
  | requestId :: rest, sequences =>
    if requestId ∈ sequences then removeSequences rest (sequences.erase requestId)
    else throw .sequence

def updatedSequence (prior : Option NormalizedSequence) (update : SequencePageUpdate) :
    Except PageTableDeltaError NormalizedSequence :=
  match prior with
  | some sequence =>
    if sequence.mtp ≠ update.mtp ∨ update.firstChangedOrdinal > sequence.pages.length then
      throw .sequence
    else
      pure { sequence with
        pages := sequence.pages.take update.firstChangedOrdinal ++ update.changedPages
        committedTokens := update.committedTokens
        tentativeTokens := update.tentativeTokens }
  | none =>
    if update.firstChangedOrdinal ≠ 0 then throw .sequence
    else
      pure { mtp := update.mtp, committedTokens := update.committedTokens,
             tentativeTokens := update.tentativeTokens, pages := update.changedPages }

def updateSequences : List SequencePageUpdate → ExtTreeMap Nat NormalizedSequence →
    Except PageTableDeltaError (ExtTreeMap Nat NormalizedSequence)
  | [], sequences => pure sequences
  | update :: rest, sequences => do
    let sequence ← updatedSequence sequences[update.requestId]? update
    if sequence.pages.length ≠ update.pageCountAfter then
      throw .shape
    updateSequences rest (sequences.insert update.requestId sequence)

/-- The mirror that `apply` adopts. On an error the source leaves the mirror as it was. -/
def apply (sha256 : List UInt8 → Bytes32) (mirror : PageTableMirror) (delta : PageTableDelta) :
    Except PageTableDeltaError PageTableMirror := do
  delta.verify sha256
  if mirror.generation ≠ delta.generationBefore then
    throw .generation
  let sequences ← removeSequences delta.removedSequenceIds mirror.sequences
  let sequences ← updateSequences delta.updates sequences
  let candidate : PageTableMirror :=
    { mirror with sequences, generation := delta.generationAfter }
  candidate.validate
  pure candidate

end PageTableMirror

end Glmaxx.Cache
