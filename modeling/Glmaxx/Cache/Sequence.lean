import Glmaxx.Library.TreeMap
import Glmaxx.Cache.Tier

namespace Glmaxx.Cache
open Std Library

def maximumContextTokens : Nat := 1048576
def maximumPhysicalPagesPerRank : Nat := 1048576

structure PhysicalPageId where
  ownerRank : Fin 4
  targetLocalPageId : Nat
deriving DecidableEq, Repr

instance : Ord PhysicalPageId :=
  ⟨compareLex (compareOn PhysicalPageId.ownerRank) (compareOn PhysicalPageId.targetLocalPageId)⟩

instance : TransOrd PhysicalPageId :=
  inferInstanceAs (TransCmp (compareLex (compareOn PhysicalPageId.ownerRank)
    (compareOn PhysicalPageId.targetLocalPageId)))

instance : LawfulEqOrd PhysicalPageId where
  eq_of_compare {a b} equal := by
    have lex : compareLex (compareOn PhysicalPageId.ownerRank)
        (compareOn PhysicalPageId.targetLocalPageId) a b = .eq := equal
    simp only [compareLex_eq_eq, compareOn, Std.compare_eq_iff_eq] at lex
    cases a
    cases b
    simp_all

abbrev PrefixPageKey := Bytes32

structure PrefixPageAttachment where
  nameSpace : Bytes32
  key : PrefixPageKey
  generation : UInt64
  targetKvSha256 : Bytes32
  targetIndexerSha256 : Bytes32
  draftSidecarSha256 : Option Bytes32
deriving DecidableEq

inductive SequencePageError where
  | config
  | sequence
  | prefixPage
  | missingDraft
  | capacity
  | state
  | transaction
  | invariant
  | overflow
  | transition (failure : PageTransitionError)
  | tier (failure : TierError)
deriving DecidableEq, Repr

def PrefixPageAttachment.hasDraft (attachment : PrefixPageAttachment) : Bool :=
  attachment.draftSidecarSha256.isSome

inductive AttachmentRelation where
  | exact
  | retainDraft
  | draftUpgrade
deriving DecidableEq, Repr

def PrefixPageAttachment.relationTo (self candidate : PrefixPageAttachment) :
    Except SequencePageError AttachmentRelation :=
  if self.nameSpace ≠ candidate.nameSpace ∨ self.key ≠ candidate.key
      ∨ self.targetKvSha256 ≠ candidate.targetKvSha256
      ∨ self.targetIndexerSha256 ≠ candidate.targetIndexerSha256 then
    .error .prefixPage
  else
    match self.draftSidecarSha256, candidate.draftSidecarSha256 with
    | none, none => .ok .exact
    | some _, none => .ok .retainDraft
    | none, some _ =>
      if candidate.generation > self.generation then .ok .draftUpgrade else .error .prefixPage
    | some current, some next => if current = next then .ok .exact else .error .prefixPage

def pieceHash (record : TierRecord) (piece : TierPiece) : Except SequencePageError Bytes32 :=
  okOr ((record.pieces.find? (·.piece = piece)).map (·.sha256)) .prefixPage

def PrefixPageAttachment.fromTierRecord (record : TierRecord) :
    Except SequencePageError PrefixPageAttachment := do
  record.validate.mapError .tier
  let targetKvSha256 ← pieceHash record .targetKv
  let targetIndexerSha256 ← pieceHash record .targetIndexer
  let draftSidecarSha256 ←
    if record.mtp then some <$> pieceHash record .draftSidecar else pure none
  pure { nameSpace := record.nameSpace, key := record.pageKey, generation := record.generation,
         targetKvSha256, targetIndexerSha256, draftSidecarSha256 }

structure PageTableConfig where
  targetPagesPerRank : Nat
  draftPagesPerRank : Nat
deriving DecidableEq, Repr

structure SequencePageView where
  ordinal : Nat
  physical : PhysicalPageId
  draftLocalPageId : Option Nat
  state : PageState
  validTokens : Nat
  references : Nat
  sharedPrefix : Bool
deriving DecidableEq, Repr

structure SequencePageSnapshot where
  sequenceId : Nat
  mtp : Bool
  committedTokens : Nat
  tentativeTokens : Nat
  pages : List SequencePageView
deriving DecidableEq, Repr

structure PageReuseQuarantineStats where
  targetPages : Fin 4 → Nat
  draftPages : Fin 4 → Nat
  boundGeneration : Option Nat

def PageReuseQuarantineStats.isEmpty (stats : PageReuseQuarantineStats) : Prop :=
  stats.targetPages = (fun _ => 0) ∧ stats.draftPages = (fun _ => 0)

instance (stats : PageReuseQuarantineStats) : Decidable stats.isEmpty :=
  inferInstanceAs (Decidable (_ ∧ _))

structure PhysicalPage where
  draftLocalPageId : Option Nat
  state : PageState
  validTokens : Nat
  references : Nat
  prefixPage : Option (PrefixPageAttachment × Nat)
deriving DecidableEq

structure SequencePage where
  ordinal : Nat
  physical : PhysicalPageId
deriving DecidableEq, Repr

structure TentativeTail where
  originalCommittedTokens : Nat
  originalPageCount : Nat
  originalTailTokens : Nat
  reservedTokens : Nat
deriving DecidableEq, Repr

structure Sequence where
  mtp : Bool
  committedTokens : Nat
  pages : List SequencePage
  tentative : Option TentativeTail
deriving DecidableEq, Repr

/-- The CPU metadata oracle for the active KV page table. The four rank arenas are functions of
the rank; `BTreeSet<u32>` is a finite set, and `BTreeMap` an extensional tree map. -/
structure SequencePageTable where
  config : PageTableConfig
  freeTarget : Fin 4 → Finset Nat
  freeDraft : Fin 4 → Finset Nat
  quarantinedTarget : Fin 4 → Finset Nat
  quarantinedDraft : Fin 4 → Finset Nat
  quarantineGeneration : Option Nat
  physical : ExtTreeMap PhysicalPageId PhysicalPage
  prefixes : ExtTreeMap PrefixPageKey PhysicalPageId
  sequences : ExtTreeMap Nat Sequence

/-- `BTreeSet::pop_first`. -/
def popFirst (ids : Finset Nat) : Option (Nat × Finset Nat) :=
  if nonempty : ids.Nonempty then some (ids.min' nonempty, ids.erase (ids.min' nonempty)) else none

/-- `sets[rank].insert(id)`. -/
def insertId (sets : Fin 4 → Finset Nat) (rank : Fin 4) (id : Nat) : Fin 4 → Finset Nat :=
  Function.update sets rank (insert id (sets rank))

def maximumPages : Nat := maximumContextTokens / pageTokens

/-- A mutation run on a snapshot: `*self = snapshot` undoes it when it fails. -/
def transact (table : SequencePageTable)
    (body : SequencePageTable → Except SequencePageError SequencePageTable) :
    Except SequencePageError Unit × SequencePageTable :=
  match body table with
  | .ok next => (.ok (), next)
  | .error failure => (.error failure, table)

namespace SequencePageTable

def new (config : PageTableConfig) : Except SequencePageError SequencePageTable :=
  if config.targetPagesPerRank = 0
      ∨ config.targetPagesPerRank > maximumPhysicalPagesPerRank
      ∨ config.draftPagesPerRank > config.targetPagesPerRank then
    .error .config
  else
    .ok { config
          freeTarget := fun _ => Finset.range config.targetPagesPerRank
          freeDraft := fun _ => Finset.range config.draftPagesPerRank
          quarantinedTarget := fun _ => ∅
          quarantinedDraft := fun _ => ∅
          quarantineGeneration := none
          physical := ∅
          prefixes := ∅
          sequences := ∅ }

def reuseQuarantineStats (table : SequencePageTable) : PageReuseQuarantineStats where
  targetPages rank := (table.quarantinedTarget rank).card
  draftPages rank := (table.quarantinedDraft rank).card
  boundGeneration := table.quarantineGeneration

def requireUnboundQuarantine (table : SequencePageTable) : Except SequencePageError Unit :=
  if table.quarantineGeneration.isSome then .error .transaction else .ok ()

def bindReuseQuarantine (table : SequencePageTable) (generation : Nat) :
    Except SequencePageError Bool × SequencePageTable :=
  if generation = 0 ∨ table.quarantineGeneration.isSome then
    (.error .transaction, table)
  else if table.reuseQuarantineStats.isEmpty then
    (.ok false, table)
  else
    (.ok true, { table with quarantineGeneration := some generation })

def acknowledgeReuseQuarantine (table : SequencePageTable) (generation : Nat) :
    Except SequencePageError PageReuseQuarantineStats × SequencePageTable :=
  if table.quarantineGeneration ≠ some generation then
    (.error .transaction, table)
  else
    (.ok table.reuseQuarantineStats,
      { table with
        freeTarget := fun rank => table.freeTarget rank ∪ table.quarantinedTarget rank
        freeDraft := fun rank => table.freeDraft rank ∪ table.quarantinedDraft rank
        quarantinedTarget := fun _ => ∅
        quarantinedDraft := fun _ => ∅
        quarantineGeneration := none })

/-- `self.physical.get_mut(&physical).ok_or(Invariant)?`, then an assignment through it. -/
def updatePage (table : SequencePageTable) (physical : PhysicalPageId)
    (update : PhysicalPage → Except SequencePageError PhysicalPage) :
    Except SequencePageError SequencePageTable := do
  let page ← okOr table.physical[physical]? .invariant
  let page ← update page
  pure { table with physical := table.physical.insert physical page }

/-- `self.sequences.get_mut(&sequence_id).ok_or(Sequence)?`, then an assignment through it. -/
def updateSequence (table : SequencePageTable) (sequenceId : Nat) (update : Sequence → Sequence) :
    Except SequencePageError SequencePageTable := do
  let sequence ← okOr table.sequences[sequenceId]? .sequence
  pure { table with sequences := table.sequences.insert sequenceId (update sequence) }

/-- Failures leave `table` to the caller's snapshot, so the target id that the source puts back
when no draft id is left needs no branch of its own. -/
def allocatePage (table : SequencePageTable) (ordinal : Nat) (mtp : Bool) :
    Except SequencePageError (PhysicalPageId × SequencePageTable) := do
  let rank := ownerRank ordinal
  let (target, freeTarget) ← okOr (popFirst (table.freeTarget rank)) .capacity
  let table := { table with freeTarget := Function.update table.freeTarget rank freeTarget }
  let (draft, table) ←
    if mtp then do
      let (draft, freeDraft) ← okOr (popFirst (table.freeDraft rank)) .capacity
      pure (some draft, { table with freeDraft := Function.update table.freeDraft rank freeDraft })
    else
      pure (none, table)
  let physical : PhysicalPageId := ⟨rank, target⟩
  let state ← (PageState.free.transition .hbmMutable).mapError .transition
  if physical ∈ table.physical then
    throw .invariant
  let page : PhysicalPage :=
    { draftLocalPageId := draft, state, validTokens := 0, references := 1, prefixPage := none }
  pure (physical, { table with physical := table.physical.insert physical page })

def releasePage (table : SequencePageTable) (physical : PhysicalPageId) :
    Except SequencePageError SequencePageTable := do
  let page ← okOr table.physical[physical]? .invariant
  let references ← okOr (checkedSub page.references 1) .invariant
  if references ≠ 0 then
    return { table with physical := table.physical.insert physical { page with references } }
  let table := { table with physical := table.physical.erase physical }
  let table ←
    match page.prefixPage with
    | some (attachment, _) =>
      if table.prefixes[attachment.key]? ≠ some physical then
        throw .invariant
      else
        pure { table with prefixes := table.prefixes.erase attachment.key }
    | none => pure table
  let rank := physical.ownerRank
  if physical.targetLocalPageId ∈ table.freeTarget rank
      ∨ physical.targetLocalPageId ∈ table.quarantinedTarget rank then
    throw .invariant
  let quarantinedTarget := insertId table.quarantinedTarget rank physical.targetLocalPageId
  let table := { table with quarantinedTarget }
  match page.draftLocalPageId with
  | some draft =>
    if draft ∈ table.freeDraft rank ∨ draft ∈ table.quarantinedDraft rank then
      throw .invariant
    pure { table with quarantinedDraft := insertId table.quarantinedDraft rank draft }
  | none => pure table

def addReference (table : SequencePageTable) (physical : PhysicalPageId) :
    Except SequencePageError SequencePageTable :=
  table.updatePage physical fun page => do
    let references ← okOr (checkedAdd 32 page.references 1) .overflow
    pure { page with references }

def upgradeAttachment (table : SequencePageTable) (physical : PhysicalPageId)
    (relation : AttachmentRelation) (attachment : PrefixPageAttachment) (ordinal : Nat) :
    Except SequencePageError SequencePageTable :=
  if relation = .draftUpgrade then
    table.updatePage physical fun page => pure { page with prefixPage := some (attachment, ordinal) }
  else
    pure table

-- `self.physical[&physical]` panics on an absent page, like the `Invariant` branches around it
def ensureDraft (table : SequencePageTable) (mtp : Bool) (physical : PhysicalPageId) :
    Except SequencePageError SequencePageTable := do
  let page ← okOr table.physical[physical]? .invariant
  if mtp && page.draftLocalPageId.isNone then
    let rank := physical.ownerRank
    let (draft, freeDraft) ← okOr (popFirst (table.freeDraft rank)) .capacity
    let table := { table with freeDraft := Function.update table.freeDraft rank freeDraft }
    table.updatePage physical fun page => pure { page with draftLocalPageId := some draft }
  else
    pure table

/-- An attachment whose key already names a page: the page gains a reference, and the draft
attachment or the draft id it lacks. -/
def attachPage (table : SequencePageTable) (mtp : Bool) (attachment : PrefixPageAttachment)
    (ordinal : Nat) (physical : PhysicalPageId) :
    Except SequencePageError (PhysicalPageId × SequencePageTable) := do
  let valid := match table.physical[physical]? with
    | none => false
    | some page =>
      page.state = .hbmSealed && page.validTokens = pageTokens
        && physical.ownerRank = ownerRank ordinal
        && match page.prefixPage with
          | none => false
          | some (current, currentOrdinal) =>
            currentOrdinal = ordinal && (current.relationTo attachment).isOk
  if !valid then
    throw .prefixPage
  let (current, _) ← okOr (table.physical[physical]?.bind (·.prefixPage)) .invariant
  let relation ← current.relationTo attachment
  let table ← table.upgradeAttachment physical relation attachment ordinal
  let table ← table.ensureDraft mtp physical
  let table ← table.addReference physical
  pure (physical, table)

/-- An attachment with a new key: a restored page is allocated and sealed for it. -/
def restorePage (table : SequencePageTable) (mtp : Bool) (attachment : PrefixPageAttachment)
    (ordinal : Nat) : Except SequencePageError (PhysicalPageId × SequencePageTable) := do
  let (physical, table) ← table.allocatePage ordinal mtp
  let table ← table.updatePage physical fun page => do
    let state ← (page.state.transition .hbmSealed).mapError .transition
    pure { page with validTokens := pageTokens, state, prefixPage := some (attachment, ordinal) }
  pure (physical, { table with prefixes := table.prefixes.insert attachment.key physical })

/-- The loop of `admit_with_prefix` over the attachments from `ordinal` on, with the pages
collected and the keys seen so far. -/
def admitPages (mtp : Bool) : List PrefixPageAttachment → Nat → List SequencePage →
    Finset PrefixPageKey → SequencePageTable →
    Except SequencePageError (List SequencePage × SequencePageTable)
  | [], _, pages, _, table => pure (pages, table)
  | attachment :: rest, ordinal, pages, seen, table => do
    let key := attachment.key
    if mtp && !attachment.hasDraft then
      throw .missingDraft
    if key ∈ seen then
      throw .prefixPage
    let (physical, table) ←
      match table.prefixes[key]? with
      | some physical => table.attachPage mtp attachment ordinal physical
      | none => table.restorePage mtp attachment ordinal
    admitPages mtp rest (ordinal + 1) (pages ++ [⟨ordinal, physical⟩]) (insert key seen) table

def admitWithPrefix (table : SequencePageTable) (sequenceId : Nat) (mtp : Bool)
    (prefixPages : List PrefixPageAttachment) : Except SequencePageError Unit × SequencePageTable :=
  match table.requireUnboundQuarantine with
  | .error failure => (.error failure, table)
  | .ok () =>
    if sequenceId = 0 ∨ sequenceId ∈ table.sequences ∨ prefixPages.length > maximumPages then
      (.error .sequence, table)
    else
      transact table fun table => do
        let (pages, table) ← admitPages mtp prefixPages 0 [] ∅ table
        let committedTokens ← okOr (checkedMul 64 prefixPages.length pageTokens) .overflow
        let sequence : Sequence := { mtp, committedTokens, pages, tentative := none }
        pure { table with sequences := table.sequences.insert sequenceId sequence }

/-- `append_committed_inner` seals a page when it becomes full. -/
def sealFull (state : PageState) (validTokens : Nat) : Except SequencePageError PageState :=
  if validTokens = pageTokens then (state.transition .hbmSealed).mapError .transition else pure state

/-- The tail step of `append_committed_inner`: fills a mutable tail page and returns the tokens
left over for new pages. -/
def fillTail (table : SequencePageTable) (physical : PhysicalPageId) (remaining : Nat) :
    Except SequencePageError (Nat × SequencePageTable) := do
  let page ← okOr table.physical[physical]? .invariant
  if page.state = .hbmMutable ∧ page.references = 1 ∧ page.validTokens < pageTokens then
    let available ← okOr (checkedSub pageTokens page.validTokens) .invariant
    let appended ← okOr (narrow 8 (min remaining available)) .overflow
    let validTokens ← okOr (checkedAdd 8 page.validTokens appended) .overflow
    let state ← sealFull page.state validTokens
    let remaining ← okOr (checkedSub remaining appended) .invariant
    let page := { page with validTokens, state }
    pure (remaining, { table with physical := table.physical.insert physical page })
  else if page.state ≠ .hbmSealed ∨ page.validTokens ≠ pageTokens then
    throw .state
  else
    pure (remaining, table)

/-- The page loop of `append_committed_inner`. Every round consumes a token, so that `remaining`
itself is fuel enough. -/
def appendPages (sequenceId : Nat) : Nat → Nat → SequencePageTable →
    Except SequencePageError SequencePageTable
  | 0, _, table => pure table
  | fuel + 1, remaining, table =>
    if remaining = 0 then
      pure table
    else do
      let sequence ← okOr table.sequences[sequenceId]? .invariant
      let ordinal := sequence.pages.length
      let (physical, table) ← table.allocatePage ordinal sequence.mtp
      let appended ← okOr (narrow 8 (min remaining pageTokens)) .overflow
      let table ← table.updatePage physical fun page => do
        let state ← sealFull page.state appended
        pure { page with validTokens := appended, state }
      let table ← table.updateSequence sequenceId fun sequence =>
        { sequence with pages := sequence.pages ++ [⟨ordinal, physical⟩] }
      let remaining ← okOr (checkedSub remaining appended) .invariant
      appendPages sequenceId fuel remaining table

def appendCommittedInner (table : SequencePageTable) (sequenceId tokenCount : Nat) :
    Except SequencePageError SequencePageTable := do
  let sequence ← okOr table.sequences[sequenceId]? .sequence
  let newCommittedTokens ← okOr ((checkedAdd 64 sequence.committedTokens tokenCount).filter
    (· ≤ maximumContextTokens)) .transaction
  if sequence.tentative.isSome then
    throw .transaction
  let (remaining, table) ←
    match sequence.pages.getLast? with
    | some tail => table.fillTail tail.physical tokenCount
    | none => pure (tokenCount, table)
  let table ← appendPages sequenceId remaining remaining table
  table.updateSequence sequenceId fun sequence =>
    { sequence with committedTokens := newCommittedTokens }

def appendCommitted (table : SequencePageTable) (sequenceId tokenCount : Nat) :
    Except SequencePageError Unit × SequencePageTable :=
  match table.requireUnboundQuarantine with
  | .error failure => (.error failure, table)
  | .ok () =>
    if tokenCount = 0 then
      (.ok (), table)
    else
      transact table fun table => table.appendCommittedInner sequenceId tokenCount

/-- The loop of `fork_sequence` over the pages of the source sequence. -/
def forkPages (mtp : Bool) : List SequencePage → List SequencePage → SequencePageTable →
    Except SequencePageError (List SequencePage × SequencePageTable)
  | [], pages, table => pure (pages, table)
  | sourcePage :: rest, pages, table => do
    let page ← okOr table.physical[sourcePage.physical]? .invariant
    if page.state = .hbmSealed ∧ page.validTokens = pageTokens then
      let table ← table.addReference sourcePage.physical
      forkPages mtp rest (pages ++ [sourcePage]) table
    else if page.state = .hbmMutable ∧ page.validTokens < pageTokens ∧ page.references = 1 then
      let (physical, table) ← table.allocatePage sourcePage.ordinal mtp
      let table ← table.updatePage physical fun fresh =>
        pure { fresh with validTokens := page.validTokens }
      forkPages mtp rest (pages ++ [⟨sourcePage.ordinal, physical⟩]) table
    else
      throw .state

def forkSequence (table : SequencePageTable) (sourceId destinationId : Nat) :
    Except SequencePageError Unit × SequencePageTable :=
  match table.requireUnboundQuarantine with
  | .error failure => (.error failure, table)
  | .ok () =>
    if destinationId = 0 ∨ destinationId ∈ table.sequences then
      (.error .sequence, table)
    else
      match table.sequences[sourceId]? with
      | none => (.error .sequence, table)
      | some source =>
        if source.tentative.isSome then
          (.error .transaction, table)
        else
          transact table fun table => do
            let (pages, table) ← forkPages source.mtp source.pages [] table
            let sequence : Sequence :=
              { mtp := source.mtp, committedTokens := source.committedTokens, pages,
                tentative := none }
            pure { table with sequences := table.sequences.insert destinationId sequence }

def needsPage (table : SequencePageTable) (sequence : Sequence) : Except SequencePageError Bool :=
  match sequence.pages.getLast? with
  | none => pure true
  | some entry => do
    let page ← okOr table.physical[entry.physical]? .invariant
    pure (decide (page.validTokens = pageTokens))

/-- The first half of a round of `reserve_tentative`: a sequence with no room for a token on its
last page gets a new page. -/
def openTail (table : SequencePageTable) (sequenceId : Nat) :
    Except SequencePageError SequencePageTable := do
  let sequence ← okOr table.sequences[sequenceId]? .invariant
  if ← table.needsPage sequence then
    let ordinal := sequence.pages.length
    let (physical, table) ← table.allocatePage ordinal sequence.mtp
    table.updateSequence sequenceId fun sequence =>
      { sequence with pages := sequence.pages ++ [⟨ordinal, physical⟩] }
  else
    pure table

def reserveToken (page : PhysicalPage) : Except SequencePageError PhysicalPage := do
  if page.references ≠ 1 ∨ ¬(page.state = .hbmMutable ∨ page.state = .hbmTentative) then
    throw .state
  let state ←
    if page.state = .hbmMutable then (page.state.transition .hbmTentative).mapError .transition
    else pure page.state
  let validTokens ← okOr (checkedAdd 8 page.validTokens 1) .overflow
  pure { page with state, validTokens }

/-- `reserve_tentative`, one requested token a round. -/
def reserveTentative (sequenceId : Nat) : Nat → SequencePageTable →
    Except SequencePageError SequencePageTable
  | 0, table => pure table
  | requested + 1, table => do
    let table ← table.openTail sequenceId
    let sequence ← okOr table.sequences[sequenceId]? .invariant
    let tail ← okOr sequence.pages.getLast? .invariant
    let table ← table.updatePage tail.physical reserveToken
    reserveTentative sequenceId requested table

def beginTentative (table : SequencePageTable) (sequenceId requestedTokens : Nat) :
    Except SequencePageError Unit × SequencePageTable :=
  match table.requireUnboundQuarantine with
  | .error failure => (.error failure, table)
  | .ok () =>
    if requestedTokens = 0 ∨ requestedTokens > 7 then
      (.error .transaction, table)
    else
      transact table fun table => do
        let sequence ← okOr table.sequences[sequenceId]? .sequence
        if sequence.tentative.isSome
            ∨ (checkedAdd 64 sequence.committedTokens requestedTokens).all
                (· > maximumContextTokens) then
          throw .transaction
        let originalTailTokens :=
          ((sequence.pages.getLast?.bind fun page => table.physical[page.physical]?).map
            (·.validTokens)).getD 0
        let tail : TentativeTail :=
          { originalCommittedTokens := sequence.committedTokens
            originalPageCount := sequence.pages.length
            originalTailTokens
            reservedTokens := requestedTokens }
        let table ← reserveTentative sequenceId requestedTokens table
        table.updateSequence sequenceId fun sequence => { sequence with tentative := some tail }

/-- Pops and releases `count` pages off the end of a sequence: the loop of
`rollback_tentative_inner` and the first loop of `commit_tentative_inner`. -/
def popPages (sequenceId : Nat) : Nat → SequencePageTable →
    Except SequencePageError SequencePageTable
  | 0, table => pure table
  | count + 1, table => do
    let sequence ← okOr table.sequences[sequenceId]? .sequence
    let page ← okOr sequence.pages.getLast? .invariant
    let sequence := { sequence with pages := sequence.pages.dropLast }
    let table := { table with sequences := table.sequences.insert sequenceId sequence }
    let table ← table.releasePage page.physical
    popPages sequenceId count table

def rollbackPage (originalTailTokens : Nat) (page : PhysicalPage) :
    Except SequencePageError PhysicalPage :=
  if page.state = .hbmTentative then do
    let state ← (page.state.transition .hbmMutable).mapError .transition
    pure { page with state, validTokens := originalTailTokens }
  else if page.validTokens ≠ pageTokens ∨ page.state ≠ .hbmSealed then
    throw .state
  else
    pure page

def rollbackTail (table : SequencePageTable) (sequenceId : Nat) (transaction : TentativeTail) :
    Except SequencePageError SequencePageTable :=
  if transaction.originalPageCount ≠ 0 then do
    let sequence ← okOr table.sequences[sequenceId]? .invariant
    let tail ← okOr sequence.pages.getLast? .invariant
    table.updatePage tail.physical (rollbackPage transaction.originalTailTokens)
  else
    pure table

def rollbackTentativeInner (table : SequencePageTable) (sequenceId : Nat) :
    Except SequencePageError SequencePageTable := do
  let sequence ← okOr table.sequences[sequenceId]? .transaction
  let transaction ← okOr sequence.tentative .transaction
  let sequence := { sequence with tentative := none }
  let table := { table with sequences := table.sequences.insert sequenceId sequence }
  let extraPages ← okOr (checkedSub sequence.pages.length transaction.originalPageCount) .invariant
  let table ← popPages sequenceId extraPages table
  let table ← table.rollbackTail sequenceId transaction
  table.updateSequence sequenceId fun sequence =>
    { sequence with committedTokens := transaction.originalCommittedTokens }

def rollbackTentative (table : SequencePageTable) (sequenceId : Nat) :
    Except SequencePageError Unit × SequencePageTable :=
  match table.requireUnboundQuarantine with
  | .error failure => (.error failure, table)
  | .ok () =>
    transact table fun table => table.rollbackTentativeInner sequenceId

/-- `new_committed_tokens.div_ceil(PAGE_TOKENS)`. -/
def pageCount (tokens : Nat) : Nat := (tokens + pageTokens - 1) / pageTokens

/-- `expected_valid` of a page that a commit keeps. -/
def expectedTokens (newCommittedTokens desiredPageCount ordinal : Nat) :
    Except SequencePageError Nat :=
  if ordinal + 1 = desiredPageCount then
    let tail := newCommittedTokens % pageTokens
    if tail = 0 then pure pageTokens else okOr (narrow 8 tail) .overflow
  else
    pure pageTokens

def settlePage (expectedValid : Nat) (page : PhysicalPage) :
    Except SequencePageError PhysicalPage :=
  let expectedState := if expectedValid = pageTokens then .hbmSealed else .hbmMutable
  if page.state = .hbmTentative then do
    let state ← (page.state.transition expectedState).mapError .transition
    pure { page with state, validTokens := expectedValid }
  else if page.state ≠ expectedState ∨ page.validTokens ≠ expectedValid then
    throw .state
  else
    pure page

/-- The second loop of `commit_tentative_inner`, from `ordinal` on, over the pages that stay. -/
def settlePages (sequenceId newCommittedTokens desiredPageCount : Nat) :
    Nat → Nat → SequencePageTable → Except SequencePageError SequencePageTable
  | 0, _, table => pure table
  | count + 1, ordinal, table => do
    let sequence ← okOr table.sequences[sequenceId]? .invariant
    let entry ← okOr sequence.pages[ordinal]? .invariant
    let expectedValid ← expectedTokens newCommittedTokens desiredPageCount ordinal
    let table ← table.updatePage entry.physical (settlePage expectedValid)
    settlePages sequenceId newCommittedTokens desiredPageCount count (ordinal + 1) table

def commitTentativeInner (table : SequencePageTable) (sequenceId committedTokens : Nat)
    (transaction : TentativeTail) : Except SequencePageError SequencePageTable := do
  let newCommittedTokens ← okOr ((checkedAdd 64 transaction.originalCommittedTokens
    committedTokens).filter (· ≤ maximumContextTokens)) .transaction
  let desiredPageCount := pageCount newCommittedTokens
  let sequence ← okOr table.sequences[sequenceId]? .sequence
  let retained ← okOr sequence.tentative .transaction
  let sequence := { sequence with tentative := none }
  let table := { table with sequences := table.sequences.insert sequenceId sequence }
  if retained ≠ transaction ∨ desiredPageCount > sequence.pages.length then
    throw .invariant
  let table ← popPages sequenceId (sequence.pages.length - desiredPageCount) table
  let table ←
    settlePages sequenceId newCommittedTokens desiredPageCount desiredPageCount 0 table
  table.updateSequence sequenceId fun sequence =>
    { sequence with committedTokens := newCommittedTokens }

def commitTentative (table : SequencePageTable) (sequenceId committedTokens : Nat) :
    Except SequencePageError Unit × SequencePageTable :=
  match table.requireUnboundQuarantine with
  | .error failure => (.error failure, table)
  | .ok () =>
    match table.sequences[sequenceId]?.bind (·.tentative) with
    | none => (.error .transaction, table)
    | some transaction =>
      if committedTokens = 0 ∨ committedTokens > transaction.reservedTokens then
        (.error .transaction, table)
      else
        transact table fun table => table.commitTentativeInner sequenceId committedTokens transaction

def releasePages : List SequencePage → SequencePageTable →
    Except SequencePageError SequencePageTable
  | [], table => pure table
  | page :: rest, table => do
    let table ← table.releasePage page.physical
    releasePages rest table

def removeSequence (table : SequencePageTable) (sequenceId : Nat) :
    Except SequencePageError Unit × SequencePageTable :=
  match table.requireUnboundQuarantine with
  | .error failure => (.error failure, table)
  | .ok () =>
    transact table fun table => do
      let sequence ← okOr table.sequences[sequenceId]? .sequence
      let table := { table with sequences := table.sequences.erase sequenceId }
      if sequence.tentative.isSome then
        throw .transaction
      releasePages sequence.pages.reverse table

def viewPage (table : SequencePageTable) (entry : SequencePage) :
    Except SequencePageError SequencePageView := do
  let page ← okOr table.physical[entry.physical]? .invariant
  pure { ordinal := entry.ordinal, physical := entry.physical,
         draftLocalPageId := page.draftLocalPageId, state := page.state,
         validTokens := page.validTokens, references := page.references,
         sharedPrefix := page.prefixPage.isSome }

def pages (table : SequencePageTable) (sequenceId : Nat) :
    Except SequencePageError (List SequencePageView) := do
  let sequence ← okOr table.sequences[sequenceId]? .sequence
  sequence.pages.mapM table.viewPage

def snapshot (table : SequencePageTable) (entry : Nat × Sequence) :
    Except SequencePageError SequencePageSnapshot := do
  let pages ← table.pages entry.1
  pure { sequenceId := entry.1, mtp := entry.2.mtp, committedTokens := entry.2.committedTokens,
         tentativeTokens := (entry.2.tentative.map (·.reservedTokens)).getD 0, pages }

def snapshots (table : SequencePageTable) : Except SequencePageError (List SequencePageSnapshot) :=
  table.sequences.toList.mapM table.snapshot

end SequencePageTable

/-- The mutating operations of the table, with their arguments. -/
inductive TableCall where
  | admitWithPrefix (sequenceId : Nat) (mtp : Bool) (prefixPages : List PrefixPageAttachment)
  | appendCommitted (sequenceId tokenCount : Nat)
  | forkSequence (sourceId destinationId : Nat)
  | beginTentative (sequenceId requestedTokens : Nat)
  | commitTentative (sequenceId committedTokens : Nat)
  | rollbackTentative (sequenceId : Nat)
  | removeSequence (sequenceId : Nat)
  | bindReuseQuarantine (generation : Nat)
  | acknowledgeReuseQuarantine (generation : Nat)
deriving DecidableEq

/-- One call: its outcome, without the returned value, and the table it leaves. -/
def SequencePageTable.call (table : SequencePageTable) :
    TableCall → Except SequencePageError Unit × SequencePageTable
  | .admitWithPrefix sequenceId mtp prefixPages => table.admitWithPrefix sequenceId mtp prefixPages
  | .appendCommitted sequenceId tokenCount => table.appendCommitted sequenceId tokenCount
  | .forkSequence sourceId destinationId => table.forkSequence sourceId destinationId
  | .beginTentative sequenceId requestedTokens => table.beginTentative sequenceId requestedTokens
  | .commitTentative sequenceId committedTokens => table.commitTentative sequenceId committedTokens
  | .rollbackTentative sequenceId => table.rollbackTentative sequenceId
  | .removeSequence sequenceId => table.removeSequence sequenceId
  | .bindReuseQuarantine generation =>
    let (outcome, next) := table.bindReuseQuarantine generation
    (outcome.map fun _ => (), next)
  | .acknowledgeReuseQuarantine generation =>
    let (outcome, next) := table.acknowledgeReuseQuarantine generation
    (outcome.map fun _ => (), next)

def SequencePageTable.run (table : SequencePageTable) (calls : List TableCall) :
    SequencePageTable :=
  calls.foldl (fun table call => (table.call call).2) table

end Glmaxx.Cache
