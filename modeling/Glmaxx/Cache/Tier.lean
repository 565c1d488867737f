import Glmaxx.Cache.Page

namespace Glmaxx.Cache
open Std Library

def targetKvPageBytes : Nat := pageTokens * targetLayers * kvRecordBytes
def targetIndexerPageBytes : Nat := pageTokens * indexerGroups * indexerRecordBytes
def draftSidecarPageBytes : Nat := pageTokens * draftCommittedRecordBytes

inductive Tier where
  | dram
  | nvme
deriving DecidableEq, Repr

inductive TierPiece where
  | targetKv
  | targetIndexer
  | draftSidecar
deriving DecidableEq, Repr

def TierPiece.expectedBytes : TierPiece → Nat
  | .targetKv => targetKvPageBytes
  | .targetIndexer => targetIndexerPageBytes
  | .draftSidecar => draftSidecarPageBytes

structure TierPieceRecord where
  piece : TierPiece
  byteLength : UInt64
  storageOffset : UInt64
  sha256 : Bytes32
deriving DecidableEq

structure TierRecord where
  nameSpace : Bytes32
  pageKey : Bytes32
  generation : UInt64
  tier : Tier
  mtp : Bool
  pieces : List TierPieceRecord
deriving DecidableEq

inductive TierRecordRelation where
  | exactDedup
  | mtpUpgrade
  | retainMtp
deriving DecidableEq, Repr

inductive TierError where
  | identity
  | pieces
  | collision
  | checksum
  | notDurable
  | alreadyPublished
  | journal
  | overflow
deriving DecidableEq, Repr

def TierRecord.required (record : TierRecord) : List TierPiece :=
  if record.mtp then [.targetKv, .targetIndexer, .draftSidecar] else [.targetKv, .targetIndexer]

def Tier.alignment : Tier → Nat
  | .dram => 64
  | .nvme => 4096

/-- The loop of `TierRecord::validate`, with the pieces and the byte ranges seen so far. -/
def validatePieces (required : List TierPiece) (alignment : Nat) :
    List TierPieceRecord → List TierPiece → List (Nat × Nat) → Except TierError Unit
  | [], _, _ => .ok ()
  | piece :: rest, seen, ranges =>
    if piece.piece ∉ required ∨ piece.piece ∈ seen
        ∨ piece.byteLength.toNat ≠ piece.piece.expectedBytes
        ∨ piece.storageOffset.toNat % alignment ≠ 0
        ∨ piece.sha256 = Bytes32.zero then
      .error .pieces
    else
      match checkedAdd 64 piece.storageOffset.toNat piece.byteLength.toNat with
      | none => .error .overflow
      | some stop =>
        if ranges.any (fun (start, priorStop) =>
            piece.storageOffset.toNat < priorStop && start < stop) then
          .error .pieces
        else
          validatePieces required alignment rest (piece.piece :: seen)
            (ranges ++ [(piece.storageOffset.toNat, stop)])

def TierRecord.validate (record : TierRecord) : Except TierError Unit :=
  if record.nameSpace = Bytes32.zero ∨ record.pageKey = Bytes32.zero ∨ record.generation = 0 then
    .error .identity
  else if record.pieces.length ≠ record.required.length then
    .error .pieces
  else
    validatePieces record.required record.tier.alignment record.pieces [] []

def logicalPieceIdentity (record : TierRecord) (piece : TierPiece) : Option (UInt64 × Bytes32) :=
  (record.pieces.find? (·.piece = piece)).map fun found => (found.byteLength, found.sha256)

def TierRecord.relationTo (self candidate : TierRecord) : Except TierError TierRecordRelation := do
  self.validate
  candidate.validate
  if self.nameSpace ≠ candidate.nameSpace ∨ self.pageKey ≠ candidate.pageKey
      ∨ logicalPieceIdentity self .targetKv ≠ logicalPieceIdentity candidate .targetKv
      ∨ logicalPieceIdentity self .targetIndexer ≠ logicalPieceIdentity candidate .targetIndexer then
    throw .collision
  match self.mtp, candidate.mtp with
  | false, false => pure .exactDedup
  | true, false => pure .retainMtp
  | false, true => pure .mtpUpgrade
  | true, true =>
    if logicalPieceIdentity self .draftSidecar = logicalPieceIdentity candidate .draftSidecar then
      pure .exactDedup
    else
      throw .collision

inductive JournalEvent where
  | begin (transaction : Nat) (record : TierRecord)
  | pieceDurable (transaction : Nat) (piece : TierPiece) (sha256 : Bytes32)
  | publish (transaction : Nat)
deriving DecidableEq

def JournalEvent.transaction : JournalEvent → Nat
  | .begin transaction _ | .pieceDurable transaction _ _ | .publish transaction => transaction

structure TierJournal where
  events : List JournalEvent
  nextTransaction : Nat
deriving DecidableEq

/-- What `recover` knows of a transaction: its record, the pieces that are durable, and whether it is published. -/
structure RecoveryState where
  record : TierRecord
  durable : List (TierPiece × Bytes32)
  published : Bool
deriving DecidableEq

namespace TierJournal

def new : TierJournal := ⟨[], 1⟩

/-- The record of the first `Begin` of a transaction. -/
def begunRecord (events : List JournalEvent) (transaction : Nat) : Option TierRecord :=
  events.findSome? fun
    | .begin id record => if id = transaction then some record else none
    | _ => none

def durablePieces (events : List JournalEvent) (transaction : Nat) : List (TierPiece × Bytes32) :=
  events.filterMap fun
    | .pieceDurable id piece sha256 => if id = transaction then some (piece, sha256) else none
    | _ => none

def isPublished (events : List JournalEvent) (transaction : Nat) : Bool :=
  events.any fun event => decide (event = .publish transaction)

def openRecord (journal : TierJournal) (transaction : Nat) : Except TierError TierRecord :=
  if isPublished journal.events transaction then .error .alreadyPublished
  else okOr (begunRecord journal.events transaction) .journal

def begin (journal : TierJournal) (record : TierRecord) : Except TierError (Nat × TierJournal) := do
  record.validate
  let nextTransaction ← okOr (checkedAdd 64 journal.nextTransaction 1) .overflow
  pure (journal.nextTransaction,
    { events := journal.events ++ [.begin journal.nextTransaction record], nextTransaction })

def pieceDurable (journal : TierJournal) (transaction : Nat) (piece : TierPiece) (observedSha256 : Bytes32) :
    Except TierError TierJournal := do
  let record ← journal.openRecord transaction
  let expected ← okOr (record.pieces.find? (·.piece = piece)) .pieces
  if observedSha256 ≠ expected.sha256 then .error .checksum
  else if (durablePieces journal.events transaction).any (·.1 = piece) then .error .journal
  else .ok { journal with events := journal.events ++ [.pieceDurable transaction piece observedSha256] }

def missesPiece (record : TierRecord) (durable : List (TierPiece × Bytes32)) : Bool :=
  record.pieces.any fun piece => !durable.any (·.1 = piece.piece)

def publish (journal : TierJournal) (transaction : Nat) : Except TierError TierJournal := do
  let record ← journal.openRecord transaction
  if missesPiece record (durablePieces journal.events transaction) then .error .notDurable
  else .ok { journal with events := journal.events ++ [.publish transaction] }

/-- The body of the first loop of `recover`. -/
def replayEvent (transactions : ExtTreeMap Nat RecoveryState) :
    JournalEvent → Except TierError (ExtTreeMap Nat RecoveryState)
  | .begin transaction record => do
    record.validate
    if transaction ∈ transactions then .error .journal
    else .ok (transactions.insert transaction ⟨record, [], false⟩)
  | .pieceDurable transaction piece sha256 => do
    let state ← okOr transactions[transaction]? .journal
    if state.published then .error .journal
    else do
      let expected ← okOr (state.record.pieces.find? (·.piece = piece)) .pieces
      if expected.sha256 ≠ sha256 ∨ state.durable.any (·.1 = piece) then .error .checksum
      else .ok (transactions.insert transaction { state with durable := state.durable ++ [(piece, sha256)] })
  | .publish transaction => do
    let state ← okOr transactions[transaction]? .journal
    if state.published ∨ missesPiece state.record state.durable then .error .notDurable
    else .ok (transactions.insert transaction { state with published := true })

def replay (events : List JournalEvent) : Except TierError (ExtTreeMap Nat RecoveryState) :=
  events.foldlM replayEvent ∅

/-- The body of the second loop of `recover`, for a published record. -/
def recoverRecord (recovered : ExtTreeMap Bytes32 TierRecord) (record : TierRecord) :
    Except TierError (ExtTreeMap Bytes32 TierRecord) :=
  match recovered[record.pageKey]? with
  | none => .ok (recovered.insert record.pageKey record)
  | some existing =>
    match existing.relationTo record with
    | .error failure => .error failure
    | .ok .exactDedup | .ok .retainMtp => .ok recovered
    | .ok .mtpUpgrade =>
      if record.generation ≤ existing.generation then .error .journal
      else .ok (recovered.insert record.pageKey record)

def recover (journal : TierJournal) : Except TierError (ExtTreeMap Bytes32 TierRecord) := do
  let transactions ← replay journal.events
  (transactions.toList.filter (·.2.published)).foldlM
    (fun recovered entry => recoverRecord recovered entry.2.record) ∅

def fromEvents (events : List JournalEvent) : Except TierError TierJournal := do
  let nextTransaction ← okOr (checkedAdd 64 ((events.map (·.transaction)).max?.getD 0) 1) .overflow
  let _ ← recover { events, nextTransaction }
  pure { events, nextTransaction }

end TierJournal

inductive JournalCall where
  | begin (record : TierRecord)
  | pieceDurable (transaction : Nat) (piece : TierPiece) (observedSha256 : Bytes32)
  | publish (transaction : Nat)

namespace TierJournal

def call (journal : TierJournal) : JournalCall → TierJournal
  | .begin record => match journal.begin record with
    | .ok (_, next) => next
    | .error _ => journal
  | .pieceDurable transaction piece observedSha256 => match journal.pieceDurable transaction piece observedSha256 with
    | .ok next => next
    | .error _ => journal
  | .publish transaction => match journal.publish transaction with
    | .ok next => next
    | .error _ => journal

def run (journal : TierJournal) (calls : List JournalCall) : TierJournal := calls.foldl call journal

end TierJournal

end Glmaxx.Cache
