import Glmaxx.Cache.Tier

namespace Glmaxx.Cache
open Library

def directTierFormatVersion : Nat := 1
def directIoAlignment : Nat := 4096
def targetKvExtentOffset : Nat := 0
def targetKvExtentLength : Nat := targetKvPageBytes
def targetIndexerExtentOffset : Nat := 1839104
def targetIndexerExtentLength : Nat := targetIndexerPageBytes
def draftSidecarExtentOffset : Nat := 2019328
def draftSidecarExtentLength : Nat := draftSidecarPageBytes
def targetOnlyLogicalBytes : Nat := targetKvExtentLength + targetIndexerExtentLength
def targetOnlyPhysicalBytes : Nat := 2019328
def mtpLogicalBytes : Nat := targetOnlyLogicalBytes + draftSidecarExtentLength
def mtpPhysicalBytes : Nat := 2052096

def targetIndexerEnd : Nat := targetIndexerExtentOffset + targetIndexerExtentLength
def draftSidecarEnd : Nat := draftSidecarExtentOffset + draftSidecarExtentLength

inductive DirectTierCapability where
  | target
  | mtp
deriving DecidableEq, Repr

def DirectTierCapability.physicalBytes : DirectTierCapability → Nat
  | .target => targetOnlyPhysicalBytes
  | .mtp => mtpPhysicalBytes

def DirectTierCapability.logicalBytes : DirectTierCapability → Nat
  | .target => targetOnlyLogicalBytes
  | .mtp => mtpLogicalBytes

structure DirectPieceRecord where
  piece : TierPiece
  extentOffset : Nat
  logicalLength : Nat
  sha256 : Bytes32
deriving DecidableEq

structure DirectExtentRecord where
  formatVersion : Nat
  nameSpace : Bytes32
  pageKey : Bytes32
  durableRevision : Nat
  capability : DirectTierCapability
  segmentId : Nat
  physicalOffset : Nat
  physicalLength : Nat
  physicalSha256 : Bytes32
  pieces : List DirectPieceRecord
deriving DecidableEq

inductive DirectExtentError where
  | version
  | identity
  | addressAlignment
  | offsetAlignment
  | lengthAlignment
  | pieces
  | physical
  | physicalChecksum
  | pieceChecksum (piece : TierPiece)
  | padding
  | allocation
  | overflow
deriving DecidableEq, Repr

def validateDirectIoSpan (address fileOffset length expectedLength : Nat) :
    Except DirectExtentError Unit :=
  if address = 0 ∨ address % directIoAlignment ≠ 0 then .error .addressAlignment
  else if fileOffset % directIoAlignment ≠ 0 then .error .offsetAlignment
  else if length = 0 ∨ length % directIoAlignment ≠ 0 ∨ length ≠ expectedLength then
    .error .lengthAlignment
  else .ok ()

def expectedPieceLayout : DirectTierCapability → List (TierPiece × Nat × Nat)
  | .target => [(.targetKv, targetKvExtentOffset, targetKvExtentLength),
      (.targetIndexer, targetIndexerExtentOffset, targetIndexerExtentLength)]
  | .mtp => [(.targetKv, targetKvExtentOffset, targetKvExtentLength),
      (.targetIndexer, targetIndexerExtentOffset, targetIndexerExtentLength),
      (.draftSidecar, draftSidecarExtentOffset, draftSidecarExtentLength)]

/-- The body of the piece loop of `validate`; the sum is only computed when the tests before it pass. -/
def validatePieceLayout (physicalLength : Nat) (observed : DirectPieceRecord)
    (expected : TierPiece × Nat × Nat) : Except DirectExtentError Unit := do
  if observed.piece ≠ expected.1 ∨ observed.extentOffset ≠ expected.2.1
      ∨ observed.logicalLength ≠ expected.2.2 ∨ observed.sha256 = Bytes32.zero
      ∨ observed.extentOffset % directIoAlignment ≠ 0 then
    throw .pieces
  let stop ← okOr (checkedAdd 64 observed.extentOffset observed.logicalLength) .overflow
  if stop > physicalLength then
    throw .pieces

def DirectExtentRecord.validate (record : DirectExtentRecord) : Except DirectExtentError Unit := do
  if record.formatVersion ≠ directTierFormatVersion then
    throw .version
  if record.nameSpace = Bytes32.zero ∨ record.pageKey = Bytes32.zero ∨ record.durableRevision = 0
      ∨ record.segmentId = 0 then
    throw .identity
  if record.physicalLength ≠ record.capability.physicalBytes ∨ record.physicalSha256 = Bytes32.zero then
    throw .physical
  validateDirectIoSpan directIoAlignment record.physicalOffset record.physicalLength
    record.capability.physicalBytes
  if record.pieces.length ≠ (expectedPieceLayout record.capability).length then
    throw .pieces
  (record.pieces.zip (expectedPieceLayout record.capability)).forM fun (observed, expected) =>
    validatePieceLayout record.physicalLength observed expected

/-- The bytes of an aligned buffer and where they lie in memory. -/
structure DirectExtentBuffer where
  address : Nat
  bytes : List UInt8
deriving DecidableEq

/-- `allocated` is where the allocator put the storage, if it had any to give. -/
def DirectExtentBuffer.new (allocated : Option Nat) (capability : DirectTierCapability) :
    Except DirectExtentError DirectExtentBuffer := do
  let address ← okOr allocated .allocation
  let last ← okOr (checkedAdd 64 address (directIoAlignment - 1)) .overflow
  let alignedAddress := last / directIoAlignment * directIoAlignment
  let alignedStart ← okOr (checkedSub alignedAddress address) .overflow
  validateDirectIoSpan (address + alignedStart) 0 capability.physicalBytes capability.physicalBytes
  pure { address := address + alignedStart, bytes := List.replicate capability.physicalBytes 0 }

/-- `fill(0)` of the whole slice. -/
def DirectExtentBuffer.zeroed (buffer : DirectExtentBuffer) : DirectExtentBuffer :=
  { buffer with bytes := List.replicate buffer.bytes.length 0 }

/-- `slice.get(start..stop)`. -/
def byteRange (bytes : List UInt8) (start stop : Nat) : Option (List UInt8) :=
  if start ≤ stop ∧ stop ≤ bytes.length then some ((bytes.drop start).take (stop - start)) else none

def pieceBytes (extent : List UInt8) (offset length : Nat) : Except DirectExtentError (List UInt8) := do
  let stop ← okOr (checkedAdd 64 offset length) .overflow
  okOr (byteRange extent offset stop) .physical

def dirtyRange (extent : List UInt8) (start stop : Nat) : Except DirectExtentError Bool := do
  let range ← okOr (byteRange extent start stop) .physical
  pure (range.any fun byte => decide (byte ≠ 0))

/-- The checks of `validate_zero_padding` behind the target pieces. -/
def validateTailPadding (extent : List UInt8) : DirectTierCapability → Except DirectExtentError Unit
  | .target => do
    if extent.length ≠ targetOnlyPhysicalBytes then
      throw .padding
    let tail ← dirtyRange extent targetIndexerEnd targetOnlyPhysicalBytes
    if tail then
      throw .padding
  | .mtp => do
    if extent.length ≠ mtpPhysicalBytes then
      throw .padding
    let gap ← dirtyRange extent targetIndexerEnd draftSidecarExtentOffset
    if gap then
      throw .padding
    let tail ← dirtyRange extent draftSidecarEnd mtpPhysicalBytes
    if tail then
      throw .padding

def validateZeroPadding (extent : List UInt8) (capability : DirectTierCapability) :
    Except DirectExtentError Unit := do
  let gap ← dirtyRange extent targetKvExtentLength targetIndexerExtentOffset
  if gap then
    throw .padding
  validateTailPadding extent capability

structure DirectExtentView where
  targetKv : List UInt8
  targetIndexer : List UInt8
  draftSidecar : Option (List UInt8)
deriving DecidableEq

def validatePieceChecksum (sha256 : List UInt8 → Bytes32) (extent : List UInt8) (piece : DirectPieceRecord) :
    Except DirectExtentError Unit := do
  let bytes ← pieceBytes extent piece.extentOffset piece.logicalLength
  if sha256 bytes ≠ piece.sha256 then
    throw (.pieceChecksum piece.piece)

def decodeDraftSidecar (extent : List UInt8) :
    DirectTierCapability → Except DirectExtentError (Option (List UInt8))
  | .target => pure none
  | .mtp => some <$> pieceBytes extent draftSidecarExtentOffset draftSidecarExtentLength

/-- `address` is where the extent lies in memory. -/
def decodeDirectExtent (sha256 : List UInt8 → Bytes32) (record : DirectExtentRecord) (address : Nat)
    (extent : List UInt8) : Except DirectExtentError DirectExtentView := do
  record.validate
  validateDirectIoSpan address record.physicalOffset extent.length record.physicalLength
  if sha256 extent ≠ record.physicalSha256 then
    throw .physicalChecksum
  validateZeroPadding extent record.capability
  record.pieces.forM (validatePieceChecksum sha256 extent)
  let targetKv ← pieceBytes extent targetKvExtentOffset targetKvExtentLength
  let targetIndexer ← pieceBytes extent targetIndexerExtentOffset targetIndexerExtentLength
  let draftSidecar ← decodeDraftSidecar extent record.capability
  pure { targetKv, targetIndexer, draftSidecar }

end Glmaxx.Cache
