import Glmaxx.Library.Action
import Glmaxx.Library.Utf8

namespace Glmaxx.Tokenizer
open Library

/-- The bytes of a string. -/
structure Utf8String where
  bytes : List UInt8
  valid : fromUtf8 bytes = none
deriving DecidableEq

inductive TokenOutput where
  | bytes (bytes : List UInt8)
  | special
  | invalid
deriving DecidableEq

/-- The part of the tokenizer a decoder reads. -/
structure PinnedTokenizer where
  outputs : List TokenOutput
  eosTokenIds : List UInt32

inductive TokenizerError where
  | stops
  | decode
  | streamFinished
  | unmappedToken (tokenId : UInt32)
deriving DecidableEq

inductive StreamFinish where
  | eosToken (tokenId : UInt32)
  | stopString (index : Nat)
  | endOfStream
deriving DecidableEq

structure DecodeDelta where
  text : List UInt8
  finish : Option StreamFinish
deriving DecidableEq

structure IncrementalDecoder where
  tokenizer : PinnedTokenizer
  stops : List Utf8String
  pendingUtf8 : List UInt8
  heldText : List UInt8
  finish : Option StreamFinish

abbrev DecodesTokens := Action IncrementalDecoder TokenizerError

namespace PinnedTokenizer

def isEos (tokenizer : PinnedTokenizer) (tokenId : UInt32) : Bool := tokenId ∈ tokenizer.eosTokenIds

def tokenBytes (tokenizer : PinnedTokenizer) (tokenId : UInt32) : Except TokenizerError (Option (List UInt8)) :=
  match tokenizer.outputs[tokenId.toNat]? with
  | some (.bytes bytes) => .ok (some bytes)
  | some .special => .ok none
  | some .invalid | none => .error (.unmappedToken tokenId)

end PinnedTokenizer

def find (stop : List UInt8) : List UInt8 → Option Nat
  | [] => if stop = [] then some 0 else none
  | byte :: rest => if stop <+: byte :: rest then some 0 else (find stop rest).map (· + 1)

def isCharBoundary (text : List UInt8) (index : Nat) : Bool :=
  index = 0 || index = text.length || (text[index]?.any fun byte => !isContinuation byte)

/-- The loop of `decode_utf8`: what it has put out, and the bytes still pending. -/
def decodeLoop (finalChunk : Bool) : Nat → List UInt8 → List UInt8 → List UInt8 × List UInt8
  | 0, output, pending => (output, pending)
  | fuel + 1, output, pending => match fromUtf8 pending with
    | none => (output ++ pending, [])
    | some error =>
      let output := output ++ pending.take error.validUpTo
      let pending := pending.drop error.validUpTo
      match error.errorLen with
      | some invalid => decodeLoop finalChunk fuel (output ++ replacement) (pending.drop invalid)
      | none => if finalChunk then (output ++ replacement, []) else (output, pending)

namespace IncrementalDecoder

def new (tokenizer : PinnedTokenizer) (stops : List Utf8String) : Except TokenizerError IncrementalDecoder :=
  if stops.length > 16
      ∨ stops.any (fun stop => stop.bytes.isEmpty || stop.bytes.length > 256 || stop.bytes.contains 0) then
    .error .stops
  else .ok ⟨tokenizer, stops, [], [], none⟩

def decodeUtf8 (finalChunk : Bool) : DecodesTokens (List UInt8) := fun d =>
  let (output, pending) := decodeLoop finalChunk (d.pendingUtf8.length + 1) [] d.pendingUtf8
  (.ok output, { d with pendingUtf8 := pending })

/-- The first stop string in the held text, by its offset and then its index. -/
def firstStop (stops : List Utf8String) (heldText : List UInt8) : Option (Nat × Nat) :=
  stops.zipIdx.foldl
    (fun best (stop, index) => match best, find stop.bytes heldText with
      | some (offset, _), some other => if other < offset then some (other, index) else best
      | none, some other => some (other, index)
      | _, none => best)
    none

def stopPrefixSuffix (heldText stop : List UInt8) : Nat :=
  let maximum := min heldText.length stop.length
  ((List.range' 1 maximum).reverse.find? fun length =>
    isCharBoundary stop length && decide (stop.take length <:+ heldText)).getD 0

def longestStopPrefixSuffix (d : IncrementalDecoder) : Nat :=
  (d.stops.map fun stop => stopPrefixSuffix d.heldText stop.bytes).foldl max 0

def emitHeld : DecodesTokens DecodeDelta := do
  let d ← .get
  if d.heldText.length < d.longestStopPrefixSuffix then .fail .decode
  else
    let emittedBytes := d.heldText.length - d.longestStopPrefixSuffix
    if isCharBoundary d.heldText emittedBytes = false then .fail .decode
    else do
      .modify fun d => { d with heldText := d.heldText.drop emittedBytes }
      pure ⟨d.heldText.take emittedBytes, none⟩

def applyStops (decoded : List UInt8) : DecodesTokens DecodeDelta := do
  .modify fun d => { d with heldText := d.heldText ++ decoded }
  let d ← .get
  match firstStop d.stops d.heldText with
  | some (offset, stopIndex) => do
    .modify fun d => { d with heldText := [], pendingUtf8 := [], finish := some (.stopString stopIndex) }
    pure ⟨d.heldText.take offset, some (.stopString stopIndex)⟩
  | none => emitHeld

def releaseHeld : DecodesTokens (List UInt8) := fun d => (.ok d.heldText, { d with heldText := [] })

def close (text : List UInt8) (finish : StreamFinish) : DecodesTokens DecodeDelta := do
  .modify fun d => { d with finish := some finish }
  pure ⟨text, some finish⟩

def push (tokenId : UInt32) : DecodesTokens DecodeDelta := do
  let d ← .get
  if d.finish.isSome then .fail .streamFinished
  else if d.tokenizer.isEos tokenId then do
    let decoded ← decodeUtf8 true
    let held ← releaseHeld
    close (decoded ++ held) (.eosToken tokenId)
  else do
    let bytes ← .reads fun d => d.tokenizer.tokenBytes tokenId
    .modify fun d => { d with pendingUtf8 := d.pendingUtf8 ++ bytes.getD [] }
    let decoded ← decodeUtf8 false
    applyStops decoded

/-- The source's `finish`. -/
def finishStream : DecodesTokens DecodeDelta := do
  let d ← .get
  if d.finish.isSome then .fail .streamFinished
  else do
    let decoded ← decodeUtf8 true
    let stopDelta ← applyStops decoded
    if stopDelta.finish.isSome then pure stopDelta
    else do
      let held ← releaseHeld
      close (stopDelta.text ++ held) .endOfStream

end IncrementalDecoder

/-- How a stream is ended. -/
inductive StreamEnd where
  | eos (tokenId : UInt32)
  | finish
deriving DecidableEq

/-- A decoder with the text it has put out so far. -/
structure Stream where
  decoder : IncrementalDecoder
  text : List UInt8

namespace Stream

def take (action : DecodesTokens DecodeDelta) (s : Stream) : Stream :=
  match action s.decoder with
  | (.ok delta, decoder) => ⟨decoder, s.text ++ delta.text⟩
  | (.error _, decoder) => ⟨decoder, s.text⟩

def pushAll (s : Stream) (tokens : List UInt32) : Stream :=
  tokens.foldl (fun s tokenId => s.take (IncrementalDecoder.push tokenId)) s

def endWith (s : Stream) : StreamEnd → Stream
  | .eos tokenId => s.take (IncrementalDecoder.push tokenId)
  | .finish => s.take IncrementalDecoder.finishStream

end Stream

end Glmaxx.Tokenizer
