import Glmaxx.Engine.Step

namespace Glmaxx.Engine
open Library Cache

def glm52OutputVocabulary : Nat := 154856
def maxCommittedTokensPerSequence : Nat := maxMtpDepth + 1
def outputHashDomain : List UInt8 := "glmaxx.step-output.v1".toUTF8.toList ++ [0]

/-- The token ids fill an array of `maxCommittedTokensPerSequence`, with zeros behind the first `count`. -/
structure CommittedTokens where
  count : Nat
  acceptedDraftCount : Nat
  targetTokenPresent : Bool
  tokenIds : List UInt32
deriving DecidableEq, Repr

/-- The first `sequenceCount` slots are filled. -/
structure StepOutput where
  sequenceCount : Nat
  sequences : List CommittedTokens
deriving DecidableEq, Repr

inductive OutputError where
  | mode
  | sequenceCount
  | commitCount
  | tokenId
deriving DecidableEq, Repr

namespace CommittedTokens

def empty : CommittedTokens := ⟨0, 0, false, List.replicate maxCommittedTokensPerSequence 0⟩

def fromParts (acceptedDraftTokenIds : List UInt32) (targetTokenId : Option UInt32) :
    Except OutputError CommittedTokens :=
  let tokenIds := acceptedDraftTokenIds ++ targetTokenId.toList
  if tokenIds.length = 0 ∨ tokenIds.length > maxCommittedTokensPerSequence then .error .commitCount
  else if tokenIds.any (fun tokenId => tokenId.toNat ≥ glm52OutputVocabulary) then .error .tokenId
  else .ok ⟨tokenIds.length, acceptedDraftTokenIds.length, targetTokenId.isSome,
    tokenIds ++ List.replicate (maxCommittedTokensPerSequence - tokenIds.length) 0⟩

def target (tokenId : UInt32) : Except OutputError CommittedTokens := fromParts [] (some tokenId)

def verify (acceptedDraftTokenIds : List UInt32) (targetTokenId : Option UInt32) : Except OutputError CommittedTokens :=
  fromParts acceptedDraftTokenIds targetTokenId

def hashBytes (sequence : CommittedTokens) : List UInt8 :=
  leBytes 1 sequence.count ++ leBytes 1 sequence.acceptedDraftCount ++ [if sequence.targetTokenPresent then 1 else 0]
    ++ (sequence.tokenIds.take sequence.count).flatMap fun tokenId => leBytes 4 tokenId.toNat

end CommittedTokens

namespace StepOutput

def new (sequences : List CommittedTokens) : Except OutputError StepOutput :=
  if sequences = [] ∨ sequences.length > maxActiveSequences then .error .sequenceCount
  else .ok ⟨sequences.length, sequences ++ List.replicate (maxActiveSequences - sequences.length) CommittedTokens.empty⟩

def digestInput (output : StepOutput) : List UInt8 :=
  outputHashDomain ++ leBytes 2 output.sequenceCount
    ++ (output.sequences.take output.sequenceCount).flatMap (·.hashBytes)

end StepOutput

end Glmaxx.Engine
