import Glmaxx.Cache.Delta

namespace Glmaxx.Cache
open Std Library

def pageDomain : List UInt8 := "glmaxx.prefix-page.v1".toUTF8.toList ++ [0]

def PrefixPageKey.derive (sha256 : List UInt8 → Bytes32) (nameSpace : Bytes32) (parent : Option PrefixPageKey)
    (tokens : List UInt32) : PrefixPageKey :=
  sha256 (pageDomain ++ nameSpace.toList ++ (parent.getD Bytes32.zero).toList ++ leBytes 2 tokens.length
    ++ tokens.flatMap fun token => leBytes 4 token.toNat)

/-- `chunks_exact(PAGE_TOKENS)`: whole pages only. -/
def pageChunks (tokens : List UInt32) : List (List UInt32) :=
  (List.range (tokens.length / pageTokens)).map fun page => (tokens.drop (pageTokens * page)).take pageTokens

structure PrefixPage where
  parent : Option PrefixPageKey
  record : TierRecord
  references : Nat
deriving DecidableEq

structure PrefixMatch where
  pageKeys : List PrefixPageKey
  matchedTokens : Nat
deriving DecidableEq

structure PrefixIndex where
  nameSpace : Bytes32
  pages : ExtTreeMap PrefixPageKey PrefixPage
deriving DecidableEq

inductive PrefixError where
  | nameSpace
  | partialPage
  | recordCount
  | tierRecord
  | pageKey
  | collision
  | overflow
deriving DecidableEq, Repr

/-- A page that `insert` will write, and whether it replaces the record there. -/
structure StagedPage where
  key : PrefixPageKey
  parent : Option PrefixPageKey
  record : TierRecord
  replace : Bool
deriving DecidableEq

namespace PrefixIndex
variable (sha256 : List UInt8 → Bytes32)

def new (nameSpace : Bytes32) : PrefixIndex := ⟨nameSpace, ∅⟩

def replaces (index : PrefixIndex) (key : PrefixPageKey) (parent : Option PrefixPageKey) (record : TierRecord) :
    Except PrefixError Bool :=
  match index.pages[key]? with
  | none => .ok false
  | some existing =>
    if existing.parent ≠ parent then .error .collision
    else match existing.record.relationTo record with
      | .error _ => .error .collision
      | .ok relation =>
        if relation = .mtpUpgrade ∧ record.generation ≤ existing.record.generation then .error .collision
        else do
          let _ ← okOr (checkedAdd 64 existing.references 1) .overflow
          .ok (relation = .mtpUpgrade)

/-- The checks of `insert`, page by page, with the parent and the keys so far. -/
def stagePages (index : PrefixIndex) :
    List (List UInt32 × TierRecord) → Option PrefixPageKey → List PrefixPageKey → Except PrefixError (List StagedPage)
  | [], _, _ => .ok []
  | (tokens, record) :: rest, parent, seen =>
    match record.validate with
    | .error _ => .error .tierRecord
    | .ok () =>
      if record.nameSpace ≠ index.nameSpace then .error .nameSpace
      else
        let key := PrefixPageKey.derive sha256 index.nameSpace parent tokens
        if record.pageKey ≠ key then .error .pageKey
        else if key ∈ seen then .error .collision
        else do
          let replace ← index.replaces key parent record
          let later ← stagePages index rest (some key) (key :: seen)
          .ok (⟨key, parent, record, replace⟩ :: later)

def writtenPage (existing : Option PrefixPage) (staged : StagedPage) : PrefixPage :=
  match existing with
  | some page =>
    { page with
      record := if staged.replace then staged.record else page.record
      references := page.references + 1 }
  | none => ⟨staged.parent, staged.record, 1⟩

def writePages (pages : ExtTreeMap PrefixPageKey PrefixPage) (staged : List StagedPage) :
    ExtTreeMap PrefixPageKey PrefixPage :=
  staged.foldl (fun pages page => pages.insert page.key (writtenPage pages[page.key]? page)) pages

def insert (index : PrefixIndex) (tokens : List UInt32) (records : List TierRecord) :
    Except PrefixError (List PrefixPageKey × PrefixIndex) :=
  if tokens = [] ∨ tokens.length % pageTokens ≠ 0 then .error .partialPage
  else if records.length ≠ tokens.length / pageTokens then .error .recordCount
  else do
    let staged ← index.stagePages sha256 ((pageChunks tokens).zip records) none []
    .ok (staged.map (·.key), { index with pages := writePages index.pages staged })

/-- The loop of `longest_match_with_capability`: the pages of the chain that are indexed. -/
def matchPages (index : PrefixIndex) (requireDraft : Bool) :
    List (List UInt32) → Option PrefixPageKey → List PrefixPageKey
  | [], _ => []
  | tokens :: rest, parent =>
    let key := PrefixPageKey.derive sha256 index.nameSpace parent tokens
    match index.pages[key]? with
    | none => []
    | some page =>
      if page.parent ≠ parent ∨ (requireDraft = true ∧ page.record.mtp = false) then []
      else key :: matchPages index requireDraft rest (some key)

def longestMatchWithCapability (index : PrefixIndex) (tokens : List UInt32) (requireDraft : Bool) :
    Option PrefixMatch :=
  match index.matchPages sha256 requireDraft (pageChunks tokens) none with
  | [] => none
  | keys => some ⟨keys, keys.length * pageTokens⟩

def longestMatch (index : PrefixIndex) (tokens : List UInt32) : Option PrefixMatch :=
  index.longestMatchWithCapability sha256 tokens false

def record (index : PrefixIndex) (key : PrefixPageKey) : Option TierRecord := index.pages[key]?.map (·.record)

def deriveFrom (nameSpace : Bytes32) : List (List UInt32) → Option PrefixPageKey → List PrefixPageKey
  | [], _ => []
  | tokens :: rest, parent =>
    let key := PrefixPageKey.derive sha256 nameSpace parent tokens
    key :: deriveFrom nameSpace rest (some key)

def deriveKeys (index : PrefixIndex) (tokens : List UInt32) : List PrefixPageKey :=
  deriveFrom sha256 index.nameSpace (pageChunks tokens) none

end PrefixIndex

end Glmaxx.Cache
