import Glmaxx.Cache.Prefix

/-!
# Chains of the prefix index

The place of a page in its prompt is the length of its chain of parents. An insertion never changes a parent, so a
page keeps its place, whatever collides.
-/

namespace Glmaxx.Proof.Prefix
open Std Library Cache Cache.PrefixIndex

variable {record : TierRecord} {tokens : List UInt32} {pages : ExtTreeMap PrefixPageKey PrefixPage}
  {page : StagedPage}

variable {sha256 : List UInt8 → Bytes32} {index index' : PrefixIndex} {key : PrefixPageKey}
  {parent : Option PrefixPageKey} {chunks : List (List UInt32)} {n : Nat} {staged : List StagedPage}

inductive IndexedAt (index : PrefixIndex) : PrefixPageKey → Nat → Prop where
  | root {key : PrefixPageKey} {page : PrefixPage} (found : index.pages[key]? = some page)
      (first : page.parent = none) : IndexedAt index key 0
  | child {key above : PrefixPageKey} {page : PrefixPage} {n : Nat} (found : index.pages[key]? = some page)
      (isParent : page.parent = some above) (rest : IndexedAt index above n) : IndexedAt index key (n + 1)

theorem IndexedAt.found (indexed : IndexedAt index key n) : ∃ page, index.pages[key]? = some page := by
  cases indexed with
  | root found _ | child found _ _ => exact ⟨_, found⟩

theorem IndexedAt.unique {i j : Nat} (first : IndexedAt index key i) (second : IndexedAt index key j) : i = j := by
  induction first generalizing j with
  | root found isRoot =>
    cases second with
    | root _ _ => rfl
    | child again isParent _ =>
      rw [found] at again
      cases again
      rw [isRoot] at isParent
      cases isParent
  | child found isParent _ ih =>
    cases second with
    | root again isRoot =>
      rw [found] at again
      cases again
      rw [isRoot] at isParent
      cases isParent
    | child again same rest =>
      rw [found] at again
      cases again
      rw [isParent] at same
      cases same
      rw [ih rest]

def Above (index : PrefixIndex) (n : Nat) : Option PrefixPageKey → Prop
  | none => n = 0
  | some above => ∃ m, n = m + 1 ∧ IndexedAt index above m

theorem indexedAt_of_above {page : PrefixPage} (above : Above index n parent)
    (found : index.pages[key]? = some page) (isParent : page.parent = parent) : IndexedAt index key n := by
  cases parent with
  | none =>
    obtain rfl : n = 0 := above
    exact .root found isParent
  | some key =>
    obtain ⟨m, rfl, indexed⟩ := above
    exact .child found isParent indexed

structure IndexSound (index : PrefixIndex) : Prop where
  placed : ∀ (key : PrefixPageKey) (page : PrefixPage), index.pages[key]? = some page → ∃ n, IndexedAt index key n
  valid : ∀ (key : PrefixPageKey) (page : PrefixPage), index.pages[key]? = some page →
    page.record.validate = .ok () ∧ page.record.pageKey = key

theorem record_of_indexedAt (indexed : IndexedAt index key n) : ∃ record, index.record key = some record := by
  obtain ⟨page, found⟩ := indexed.found
  exact ⟨page.record, by rw [PrefixIndex.record, found]; rfl⟩

theorem page_of_record (isRecord : index.record key = some record) :
    ∃ page, index.pages[key]? = some page ∧ page.record = record := by
  unfold PrefixIndex.record at isRecord
  exact Option.map_eq_some_iff.mp isRecord

theorem indexSound_empty (empty : index.pages.isEmpty = true) : IndexSound index := by
  have isEmpty := ExtTreeMap.isEmpty_iff.mp empty
  refine ⟨fun key page found => ?_, fun key page found => ?_⟩ <;> rw [isEmpty] at found <;> simp at found

section Attachment

theorem validatePieces_sound {required : List TierPiece} {alignment : Nat} {pieces : List TierPieceRecord}
    {seen : List TierPiece} {ranges : List (Nat × Nat)}
    (ok : validatePieces required alignment pieces seen ranges = .ok ()) :
    (pieces.map (·.piece)).Nodup ∧ ∀ piece ∈ pieces, piece.piece ∈ required ∧ piece.piece ∉ seen := by
  induction pieces generalizing seen ranges with
  | nil => exact ⟨List.nodup_nil, by simp⟩
  | cons piece rest ih =>
    unfold validatePieces at ok
    split at ok
    · cases ok
    next accepted =>
    simp only [not_or, not_not] at accepted
    split at ok
    · cases ok
    split at ok
    · cases ok
    obtain ⟨distinct, each⟩ := ih ok
    refine ⟨?_, ?_⟩
    · rw [List.map_cons, List.nodup_cons]
      refine ⟨fun member => ?_, distinct⟩
      obtain ⟨other, isOther, same⟩ := List.mem_map.mp member
      exact (each other isOther).2 (same ▸ List.mem_cons_self ..)
    · intro other member
      rcases List.mem_cons.mp member with rfl | later
      · exact ⟨accepted.1, accepted.2.1⟩
      · exact ⟨(each other later).1, fun isSeen => (each other later).2 (List.mem_cons_of_mem _ isSeen)⟩

theorem pieceHash_of_valid {piece : TierPiece} (valid : record.validate = .ok ())
    (required : piece ∈ record.required) : ∃ hash, pieceHash record piece = .ok hash := by
  unfold TierRecord.validate at valid
  split at valid
  · cases valid
  split at valid
  · cases valid
  next lengths =>
  obtain ⟨distinct, each⟩ := validatePieces_sound valid
  -- As many different pieces as are required, each of them required: all are there.
  have subperm : (record.pieces.map (·.piece)).Subperm record.required := by
    refine List.subperm_of_subset distinct fun piece member => ?_
    obtain ⟨its, isPiece, rfl⟩ := List.mem_map.mp member
    exact (each its isPiece).1
  have perm := subperm.perm_of_length_le (by rw [List.length_map]; exact (not_not.mp lengths).ge)
  obtain ⟨its, isPiece, same⟩ := List.mem_map.mp (perm.mem_iff.mpr required)
  unfold pieceHash
  cases found : record.pieces.find? (·.piece = piece) with
  | some its => exact ⟨its.sha256, rfl⟩
  | none =>
    have := List.find?_eq_none.mp found its isPiece
    exact absurd same (by simpa using this)

theorem fromTierRecord_of_valid (valid : record.validate = .ok ()) :
    ∃ attachment, PrefixPageAttachment.fromTierRecord record = .ok attachment := by
  have inRequired (piece : TierPiece) (base : piece = .targetKv ∨ piece = .targetIndexer) : piece ∈ record.required := by
    unfold TierRecord.required
    rcases base with rfl | rfl <;> split <;> simp
  obtain ⟨kv, isKv⟩ := pieceHash_of_valid valid (inRequired .targetKv (.inl rfl))
  obtain ⟨indexer, isIndexer⟩ := pieceHash_of_valid valid (inRequired .targetIndexer (.inr rfl))
  unfold PrefixPageAttachment.fromTierRecord
  rw [valid, isKv, isIndexer]
  cases hasDraft : record.mtp with
  | false => exact ⟨_, rfl⟩
  | true =>
    have isRequired : TierPiece.draftSidecar ∈ record.required := by simp [TierRecord.required, hasDraft]
    obtain ⟨draft, isDraft⟩ := pieceHash_of_valid valid isRequired
    rw [isDraft]
    exact ⟨_, rfl⟩

end Attachment

section Match

theorem matchPages_spec (requireDraft : Bool) (above : Above index n parent) :
    let keys := index.matchPages sha256 requireDraft chunks parent
    keys = (deriveFrom sha256 index.nameSpace chunks parent).take keys.length ∧
      ∀ (i : Nat) (key : PrefixPageKey), keys[i]? = some key → IndexedAt index key (n + i) := by
  induction chunks generalizing parent n with
  | nil => exact ⟨rfl, fun i key get => by simp [matchPages] at get⟩
  | cons tokens rest ih =>
    unfold matchPages
    dsimp only
    cases found : index.pages[PrefixPageKey.derive sha256 index.nameSpace parent tokens]? with
    | none => exact ⟨rfl, fun i key get => by simp at get⟩
    | some page =>
      dsimp only
      split
      · exact ⟨rfl, fun i key get => by simp at get⟩
      next accepted =>
      have isParent : page.parent = parent := by
        by_contra different
        exact accepted (.inl different)
      have here := indexedAt_of_above above found isParent
      obtain ⟨keys_eq, each⟩ := @ih (some (PrefixPageKey.derive sha256 index.nameSpace parent tokens)) (n + 1)
        ⟨n, rfl, here⟩
      refine ⟨?_, fun i key get => ?_⟩
      · rw [deriveFrom, List.length_cons, List.take_succ_cons, ← keys_eq]
      · cases i with
        | zero =>
          cases get
          exact here
        | succ i =>
          have := each i key get
          rwa [Nat.add_assoc, Nat.add_comm 1 i] at this

theorem deriveFrom_length (nameSpace : Bytes32) (chunks : List (List UInt32)) (parent : Option PrefixPageKey) :
    (deriveFrom sha256 nameSpace chunks parent).length = chunks.length := by
  induction chunks generalizing parent with
  | nil => rfl
  | cons tokens rest ih =>
    rw [deriveFrom, List.length_cons, List.length_cons, ih]

theorem deriveKeys_length (index : PrefixIndex) (tokens : List UInt32) :
    (index.deriveKeys sha256 tokens).length = tokens.length / pageTokens := by
  rw [deriveKeys, deriveFrom_length, pageChunks, List.length_map, List.length_range]

theorem longestMatch_spec {requireDraft : Bool} {found : PrefixMatch}
    (isMatch : index.longestMatchWithCapability sha256 tokens requireDraft = some found) :
    found.pageKeys = (index.deriveKeys sha256 tokens).take found.pageKeys.length ∧
      found.matchedTokens = found.pageKeys.length * pageTokens ∧
      ∀ (i : Nat) (key : PrefixPageKey), found.pageKeys[i]? = some key → IndexedAt index key i := by
  obtain ⟨keys_eq, each⟩ := @matchPages_spec sha256 index none (pageChunks tokens) 0 requireDraft rfl
  unfold longestMatchWithCapability at isMatch
  split at isMatch
  · cases isMatch
  next =>
    cases isMatch
    refine ⟨keys_eq, rfl, fun i key get => ?_⟩
    have := each i key get
    rwa [Nat.zero_add] at this

end Match

section Insert

structure StagedSound (index : PrefixIndex) (page : StagedPage) : Prop where
  valid : page.record.validate = .ok ()
  key_eq : page.record.pageKey = page.key
  absent : index.pages[page.key]? = none → page.replace = false
  present : ∀ existing, index.pages[page.key]? = some existing → existing.parent = page.parent ∧
    (page.replace = true → existing.record.relationTo page.record = .ok .mtpUpgrade ∧
      existing.record.generation < page.record.generation)

theorem replaces_sound {replace : Bool} (valid : record.validate = .ok ())
    (key_eq : record.pageKey = key) (ok : index.replaces key parent record = .ok replace) :
    StagedSound index ⟨key, parent, record, replace⟩ := by
  unfold replaces at ok
  split at ok
  next absent =>
    cases ok
    exact ⟨valid, key_eq, fun _ => rfl, fun existing found => by rw [absent] at found; cases found⟩
  next existing found =>
    split at ok
    · cases ok
    next isParent =>
    split at ok
    · cases ok
    next relation isRelation =>
    split at ok
    · cases ok
    next newer =>
    obtain ⟨_, _, ok⟩ := bind_eq_ok.mp ok
    cases ok
    refine ⟨valid, key_eq, fun absent => ?_, fun other isOther => ?_⟩
    · rw [found] at absent
      cases absent
    rw [found] at isOther
    cases isOther
    refine ⟨not_not.mp isParent, fun upgrade => ?_⟩
    have isUpgrade := of_decide_eq_true upgrade
    exact ⟨by rw [isRelation, isUpgrade], UInt64.not_le.mp fun older => newer ⟨isUpgrade, older⟩⟩

def Linked : Option PrefixPageKey → List StagedPage → Prop
  | _, [] => True
  | parent, page :: rest => page.parent = parent ∧ Linked (some page.key) rest

theorem stagePages_sound {pairs : List (List UInt32 × TierRecord)} {seen : List PrefixPageKey}
    (ok : index.stagePages sha256 pairs parent seen = .ok staged) :
    (∀ page ∈ staged, StagedSound index page) ∧ Linked parent staged ∧ (staged.map (·.key)).Nodup ∧
      ∀ page ∈ staged, page.key ∉ seen := by
  induction pairs generalizing parent seen staged with
  | nil =>
    cases ok
    exact ⟨by simp, trivial, List.nodup_nil, by simp⟩
  | cons pair rest ih =>
    obtain ⟨tokens, record⟩ := pair
    unfold stagePages at ok
    split at ok
    · cases ok
    next valid =>
    split at ok
    · cases ok
    dsimp only at ok
    split at ok
    · cases ok
    next key_eq =>
    split at ok
    · cases ok
    next fresh =>
    obtain ⟨replace, replaced, ok⟩ := bind_eq_ok.mp ok
    obtain ⟨later, isLater, ok⟩ := bind_eq_ok.mp ok
    cases ok
    obtain ⟨each, linked, distinct, unseen⟩ := ih isLater
    refine ⟨?_, ⟨rfl, linked⟩, ?_, ?_⟩
    · intro page member
      rcases List.mem_cons.mp member with rfl | later
      · exact replaces_sound valid (not_not.mp key_eq) replaced
      · exact each page later
    · rw [List.map_cons, List.nodup_cons]
      refine ⟨fun member => ?_, distinct⟩
      obtain ⟨page, isPage, same⟩ := List.mem_map.mp member
      exact unseen page isPage (same ▸ List.mem_cons_self ..)
    · intro page member
      rcases List.mem_cons.mp member with rfl | later
      · exact fresh
      · exact fun isSeen => unseen page later (List.mem_cons_of_mem _ isSeen)

theorem writePages_of_not_mem (absent : key ∉ staged.map (·.key)) :
    (writePages pages staged)[key]? = pages[key]? := by
  induction staged generalizing pages with
  | nil => rfl
  | cons page rest ih =>
    rw [List.map_cons, List.mem_cons, not_or] at absent
    show (writePages _ rest)[key]? = _
    rw [ih absent.2, getElem?_insert_ne absent.1]

theorem writePages_of_mem (distinct : (staged.map (·.key)).Nodup) (member : page ∈ staged) :
    (writePages pages staged)[page.key]? = some (writtenPage pages[page.key]? page) := by
  induction staged generalizing pages with
  | nil => cases member
  | cons first rest ih =>
    rw [List.map_cons, List.nodup_cons] at distinct
    show (writePages _ rest)[page.key]? = _
    rcases List.mem_cons.mp member with rfl | later
    · rw [writePages_of_not_mem distinct.1, ExtTreeMap.getElem?_insert_self]
    · have different : page.key ≠ first.key := fun same => distinct.1 (same ▸ List.mem_map_of_mem later)
      rw [ih distinct.2 later, getElem?_insert_ne different]

theorem writtenPage_valid (sound : IndexSound index) (its : StagedSound index page) :
    (writtenPage index.pages[page.key]? page).record.validate = .ok () ∧
      (writtenPage index.pages[page.key]? page).record.pageKey = page.key := by
  cases found : index.pages[page.key]? with
  | none => exact ⟨its.valid, its.key_eq⟩
  | some existing =>
    show (if page.replace then page.record else existing.record).validate = .ok () ∧
      (if page.replace then page.record else existing.record).pageKey = page.key
    split
    · exact ⟨its.valid, its.key_eq⟩
    · exact sound.valid page.key existing found

theorem writtenPage_parent (its : StagedSound index page) :
    (writtenPage index.pages[page.key]? page).parent = page.parent := by
  cases found : index.pages[page.key]? with
  | none => rfl
  | some existing => exact (its.present existing found).1

structure Inserts (index index' : PrefixIndex) (keys : List PrefixPageKey) : Prop where
  nameSpace_eq : index'.nameSpace = index.nameSpace
  sound : IndexSound index'
  kept : ∀ (key : PrefixPageKey) (n : Nat), IndexedAt index key n → IndexedAt index' key n
  distinct : keys.Nodup
  indexed : ∀ (i : Nat) (key : PrefixPageKey), keys[i]? = some key → IndexedAt index' key i
  others : ∀ key : PrefixPageKey, key ∉ keys → index'.pages[key]? = index.pages[key]?
  written : ∀ key ∈ keys, ∃ next, index'.record key = some next ∧ next.pageKey = key ∧
    (∀ prior, index.record key = some prior → prior = next ∨ prior.relationTo next = .ok .mtpUpgrade)

theorem linked_indexed (linked : Linked parent staged) (above : Above index n parent)
    (written : ∀ page ∈ staged, ∃ its : PrefixPage, index.pages[page.key]? = some its ∧ its.parent = page.parent) :
    ∀ (i : Nat) (key : PrefixPageKey), (staged.map (·.key))[i]? = some key → IndexedAt index key (n + i) := by
  induction staged generalizing parent n with
  | nil => intro i key get; simp at get
  | cons page rest ih =>
    obtain ⟨rfl, linked⟩ := linked
    obtain ⟨its, found, isParent⟩ := written page (List.mem_cons_self ..)
    have here : IndexedAt index page.key n := indexedAt_of_above above found isParent
    intro i key get
    cases i with
    | zero =>
      cases get
      exact here
    | succ i =>
      have := ih linked (n := n + 1) ⟨n, rfl, here⟩ (fun other member => written other (List.mem_cons_of_mem _ member))
        i key get
      rwa [Nat.add_assoc, Nat.add_comm 1 i] at this

theorem IndexedAt.mono (indexed : IndexedAt index key n)
    (kept : ∀ (key : PrefixPageKey) (page : PrefixPage), index.pages[key]? = some page →
      ∃ page', index'.pages[key]? = some page' ∧ page'.parent = page.parent) : IndexedAt index' key n := by
  induction indexed with
  | root found first =>
    obtain ⟨page', found', same⟩ := kept _ _ found
    exact .root found' (same.trans first)
  | child found isParent _ ih =>
    obtain ⟨page', found', same⟩ := kept _ _ found
    exact .child found' (same.trans isParent) ih

theorem insert_inserts {records : List TierRecord} {keys : List PrefixPageKey}
    (sound : IndexSound index) (ok : index.insert sha256 tokens records = .ok (keys, index')) :
    Inserts index index' keys := by
  unfold PrefixIndex.insert at ok
  split at ok
  · cases ok
  split at ok
  · cases ok
  obtain ⟨staged, isStaged, ok⟩ := bind_eq_ok.mp ok
  cases ok
  obtain ⟨each, linked, distinct, _⟩ := stagePages_sound isStaged
  have lookup (page : StagedPage) (member : page ∈ staged) :
      (writePages index.pages staged)[page.key]? = some (writtenPage index.pages[page.key]? page) :=
    writePages_of_mem distinct member
  have parents : ∀ (key : PrefixPageKey) (page : PrefixPage), index.pages[key]? = some page →
      ∃ page' : PrefixPage, (writePages index.pages staged)[key]? = some page' ∧ page'.parent = page.parent := by
    intro key page found
    by_cases member : key ∈ staged.map (·.key)
    · obtain ⟨its, isStaged, rfl⟩ := List.mem_map.mp member
      exact ⟨_, lookup its isStaged, by rw [found]; rfl⟩
    · exact ⟨page, by rw [writePages_of_not_mem member, found], rfl⟩
  have indexed : ∀ (i : Nat) (key : PrefixPageKey), (staged.map (·.key))[i]? = some key →
      IndexedAt { index with pages := writePages index.pages staged } key i := by
    intro i key get
    rw [← Nat.zero_add i]
    exact linked_indexed linked rfl
      (fun page member => ⟨_, lookup page member, writtenPage_parent (each page member)⟩) i key get
  refine ⟨rfl, ⟨?_, ?_⟩, fun key n at_ => at_.mono parents, distinct, indexed,
    fun key absent => writePages_of_not_mem absent, ?_⟩
  · intro key page found
    by_cases member : key ∈ staged.map (·.key)
    · obtain ⟨i, get⟩ := List.getElem?_of_mem member
      exact ⟨i, indexed i key get⟩
    · obtain ⟨n, at_⟩ := sound.placed key page (writePages_of_not_mem member ▸ found)
      exact ⟨n, at_.mono parents⟩
  · intro key page found
    by_cases member : key ∈ staged.map (·.key)
    · obtain ⟨its, isStaged, rfl⟩ := List.mem_map.mp member
      have written := lookup its isStaged
      rw [show (writePages index.pages staged)[its.key]? = some page from found] at written
      cases written
      exact writtenPage_valid sound (each its isStaged)
    · exact sound.valid key page (writePages_of_not_mem member ▸ found)
  · intro key member
    obtain ⟨its, isStaged, rfl⟩ := List.mem_map.mp member
    have written := lookup its isStaged
    refine ⟨_, by rw [PrefixIndex.record, written]; rfl, (writtenPage_valid sound (each its isStaged)).2, ?_⟩
    intro prior isPrior
    obtain ⟨existing, found, rfl⟩ := page_of_record isPrior
    rw [found]
    show existing.record = (if its.replace then its.record else existing.record) ∨
      existing.record.relationTo (if its.replace then its.record else existing.record) = _
    split
    next replace => exact .inr (((each its isStaged).present existing found).2 replace).1
    next => exact .inl rfl

end Insert

end Glmaxx.Proof.Prefix
