import Glmaxx.Library.Selection
import Glmaxx.Proof.Prefix.Runs

/-!
# The prefix index and the insertions behind it

What the index holds is compared with the list of token lists that were inserted. Two chains that share a key share
everything above it, provided that no two of their links hash to one key.
-/

namespace Glmaxx.Proof.Prefix
open Std Library Cache Cache.PrefixIndex

variable {i : Nat} {link : Link} {page : PrefixPage}

variable {sha256 : List UInt8 → Bytes32} {nameSpace : Bytes32} {index index' : PrefixIndex} {key : PrefixPageKey}
  {parent : Option PrefixPageKey} {chunks : List (List UInt32)} {tokens : List UInt32} {inserted : List (List UInt32)}

section Chains

structure Link where
  parent : Option PrefixPageKey
  page : List UInt32
deriving DecidableEq

def linkKey (sha256 : List UInt8 → Bytes32) (nameSpace : Bytes32) (link : Link) : PrefixPageKey :=
  PrefixPageKey.derive sha256 nameSpace link.parent link.page

def linksFrom (sha256 : List UInt8 → Bytes32) (nameSpace : Bytes32) :
    List (List UInt32) → Option PrefixPageKey → List Link
  | [], _ => []
  | page :: rest, parent =>
    ⟨parent, page⟩ :: linksFrom sha256 nameSpace rest (some (PrefixPageKey.derive sha256 nameSpace parent page))

def links (sha256 : List UInt8 → Bytes32) (nameSpace : Bytes32) (tokens : List UInt32) : List Link :=
  linksFrom sha256 nameSpace (pageChunks tokens) none

def keysOf (sha256 : List UInt8 → Bytes32) (nameSpace : Bytes32) (tokens : List UInt32) : List PrefixPageKey :=
  deriveFrom sha256 nameSpace (pageChunks tokens) none

def NoCollision (sha256 : List UInt8 → Bytes32) (nameSpace : Bytes32) (prompts : List (List UInt32)) : Prop :=
  ∀ a ∈ prompts, ∀ b ∈ prompts, ∀ x ∈ links sha256 nameSpace a, ∀ y ∈ links sha256 nameSpace b,
    linkKey sha256 nameSpace x = linkKey sha256 nameSpace y → x = y

theorem deriveFrom_eq_map : deriveFrom sha256 nameSpace chunks parent =
    (linksFrom sha256 nameSpace chunks parent).map (linkKey sha256 nameSpace) := by
  induction chunks generalizing parent with
  | nil => rfl
  | cons page rest ih =>
    rw [deriveFrom, linksFrom, List.map_cons, ih]
    rfl

theorem keysOf_eq_map : keysOf sha256 nameSpace tokens = (links sha256 nameSpace tokens).map (linkKey sha256 nameSpace) :=
  deriveFrom_eq_map

theorem linksFrom_take (n : Nat) : (linksFrom sha256 nameSpace chunks parent).take n =
    linksFrom sha256 nameSpace (chunks.take n) parent := by
  induction chunks generalizing parent n with
  | nil => simp [linksFrom]
  | cons page rest ih =>
    cases n with
    | zero => rfl
    | succ n => rw [List.take_succ_cons, linksFrom, linksFrom, List.take_succ_cons, ih]

theorem linksFrom_get (get : (linksFrom sha256 nameSpace chunks parent)[i]? = some link) :
    chunks[i]? = some link.page ∧
      match i with
      | 0 => link.parent = parent
      | i + 1 => ∃ above, link.parent = some above ∧ (deriveFrom sha256 nameSpace chunks parent)[i]? = some above := by
  induction chunks generalizing parent i with
  | nil => cases get
  | cons page rest ih =>
    cases i with
    | zero =>
      cases get
      exact ⟨rfl, rfl⟩
    | succ i =>
      obtain ⟨isPage, isParent⟩ := ih get
      refine ⟨isPage, ?_⟩
      cases i with
      | zero => exact ⟨_, isParent, rfl⟩
      | succ i => exact isParent

theorem links_parent (member : link ∈ links sha256 nameSpace tokens) :
    link.parent = none ∨ ∃ above, link.parent = some above ∧ above ∈ keysOf sha256 nameSpace tokens := by
  obtain ⟨i, get⟩ := List.getElem?_of_mem member
  obtain ⟨-, isParent⟩ := linksFrom_get get
  cases i with
  | zero => exact .inl isParent
  | succ i =>
    obtain ⟨above, isAbove, found⟩ := isParent
    exact .inr ⟨above, isAbove, List.mem_of_getElem? found⟩

theorem link_of_key (get : (keysOf sha256 nameSpace tokens)[i]? = some key) :
    ∃ link, (links sha256 nameSpace tokens)[i]? = some link ∧ linkKey sha256 nameSpace link = key := by
  rw [keysOf_eq_map, List.getElem?_map] at get
  exact Option.map_eq_some_iff.mp get

theorem agree_of_key {prompts : List (List UInt32)} (free : NoCollision sha256 nameSpace prompts) {a b : List UInt32}
    (isA : a ∈ prompts) (isB : b ∈ prompts) {j : Nat} (atA : (keysOf sha256 nameSpace a)[i]? = some key)
    (atB : (keysOf sha256 nameSpace b)[j]? = some key) :
    i = j ∧ (pageChunks a).take (i + 1) = (pageChunks b).take (i + 1) := by
  induction i generalizing j key with
  | zero =>
    obtain ⟨x, getX, isKey⟩ := link_of_key atA
    obtain ⟨y, getY, isKey'⟩ := link_of_key atB
    obtain rfl := free a isA b isB x (List.mem_of_getElem? getX) y (List.mem_of_getElem? getY) (isKey.trans isKey'.symm)
    obtain ⟨pageA, parentA⟩ := linksFrom_get getX
    obtain ⟨pageB, parentB⟩ := linksFrom_get getY
    cases j with
    | zero => exact ⟨rfl, by rw [List.take_add_one, List.take_add_one, pageA, pageB]; rfl⟩
    | succ j =>
      obtain ⟨above, isAbove, -⟩ := parentB
      rw [show x.parent = none from parentA] at isAbove
      cases isAbove
  | succ i ih =>
    obtain ⟨x, getX, isKey⟩ := link_of_key atA
    obtain ⟨y, getY, isKey'⟩ := link_of_key atB
    obtain rfl := free a isA b isB x (List.mem_of_getElem? getX) y (List.mem_of_getElem? getY) (isKey.trans isKey'.symm)
    obtain ⟨pageA, above, isAbove, foundA⟩ := linksFrom_get getX
    obtain ⟨pageB, parentB⟩ := linksFrom_get getY
    cases j with
    | zero =>
      rw [show x.parent = none from parentB] at isAbove
      cases isAbove
    | succ j =>
      obtain ⟨above', isAbove', foundB⟩ := parentB
      cases isAbove.symm.trans isAbove'
      obtain ⟨rfl, agree⟩ := ih foundA foundB
      exact ⟨rfl, by rw [List.take_add_one, List.take_add_one (l := pageChunks b), agree, pageA, pageB]⟩

end Chains

section Insertions

/-- How the record of a page changes: not at all, or once, to one of a later generation that has the draft. -/
structure Evolves (before after : TierRecord) : Prop where
  targetKv : logicalPieceIdentity before .targetKv = logicalPieceIdentity after .targetKv
  targetIndexer : logicalPieceIdentity before .targetIndexer = logicalPieceIdentity after .targetIndexer
  change : after = before ∨ before.mtp = false ∧ after.mtp = true ∧ before.generation < after.generation

theorem Evolves.refl (record : TierRecord) : Evolves record record := ⟨rfl, rfl, .inl rfl⟩

theorem Evolves.trans {a b c : TierRecord} (first : Evolves a b) (second : Evolves b c) : Evolves a c := by
  refine ⟨first.targetKv.trans second.targetKv, first.targetIndexer.trans second.targetIndexer, ?_⟩
  rcases first.change with rfl | ⟨without, draft, newer⟩
  · exact second.change
  · rcases second.change with rfl | ⟨without', -, -⟩
    · exact .inr ⟨without, draft, newer⟩
    · rw [draft] at without'
      cases without'

theorem evolves_of_upgrade {before after : TierRecord} (upgrade : before.relationTo after = .ok .mtpUpgrade)
    (newer : before.generation < after.generation) : Evolves before after := by
  obtain ⟨⟨⟩, -, upgrade⟩ := bind_eq_ok.mp upgrade
  obtain ⟨⟨⟩, -, upgrade⟩ := bind_eq_ok.mp upgrade
  by_cases differs : before.nameSpace ≠ after.nameSpace ∨ before.pageKey ≠ after.pageKey ∨
      logicalPieceIdentity before .targetKv ≠ logicalPieceIdentity after .targetKv ∨
      logicalPieceIdentity before .targetIndexer ≠ logicalPieceIdentity after .targetIndexer
  · rw [if_pos differs] at upgrade
    cases upgrade
  rw [if_neg differs] at upgrade
  simp only [not_or, not_not] at differs
  refine ⟨differs.2.2.1, differs.2.2.2, .inr ?_⟩
  cases draft : before.mtp <;> cases draft' : after.mtp <;> rw [draft, draft'] at upgrade
  · cases upgrade
  · exact ⟨rfl, rfl, newer⟩
  · cases upgrade
  · by_cases same : logicalPieceIdentity before .draftSidecar = logicalPieceIdentity after .draftSidecar
    · rw [if_pos same] at upgrade
      cases upgrade
    · rw [if_neg same] at upgrade
      cases upgrade

/-- An insertion writes the pages of one chain: a new page is referenced once, one that was there once more. -/
structure Wrote (sha256 : List UInt8 → Bytes32) (index index' : PrefixIndex) (tokens : List UInt32) : Prop where
  nameSpace_eq : index'.nameSpace = index.nameSpace
  others : ∀ key : PrefixPageKey, key ∉ keysOf sha256 index.nameSpace tokens → index'.pages[key]? = index.pages[key]?
  fresh : ∀ link ∈ links sha256 index.nameSpace tokens, index.pages[linkKey sha256 index.nameSpace link]? = none →
    ∃ record, index'.pages[linkKey sha256 index.nameSpace link]? = some ⟨link.parent, record, 1⟩
  again : ∀ link ∈ links sha256 index.nameSpace tokens, ∀ page,
    index.pages[linkKey sha256 index.nameSpace link]? = some page → page.parent = link.parent ∧
      ∃ record, Evolves page.record record ∧ index'.pages[linkKey sha256 index.nameSpace link]? =
        some ⟨page.parent, record, page.references + 1⟩

theorem stagePages_links {pairs : List (List UInt32 × TierRecord)} {seen : List PrefixPageKey} {staged : List StagedPage}
    (ok : index.stagePages sha256 pairs parent seen = .ok staged) :
    staged.map (fun page => (page.parent, page.key)) =
      (linksFrom sha256 index.nameSpace (pairs.map (·.1)) parent).map fun link =>
        (link.parent, linkKey sha256 index.nameSpace link) := by
  induction pairs generalizing parent seen staged with
  | nil =>
    cases ok
    rfl
  | cons pair rest ih =>
    obtain ⟨page, record⟩ := pair
    unfold stagePages at ok
    split at ok
    · cases ok
    split at ok
    · cases ok
    dsimp only at ok
    split at ok
    · cases ok
    split at ok
    · cases ok
    obtain ⟨replace, -, ok⟩ := bind_eq_ok.mp ok
    obtain ⟨later, isLater, ok⟩ := bind_eq_ok.mp ok
    cases ok
    rw [List.map_cons, List.map_cons, linksFrom, List.map_cons, ih isLater]
    rfl

theorem insert_wrote {records : List TierRecord} {keys : List PrefixPageKey}
    (ok : index.insert sha256 tokens records = .ok (keys, index')) :
    keys = keysOf sha256 index.nameSpace tokens ∧ Wrote sha256 index index' tokens := by
  unfold PrefixIndex.insert at ok
  split at ok
  · cases ok
  split at ok
  · cases ok
  next counted =>
  obtain ⟨staged, isStaged, ok⟩ := bind_eq_ok.mp ok
  cases ok
  obtain ⟨each, -, distinct, -⟩ := stagePages_sound isStaged
  have pages : ((pageChunks tokens).zip records).map (·.1) = pageChunks tokens := by
    apply List.map_fst_zip
    rw [not_not.mp counted, pageChunks, List.length_map, List.length_range]
  have chain := stagePages_links isStaged
  rw [pages] at chain
  have keys_eq : staged.map (·.key) = keysOf sha256 index.nameSpace tokens := by
    have keys := congrArg (List.map Prod.snd) chain
    rw [List.map_map, List.map_map] at keys
    exact keys.trans keysOf_eq_map.symm
  have staged_of {link : Link} (member : link ∈ links sha256 index.nameSpace tokens) :
      ∃ page ∈ staged, page.parent = link.parent ∧ page.key = linkKey sha256 index.nameSpace link := by
    have listed : (link.parent, linkKey sha256 index.nameSpace link) ∈ staged.map fun page => (page.parent, page.key) := by
      rw [chain]
      exact List.mem_map_of_mem member
    obtain ⟨page, isPage, same⟩ := List.mem_map.mp listed
    exact ⟨page, isPage, congrArg Prod.fst same, congrArg Prod.snd same⟩
  refine ⟨keys_eq, rfl, ?_, ?_, ?_⟩
  · intro key absent
    exact writePages_of_not_mem (keys_eq ▸ absent)
  · intro link member absent
    obtain ⟨page, isPage, isParent, isKey⟩ := staged_of member
    refine ⟨page.record, ?_⟩
    have written : (writePages index.pages staged)[page.key]? = _ := writePages_of_mem distinct isPage
    rw [isKey, absent] at written
    exact isParent ▸ written
  · intro link member existing found
    obtain ⟨page, isPage, isParent, isKey⟩ := staged_of member
    obtain ⟨parent_eq, upgrades⟩ := (each page isPage).present existing (isKey ▸ found)
    have written : (writePages index.pages staged)[page.key]? = _ := writePages_of_mem distinct isPage
    rw [isKey, found] at written
    refine ⟨parent_eq.trans isParent, _, ?_, written⟩
    split
    next replace => exact evolves_of_upgrade (upgrades replace).1 (upgrades replace).2
    next => exact .refl _

end Insertions

section Runs

structure InsertCall where
  tokens : List UInt32
  records : List TierRecord

/-- The index together with the token lists whose insertion succeeded. -/
structure Insertions where
  index : PrefixIndex
  succeeded : List (List UInt32)

namespace Insertions

def insert (sha256 : List UInt8 → Bytes32) (state : Insertions) (call : InsertCall) : Insertions :=
  match state.index.insert sha256 call.tokens call.records with
  | .ok (_, index) => ⟨index, state.succeeded ++ [call.tokens]⟩
  | .error _ => state

def run (sha256 : List UInt8 → Bytes32) (nameSpace : Bytes32) (calls : List InsertCall) : Insertions :=
  calls.foldl (insert sha256) ⟨PrefixIndex.new nameSpace, []⟩

end Insertions

variable {state : Insertions} {calls : List InsertCall}

structure Exact (sha256 : List UInt8 → Bytes32) (nameSpace : Bytes32) (state : Insertions) : Prop where
  nameSpace_eq : state.index.nameSpace = nameSpace
  stored : ∀ key : PrefixPageKey, (∃ page, state.index.pages[key]? = some page) ↔
    ∃ tokens ∈ state.succeeded, key ∈ keysOf sha256 nameSpace tokens
  parents : ∀ tokens ∈ state.succeeded, ∀ link ∈ links sha256 nameSpace tokens, ∀ page,
    state.index.pages[linkKey sha256 nameSpace link]? = some page → page.parent = link.parent
  counted : ∀ (key : PrefixPageKey) page, state.index.pages[key]? = some page →
    page.references = state.succeeded.countP (key ∈ keysOf sha256 nameSpace ·)

theorem exact_new : Exact sha256 nameSpace ⟨PrefixIndex.new nameSpace, []⟩ where
  nameSpace_eq := rfl
  stored key := by simp [PrefixIndex.new]
  parents := nofun
  counted key page found := by simp [PrefixIndex.new] at found

theorem mem_keysOf : key ∈ keysOf sha256 nameSpace tokens ↔
    ∃ link ∈ links sha256 nameSpace tokens, linkKey sha256 nameSpace link = key := by
  rw [keysOf_eq_map, List.mem_map]

theorem Exact.countP_absent (exact : Exact sha256 nameSpace state) (absent : state.index.pages[key]? = none) :
    state.succeeded.countP (key ∈ keysOf sha256 nameSpace ·) = 0 := by
  refine List.countP_eq_zero.mpr fun tokens member isKey => ?_
  obtain ⟨page, found⟩ := (exact.stored key).mpr ⟨tokens, member, of_decide_eq_true isKey⟩
  rw [absent] at found
  cases found

theorem Wrote.lookup (wrote : Wrote sha256 index index' tokens)
    (member : link ∈ links sha256 index.nameSpace tokens) :
    ∃ page, index'.pages[linkKey sha256 index.nameSpace link]? = some page ∧ page.parent = link.parent ∧
      page.references = (index.pages[linkKey sha256 index.nameSpace link]?.elim 0 (·.references)) + 1 := by
  cases found : index.pages[linkKey sha256 index.nameSpace link]? with
  | none =>
    obtain ⟨record, written⟩ := wrote.fresh link member found
    exact ⟨_, written, rfl, rfl⟩
  | some page =>
    obtain ⟨isParent, record, -, written⟩ := wrote.again link member page found
    exact ⟨_, written, isParent, rfl⟩

theorem Wrote.kept (wrote : Wrote sha256 index index' tokens) (found : index.pages[key]? = some page) :
    ∃ page', index'.pages[key]? = some page' ∧ page'.parent = page.parent ∧ Evolves page.record page'.record := by
  by_cases member : key ∈ keysOf sha256 index.nameSpace tokens
  · obtain ⟨link, isLink, rfl⟩ := mem_keysOf.mp member
    obtain ⟨-, record, evolves, written⟩ := wrote.again link isLink page found
    exact ⟨_, written, rfl, evolves⟩
  · exact ⟨page, (wrote.others key member).trans found, rfl, .refl _⟩

theorem exact_wrote (exact : Exact sha256 nameSpace state) (wrote : Wrote sha256 state.index index' tokens) :
    Exact sha256 nameSpace ⟨index', state.succeeded ++ [tokens]⟩ := by
  obtain ⟨rfl, stored, parents, counted⟩ := exact
  have exact : Exact sha256 state.index.nameSpace state := ⟨rfl, stored, parents, counted⟩
  refine ⟨wrote.nameSpace_eq, fun key => ⟨?_, ?_⟩, ?_, ?_⟩
  · rintro ⟨page, found⟩
    by_cases member : key ∈ keysOf sha256 state.index.nameSpace tokens
    · exact ⟨tokens, by simp, member⟩
    · obtain ⟨earlier, isEarlier, isKey⟩ := (stored key).mp ⟨page, (wrote.others key member).symm.trans found⟩
      exact ⟨earlier, by simp [isEarlier], isKey⟩
  · rintro ⟨its, isOne, isKey⟩
    rcases List.mem_append.mp isOne with earlier | last
    · obtain ⟨page, found⟩ := (stored key).mpr ⟨its, earlier, isKey⟩
      obtain ⟨page', found', -⟩ := wrote.kept found
      exact ⟨page', found'⟩
    · obtain rfl := List.mem_singleton.mp last
      obtain ⟨link, isLink, rfl⟩ := mem_keysOf.mp isKey
      obtain ⟨page, written, -⟩ := wrote.lookup isLink
      exact ⟨page, written⟩
  · intro its isOne link isLink page found
    rcases List.mem_append.mp isOne with earlier | last
    · obtain ⟨before, wasFound⟩ := (stored _).mpr ⟨its, earlier, mem_keysOf.mpr ⟨link, isLink, rfl⟩⟩
      obtain ⟨page', found', isParent, -⟩ := wrote.kept wasFound
      cases found.symm.trans found'
      exact isParent.trans (parents its earlier link isLink before wasFound)
    · obtain rfl := List.mem_singleton.mp last
      obtain ⟨page', written, isParent, -⟩ := wrote.lookup isLink
      cases found.symm.trans written
      exact isParent
  · intro key page found
    rw [List.countP_append, List.countP_singleton]
    by_cases member : key ∈ keysOf sha256 state.index.nameSpace tokens
    · rw [if_pos (decide_eq_true member)]
      obtain ⟨link, isLink, rfl⟩ := mem_keysOf.mp member
      obtain ⟨page', written, -, references⟩ := wrote.lookup isLink
      cases found.symm.trans written
      rw [references]
      cases before : state.index.pages[linkKey sha256 state.index.nameSpace link]? with
      | none => rw [exact.countP_absent before]; rfl
      | some its => rw [← counted _ its before]; rfl
    · rw [if_neg (by simpa using member), Nat.add_zero]
      exact counted key page ((wrote.others key member).symm.trans found)

theorem exact_insert (exact : Exact sha256 nameSpace state) (call : InsertCall) :
    Exact sha256 nameSpace (state.insert sha256 call) := by
  unfold Insertions.insert
  cases outcome : state.index.insert sha256 call.tokens call.records with
  | error failure => exact exact
  | ok result => exact exact_wrote exact (insert_wrote outcome).2

theorem exact_run (calls : List InsertCall) : Exact sha256 nameSpace (Insertions.run sha256 nameSpace calls) :=
  foldl_invariant (Exact sha256 nameSpace) (fun _ call exact => exact_insert exact call) calls _ exact_new

def RecordsEvolve (before after : PrefixIndex) : Prop :=
  ∀ (key : PrefixPageKey) record, before.record key = some record →
    ∃ record', after.record key = some record' ∧ Evolves record record'

theorem recordsEvolve_insert (state : Insertions) (call : InsertCall) :
    RecordsEvolve state.index (state.insert sha256 call).index := by
  intro key record isRecord
  unfold Insertions.insert
  cases outcome : state.index.insert sha256 call.tokens call.records with
  | error failure => exact ⟨record, isRecord, .refl _⟩
  | ok result =>
    obtain ⟨page, found, rfl⟩ := page_of_record isRecord
    obtain ⟨page', found', -, evolves⟩ := (insert_wrote outcome).2.kept found
    exact ⟨page'.record, by rw [PrefixIndex.record, found']; rfl, evolves⟩

theorem recordsEvolve_foldl (calls : List InsertCall) (state : Insertions) :
    RecordsEvolve state.index (calls.foldl (Insertions.insert sha256) state).index := by
  induction calls generalizing state with
  | nil => exact fun key record isRecord => ⟨record, isRecord, .refl _⟩
  | cons call rest ih =>
    intro key record isRecord
    obtain ⟨next, isNext, first⟩ := recordsEvolve_insert state call key record isRecord
    obtain ⟨last, isLast, second⟩ := ih _ key next isNext
    exact ⟨last, isLast, first.trans second⟩

end Runs

section Lookups
variable {query : List UInt32}

def usable (index : PrefixIndex) (requireDraft : Bool) (key : PrefixPageKey) : Bool :=
  index.pages[key]?.any fun page => !requireDraft || page.record.mtp

theorem usable_iff {requireDraft : Bool} : usable index requireDraft key = true ↔
    ∃ page, index.pages[key]? = some page ∧ (requireDraft = true → page.record.mtp = true) := by
  unfold usable
  cases index.pages[key]? with
  | none => simp
  | some page => cases requireDraft <;> simp

theorem matchPages_eq (requireDraft : Bool)
    (parents : ∀ link ∈ linksFrom sha256 index.nameSpace chunks parent, ∀ page,
      index.pages[linkKey sha256 index.nameSpace link]? = some page → page.parent = link.parent) :
    index.matchPages sha256 requireDraft chunks parent =
      (deriveFrom sha256 index.nameSpace chunks parent).takeWhile (usable index requireDraft) := by
  induction chunks generalizing parent with
  | nil => rfl
  | cons page rest ih =>
    rw [linksFrom] at parents
    have first := parents _ (List.mem_cons_self ..)
    have later := ih fun link member => parents link (List.mem_cons_of_mem _ member)
    unfold matchPages
    dsimp only [linkKey] at first ⊢
    rw [deriveFrom, List.takeWhile_cons, usable, later]
    cases found : index.pages[PrefixPageKey.derive sha256 index.nameSpace parent page]? with
    | none => rfl
    | some its =>
      have isParent : its.parent = parent := first its found
      cases requireDraft <;> cases draft : its.record.mtp <;> simp [isParent, draft]

theorem longestMatch_eq (requireDraft : Bool) (parents : ∀ link ∈ links sha256 index.nameSpace query, ∀ page,
      index.pages[linkKey sha256 index.nameSpace link]? = some page → page.parent = link.parent) :
    ∃ n, IsGreatest {n | n ≤ (index.deriveKeys sha256 query).length ∧
        ∀ key ∈ (index.deriveKeys sha256 query).take n, usable index requireDraft key = true} n ∧
      index.longestMatchWithCapability sha256 query requireDraft =
        if n = 0 then none else some ⟨(index.deriveKeys sha256 query).take n, n * pageTokens⟩ := by
  refine ⟨_, takeWhile_isGreatest _, ?_⟩
  rw [← takeWhile_eq_take]
  unfold longestMatchWithCapability
  rw [matchPages_eq requireDraft parents]
  show _ = if ((index.deriveKeys sha256 query).takeWhile _).length = 0 then _ else _
  unfold deriveKeys
  cases (deriveFrom sha256 index.nameSpace (pageChunks query) none).takeWhile (usable index requireDraft) with
  | nil => rfl
  | cons key rest => rfl

theorem Exact.query_parents (exact : Exact sha256 nameSpace state)
    (free : NoCollision sha256 nameSpace (query :: state.succeeded))
    (member : link ∈ links sha256 nameSpace query)
    (found : state.index.pages[linkKey sha256 nameSpace link]? = some page) : page.parent = link.parent := by
  obtain ⟨tokens, isOne, isKey⟩ := (exact.stored _).mp ⟨page, found⟩
  obtain ⟨its, isLink, same⟩ := mem_keysOf.mp isKey
  obtain rfl := free query (by simp) tokens (by simp [isOne]) link member its isLink same.symm
  exact exact.parents tokens isOne link isLink page found

def SharesPages (n : Nat) (a b : List UInt32) : Prop :=
  n ≤ (pageChunks a).length ∧ n ≤ (pageChunks b).length ∧ (pageChunks a).take n = (pageChunks b).take n

theorem keysOf_take (n : Nat) :
    (keysOf sha256 nameSpace tokens).take n = deriveFrom sha256 nameSpace ((pageChunks tokens).take n) none := by
  rw [keysOf_eq_map, ← List.map_take, links, linksFrom_take, deriveFrom_eq_map]

theorem keysOf_length : (keysOf sha256 nameSpace tokens).length = (pageChunks tokens).length := deriveFrom_length ..

theorem Exact.stored_iff_shares (exact : Exact sha256 nameSpace state)
    (free : NoCollision sha256 nameSpace (query :: state.succeeded)) (n : Nat) :
    (n ≤ (keysOf sha256 nameSpace query).length ∧
      ∀ key ∈ (keysOf sha256 nameSpace query).take n, usable state.index false key = true) ↔
    n = 0 ∨ ∃ tokens ∈ state.succeeded, SharesPages n query tokens := by
  constructor
  · rintro ⟨within, each⟩
    cases n with
    | zero => exact .inl rfl
    | succ n =>
      right
      have atQuery := List.getElem?_eq_getElem within
      have isTaken : (keysOf sha256 nameSpace query)[n] ∈ (keysOf sha256 nameSpace query).take (n + 1) :=
        List.mem_take_iff_getElem.mpr ⟨n, by omega, rfl⟩
      obtain ⟨page, found, -⟩ := usable_iff.mp (each _ isTaken)
      obtain ⟨tokens, isOne, isKey⟩ := (exact.stored _).mp ⟨page, found⟩
      obtain ⟨j, atTokens⟩ := List.getElem?_of_mem isKey
      obtain ⟨rfl, agree⟩ := agree_of_key free (by simp) (by simp [isOne]) atQuery atTokens
      have within' := (List.getElem?_eq_some_iff.mp atTokens).1
      exact ⟨tokens, isOne, keysOf_length ▸ within, keysOf_length ▸ within', agree⟩
  · rintro (rfl | ⟨tokens, isOne, within, -, agree⟩)
    · simp
    · refine ⟨keysOf_length ▸ within, fun key member => usable_iff.mpr ?_⟩
      rw [keysOf_take, agree, ← keysOf_take] at member
      obtain ⟨page, found⟩ := (exact.stored key).mpr ⟨tokens, isOne, List.mem_of_mem_take member⟩
      exact ⟨page, found, nofun⟩

end Lookups

/-- The index after any calls of `insert`, seen from the token lists whose insertion succeeded. -/
theorem index_is_exact (sha256 : List UInt8 → Bytes32) (nameSpace : Bytes32) (calls : List InsertCall) :
    let state := Insertions.run sha256 nameSpace calls
    (∀ key : PrefixPageKey, (∃ page, state.index.pages[key]? = some page) ↔
      ∃ tokens ∈ state.succeeded, key ∈ state.index.deriveKeys sha256 tokens) ∧
    (∀ (key : PrefixPageKey) page, state.index.pages[key]? = some page →
      (page.parent = none ∨ ∃ above its, page.parent = some above ∧ state.index.pages[above]? = some its) ∧
      page.references = state.succeeded.countP (key ∈ state.index.deriveKeys sha256 ·)) ∧
    (∀ query, NoCollision sha256 nameSpace (query :: state.succeeded) →
      (∃ n, IsGreatest {n | n = 0 ∨ ∃ tokens ∈ state.succeeded, SharesPages n query tokens} n ∧
        state.index.longestMatch sha256 query =
          if n = 0 then none else some ⟨(state.index.deriveKeys sha256 query).take n, n * pageTokens⟩) ∧
      ∃ n, IsGreatest {n | n ≤ (state.index.deriveKeys sha256 query).length ∧
          ∀ key ∈ (state.index.deriveKeys sha256 query).take n,
            ∃ page, state.index.pages[key]? = some page ∧ page.record.mtp = true} n ∧
        state.index.longestMatchWithCapability sha256 query true =
          if n = 0 then none else some ⟨(state.index.deriveKeys sha256 query).take n, n * pageTokens⟩) ∧
    (∀ earlier later, earlier ≤ later → RecordsEvolve (Insertions.run sha256 nameSpace (calls.take earlier)).index
      (Insertions.run sha256 nameSpace (calls.take later)).index) ∧
    ∀ k call, calls[k]? = some call →
      match (Insertions.run sha256 nameSpace (calls.take k)).index.insert sha256 call.tokens call.records with
      | .ok (keys, index) => keys = index.deriveKeys sha256 call.tokens ∧
        (Insertions.run sha256 nameSpace (calls.take (k + 1))).index = index
      | .error _ => Insertions.run sha256 nameSpace (calls.take (k + 1)) =
        Insertions.run sha256 nameSpace (calls.take k) := by
  have exact : Exact sha256 nameSpace (Insertions.run sha256 nameSpace calls) := exact_run calls
  intro state
  have sameKeys (tokens : List UInt32) : state.index.deriveKeys sha256 tokens = keysOf sha256 nameSpace tokens := by
    rw [deriveKeys, exact.nameSpace_eq, keysOf]
  simp only [sameKeys]
  refine ⟨exact.stored, fun key page found => ⟨?_, exact.counted key page found⟩, fun query free => ?_, ?_, ?_⟩
  · obtain ⟨tokens, isOne, isKey⟩ := (exact.stored key).mp ⟨page, found⟩
    obtain ⟨link, isLink, rfl⟩ := mem_keysOf.mp isKey
    rw [exact.parents tokens isOne link isLink page found]
    rcases links_parent isLink with isRoot | ⟨above, isAbove, listed⟩
    · exact .inl isRoot
    · obtain ⟨its, stored⟩ := (exact.stored above).mpr ⟨tokens, isOne, listed⟩
      exact .inr ⟨above, its, isAbove, stored⟩
  · have parents : ∀ link ∈ links sha256 state.index.nameSpace query, ∀ page,
        state.index.pages[linkKey sha256 state.index.nameSpace link]? = some page → page.parent = link.parent := by
      rw [exact.nameSpace_eq]
      exact fun link member page found => exact.query_parents free member found
    constructor
    · obtain ⟨n, ⟨passes, most⟩, isMatch⟩ := longestMatch_eq false parents
      simp only [sameKeys] at passes most isMatch
      have shares := exact.stored_iff_shares free
      exact ⟨n, ⟨(shares n).mp passes, fun m shared => most ((shares m).mpr shared)⟩, isMatch⟩
    · obtain ⟨n, greatest, isMatch⟩ := longestMatch_eq true parents
      simp only [sameKeys, usable_iff, forall_const] at greatest isMatch
      exact ⟨n, greatest, isMatch⟩
  · intro earlier later ordered
    obtain ⟨more, rfl⟩ := Nat.exists_eq_add_of_le ordered
    unfold Insertions.run
    rw [List.take_add, List.foldl_append]
    exact recordsEvolve_foldl _ _
  · intro k call get
    have next : Insertions.run sha256 nameSpace (calls.take (k + 1)) =
        (Insertions.run sha256 nameSpace (calls.take k)).insert sha256 call := foldl_take_succ _ get
    cases outcome : (Insertions.run sha256 nameSpace (calls.take k)).index.insert sha256 call.tokens call.records with
    | error failure =>
      rw [next, Insertions.insert, outcome]
    | ok result =>
      obtain ⟨keys_eq, wrote⟩ := insert_wrote outcome
      refine ⟨?_, by rw [next, Insertions.insert, outcome]⟩
      rw [keys_eq, deriveKeys, wrote.nameSpace_eq]
      rfl

section Sample
open Proof.Residency (sampleRecord)

theorem sampleQuery_matches : let calls : List InsertCall :=
      [⟨samplePrompt [1, 2], [sampleRecord 1, sampleRecord 2]⟩, ⟨samplePrompt [2], [sampleRecord 1]⟩]
    let state := Insertions.run lastByte (List.Vector.replicate 32 1) calls
    state.succeeded = [samplePrompt [1, 2]] ∧
      ∃ n, IsGreatest {n | n = 0 ∨ ∃ tokens ∈ state.succeeded, SharesPages n (samplePrompt [1, 3]) tokens} n ∧
        state.index.longestMatch lastByte (samplePrompt [1, 3]) =
          if n = 0 then none
          else some ⟨(state.index.deriveKeys lastByte (samplePrompt [1, 3])).take n, n * pageTokens⟩ := by
  intro calls state
  have succeeded : state.succeeded = [samplePrompt [1, 2]] := by decide +kernel
  have free : NoCollision lastByte (List.Vector.replicate 32 1) (samplePrompt [1, 3] :: state.succeeded) := by
    rw [succeeded]
    unfold NoCollision
    decide +kernel
  exact ⟨succeeded, ((index_is_exact lastByte (List.Vector.replicate 32 1) calls).2.2.1 _ free).1⟩

end Sample

end Glmaxx.Proof.Prefix
