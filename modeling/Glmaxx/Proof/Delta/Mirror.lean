import Glmaxx.Cache.Delta
import Glmaxx.Proof.Sequence.Runs

namespace Glmaxx.Proof.Delta
open Std Library Cache Cache.SequencePageTable Sequence

variable {page : RankPageEntry} {drafts targets : Finset (Fin 4 × Nat)} {i counted id generation : Nat}
  {rest : List RankPageEntry} {entry : SequencePage} {seen : PageTableMirror.SeenIds}

structure PageAccepted (sequence : NormalizedSequence) (i : Nat) (page : RankPageEntry) : Prop where
  ordinal_eq : page.ordinal = i
  rank_eq : page.ownerRank = ownerRank i
  positive : page.validTokens ≠ 0
  bounded : page.validTokens ≤ pageTokens
  draft : page.draftLocalPageId.isSome = sequence.mtp
  idle : sequence.tentativeTokens = 0 →
    page.state = idleState (decide (i + 1 = sequence.pages.length)) page.validTokens
  reserving : sequence.tentativeTokens ≠ 0 → page.state = .hbmSealed ∨ page.state = .hbmTentative
  full : i + 1 ≠ sequence.pages.length → page.validTokens = pageTokens

def Apart (a b : RankPageEntry) : Prop :=
  (a.ownerRank, a.targetLocalPageId) ≠ (b.ownerRank, b.targetLocalPageId) ∧
    ∀ draft, a.draftLocalPageId = some draft → b.draftLocalPageId = some draft → a.ownerRank ≠ b.ownerRank

def Unseen (targets drafts : Finset (Fin 4 × Nat)) (page : RankPageEntry) : Prop :=
  (page.ownerRank, page.targetLocalPageId) ∉ targets ∧
    ∀ draft, page.draftLocalPageId = some draft → (page.ownerRank, draft) ∉ drafts

variable {sequence : NormalizedSequence}

theorem any_unseen : (page.draftLocalPageId.any fun draft => decide ((page.ownerRank, draft) ∈ drafts)) = false ↔
      ∀ draft, page.draftLocalPageId = some draft → (page.ownerRank, draft) ∉ drafts := by
  cases page.draftLocalPageId <;> simp

theorem validatePage_ok : validatePage sequence page i targets drafts = .ok () ↔
      PageAccepted sequence i page ∧ Unseen targets drafts page := by
  unfold validatePage Unseen
  rw [← any_unseen]
  dsimp only
  constructor
  · intro passed
    split at passed
    · cases passed
    split at passed
    · cases passed
    split at passed
    · cases passed
    split at passed
    · cases passed
    next ids idle reserving full =>
    simp only [not_or, not_and, ne_eq, not_not, Bool.not_eq_true, gt_iff_lt, Nat.not_lt,
      decide_eq_false_iff_not] at ids idle reserving full
    obtain ⟨ordinal, rank, positive, bounded, draft, target, unseen⟩ := ids
    exact ⟨⟨ordinal, rank, positive, bounded, draft, idle,
      fun pending => or_iff_not_imp_left.mpr (reserving pending), full⟩, target, unseen⟩
  · rintro ⟨accepted, target, unseen⟩
    rw [if_neg, if_neg, if_neg, if_neg]
    · rfl
    · exact fun short => short.2 (accepted.full (by simpa using short.1))
    · exact fun wrong => wrong.2 (accepted.reserving wrong.1)
    · exact fun wrong => wrong.2 (accepted.idle wrong.1)
    · simp only [not_or, ne_eq, not_not, Bool.not_eq_true, gt_iff_lt, Nat.not_lt]
      exact ⟨accepted.ordinal_eq, accepted.rank_eq, accepted.positive, accepted.bounded, accepted.draft,
        target, unseen⟩

theorem validatePages_ok (accepted : ∀ j page, rest[j]? = some page → PageAccepted sequence (i + j) page)
    (apart : rest.Pairwise Apart) (unseen : ∀ page ∈ rest, Unseen targets drafts page)
    (small : counted + (rest.map (·.validTokens)).sum < 2 ^ 64) :
    validatePages sequence rest i counted targets drafts =
      .ok (counted + (rest.map (·.validTokens)).sum) := by
  induction rest generalizing i counted targets drafts with
  | nil => rfl
  | cons page rest ih =>
    obtain ⟨here, apart⟩ := List.pairwise_cons.mp apart
    rw [List.map_cons, List.sum_cons] at small ⊢
    have added : checkedAdd 64 counted page.validTokens = some (counted + page.validTokens) :=
      if_pos (by omega)
    have first : PageAccepted sequence i page := accepted 0 page rfl
    unfold validatePages
    rw [validatePage_ok.mpr ⟨first, unseen page (List.mem_cons_self ..)⟩, added]
    show validatePages sequence rest _ _ _ _ = _
    rw [ih ?_ apart ?_ (by omega), Nat.add_assoc]
    · intro j other get
      have := accepted (j + 1) other get
      rwa [← Nat.add_assoc, Nat.add_right_comm] at this
    · intro other member
      have before := unseen other (List.mem_cons_of_mem _ member)
      have apartHere := here other member
      refine ⟨?_, ?_⟩
      · rw [Finset.mem_insert, not_or]
        exact ⟨fun same => apartHere.1 same.symm, before.1⟩
      · intro draft held
        cases drafted : page.draftLocalPageId with
        | none => exact before.2 draft held
        | some first =>
          simp only [Option.elim_some, Finset.mem_insert, not_or]
          refine ⟨?_, before.2 draft held⟩
          intro same
          obtain ⟨rank, rfl⟩ := Prod.mk.injEq .. ▸ same
          exact apartHere.2 draft drafted held rank.symm

theorem validatePages_draft {total : Nat}
    (passed : validatePages sequence rest i counted targets drafts = .ok total) :
    ∀ page ∈ rest, page.draftLocalPageId.isSome = sequence.mtp := by
  induction rest generalizing i counted targets drafts with
  | nil => simp
  | cons page rest ih =>
    unfold validatePages at passed
    obtain ⟨_, checked, passed⟩ := bind_eq_ok.mp passed
    obtain ⟨_, _, passed⟩ := bind_eq_ok.mp passed
    intro other member
    rcases List.mem_cons.mp member with rfl | member
    · exact (validatePage_ok.mp checked).1.draft
    · exact ih passed other member

section Normalized
variable {t : SequencePageTable} {live : Cache.Sequence}

def entryOf (t : SequencePageTable) (entry : SequencePage) : RankPageEntry :=
  RankPageEntry.fromView (viewOf t entry)

def normalizedOf (t : SequencePageTable) (live : Cache.Sequence) : NormalizedSequence where
  mtp := live.mtp
  committedTokens := live.committedTokens
  tentativeTokens := reserved live
  pages := live.pages.map (entryOf t)

def DraftMatches (t : SequencePageTable) (live : Cache.Sequence) : Prop :=
  ∀ entry ∈ live.pages, (pageOf t entry).draftLocalPageId.isSome = live.mtp

theorem normalized_accepted (shape : SequenceShape t live) (matching : DraftMatches t live) (get : (normalizedOf t live).pages[i]? = some page) :
    PageAccepted (normalizedOf t live) i page := by
  simp only [normalizedOf, List.getElem?_map, Option.map_eq_some_iff] at get
  obtain ⟨entry, get, rfl⟩ := get
  have entryFits := shape.entries i entry get
  have fits := entryFits.fits
  have valid := fits.valid
  have inside := (List.getElem?_eq_some_iff.mp get).1
  rw [shape.length_eq] at inside
  have lengths : (normalizedOf t live).pages.length =
      pageCount (live.committedTokens + reserved live) := by
    simp [normalizedOf, shape.length_eq]
  refine ⟨entryFits.ordinal_eq, entryFits.rank_eq, ?_, ?_, matching entry (List.mem_of_getElem? get),
    ?_, ?_, ?_⟩
  · show (pageOf t entry).validTokens ≠ 0
    simp only [pageTokens, pageCount] at *
    omega
  · show (pageOf t entry).validTokens ≤ pageTokens
    omega
  · intro idle
    change reserved live = 0 at idle
    rw [idle] at fits inside lengths valid
    obtain ⟨sealed, partly⟩ := fits.committed
    show (pageOf t entry).state = idleState _ (pageOf t entry).validTokens
    unfold idleState
    split
    next tail => exact (partly (by simp only [pageTokens] at *; omega)).1
    next tail =>
      refine sealed ?_
      rw [decide_eq_true_eq, lengths] at tail
      simp only [pageTokens, pageCount] at *
      omega
  · intro pending
    change reserved live ≠ 0 at pending
    have tentative := fits.tentative inside (by omega)
    by_cases here : (pageOf t entry).state = .hbmTentative
    · exact .inr here
    · exact .inl (tentative.2.2 here).1
  · intro inner
    rw [lengths] at inner
    show (pageOf t entry).validTokens = pageTokens
    simp only [pageTokens, pageCount] at *
    omega

theorem normalized_apart (valid : Valid t) (found : t.sequences[id]? = some live) :
    (normalizedOf t live).pages.Pairwise Apart := by
  have shape := valid.shape id live found
  unfold normalizedOf
  rw [List.pairwise_map, List.pairwise_iff_getElem]
  intro i j hi hj ordered
  have getI : live.pages[i]? = some live.pages[i] := List.getElem?_eq_getElem hi
  have getJ : live.pages[j]? = some live.pages[j] := List.getElem?_eq_getElem hj
  have separate : live.pages[i].physical ≠ live.pages[j].physical := by
    intro same
    have := valid.holding.distinct found shape.entries getI getJ same
    omega
  refine ⟨?_, ?_⟩
  · intro same
    obtain ⟨rank, id⟩ := Prod.mk.injEq .. ▸ same
    exact separate (by
      cases first : live.pages[i].physical
      cases second : live.pages[j].physical
      simp_all [entryOf, RankPageEntry.fromView, viewOf])
  · intro draft heldI heldJ rank
    exact separate (valid.holding.pool.draft_unique _ _ _ _ draft (shape.entries i _ getI).found
      (shape.entries j _ getJ).found rank heldI heldJ)

theorem normalized_tokens (shape : SequenceShape t live) :
    ((normalizedOf t live).pages.map (·.validTokens)).sum = live.committedTokens + reserved live := by
  have tokens : (normalizedOf t live).pages.map (·.validTokens) =
      (live.pages.map (pageOf t)).map (·.validTokens) := by
    simp only [normalizedOf, List.map_map]
    rfl
  rw [tokens]
  have fits : ∀ i page, (live.pages.map (pageOf t))[i]? = some page →
      Fits live.mtp live.committedTokens (reserved live) i page := by
    intro i page get
    rw [List.getElem?_map, Option.map_eq_some_iff] at get
    obtain ⟨entry, get, rfl⟩ := get
    exact (shape.entries i entry get).fits
  exact sum_valid_tokens fits (by rw [List.length_map, shape.length_eq])

theorem exists_tentative (shape : SequenceShape t live) (pending : reserved live ≠ 0) :
    (normalizedOf t live).pages.any (fun page => decide (page.state = .hbmTentative)) = true := by
  have length_eq := shape.length_eq
  obtain ⟨entry, get⟩ : ∃ entry, live.pages[live.pages.length - 1]? = some entry := by
    refine ⟨_, List.getElem?_eq_getElem ?_⟩
    simp only [pageTokens, pageCount] at *
    omega
  have fits := (shape.entries _ entry get).fits
  have valid := fits.valid
  have inside := (List.getElem?_eq_some_iff.mp get).1
  have tentative := (fits.tentative (by omega) (by omega)).1.mp (by
    simp only [pageTokens, pageCount] at *
    omega)
  rw [List.any_eq_true]
  exact ⟨entryOf t entry, List.mem_map_of_mem (List.mem_of_getElem? get), decide_eq_true tentative⟩

theorem validateSequence_ok (valid : Valid t) (found : t.sequences[id]? = some live) :
    validateSequence (normalizedOf t live) = .ok () ↔ DraftMatches t live := by
  have shape := valid.shape id live found
  constructor
  · intro passed entry member
    unfold validateSequence at passed
    obtain ⟨positions, _, passed⟩ := bind_eq_ok.mp passed
    split at passed
    · cases passed
    obtain ⟨counted, pages, _⟩ := bind_eq_ok.mp passed
    exact validatePages_draft pages (entryOf t entry) (List.mem_map_of_mem member)
  · intro matching
    have sum := normalized_tokens shape
    have bound := shape.bound
    have positions : (checkedAdd 64 (normalizedOf t live).committedTokens
        (normalizedOf t live).tentativeTokens).filter (· ≤ maximumContextTokens) =
        some (live.committedTokens + reserved live) := by
      have small : live.committedTokens + reserved live < 2 ^ 64 := by
        simp only [maximumContextTokens] at bound
        omega
      have added : checkedAdd 64 live.committedTokens (reserved live) =
          some (live.committedTokens + reserved live) := if_pos small
      show (checkedAdd 64 live.committedTokens (reserved live)).filter _ = _
      simp [added, Option.filter_some, bound]
    have pages : validatePages (normalizedOf t live) (normalizedOf t live).pages 0 0 ∅ ∅ = _ := validatePages_ok
      (fun j page get => by rw [Nat.zero_add]; exact normalized_accepted shape matching get)
      (normalized_apart valid found)
      (fun _ _ => ⟨Finset.notMem_empty _, fun _ _ => Finset.notMem_empty _⟩)
      (by simp only [maximumContextTokens] at bound; omega)
    rw [Nat.zero_add, sum] at pages
    unfold validateSequence
    refine bind_eq_ok.mpr ⟨_, by rw [positions, okOr_some], ?_⟩
    rw [if_neg (by simp [normalizedOf, shape.length_eq])]
    refine bind_eq_ok.mpr ⟨_, pages, ?_⟩
    refine if_neg ?_
    simp only [ne_eq, not_true_eq_false, false_or, not_and, not_not]
    exact exists_tentative shape

end Normalized

section Table
variable {t : SequencePageTable}

def mirrorSequences (t : SequencePageTable) : ExtTreeMap Nat NormalizedSequence :=
  collectMap (t.sequences.toList.map fun entry => (entry.1, normalizedOf t entry.2))

theorem getElem?_mirrorSequences (id : Nat) : (mirrorSequences t)[id]? = t.sequences[id]?.map (normalizedOf t) :=
  getElem?_collectMap t.sequences (fun _ => normalizedOf t) id

theorem size_mirrorSequences : (mirrorSequences t).size = t.sequences.size :=
  size_collectMap t.sequences (fun _ => normalizedOf t)

def Matched (t : SequencePageTable) : Prop :=
  ∀ (id : Nat) (live : Cache.Sequence), t.sequences[id]? = some live → DraftMatches t live

def normalizedSnapshot (snapshot : SequencePageSnapshot) : Nat × NormalizedSequence :=
  (snapshot.sequenceId, ⟨snapshot.mtp, snapshot.committedTokens, snapshot.tentativeTokens,
    snapshot.pages.map RankPageEntry.fromView⟩)

theorem normalizedSnapshot_of (entry : Nat × Cache.Sequence) :
    normalizedSnapshot (snapshotOf t entry) = (entry.1, normalizedOf t entry.2) := by
  simp only [normalizedSnapshot, snapshotOf, normalizedOf, List.map_map]
  rfl

theorem normalizeSnapshot_eq (snapshot : SequencePageSnapshot) : normalizeSnapshot snapshot =
    (do validateSequence (normalizedSnapshot snapshot).2; pure (normalizedSnapshot snapshot)) := rfl

theorem normalizedSnapshots_ok (valid : Valid t) (matched : Matched t) :
    normalizedSnapshots t = .ok (mirrorSequences t) := by
  unfold normalizedSnapshots
  rw [snapshots_ok valid]
  refine bind_eq_ok.mpr ⟨_, rfl, ?_⟩
  refine bind_eq_ok.mpr ⟨_, mapM_ok_of_forall (g := normalizedSnapshot) _ ?_, ?_⟩
  · intro snapshot member
    obtain ⟨⟨id, live⟩, binding, rfl⟩ := List.mem_map.mp member
    have found := mem_toList_iff.mp binding
    rw [normalizeSnapshot_eq, normalizedSnapshot_of]
    rw [(validateSequence_ok valid found).mpr (matched id live found)]
    rfl
  · rw [List.map_map, mirrorSequences]
    refine congrArg (fun entries => Except.ok (collectMap entries)) ?_
    exact List.map_congr_left fun entry _ => normalizedSnapshot_of entry

theorem matched_of_normalized {sequences : ExtTreeMap Nat NormalizedSequence} (valid : Valid t)
    (normalized : normalizedSnapshots t = .ok sequences) : Matched t := by
  intro id live found
  unfold normalizedSnapshots at normalized
  rw [snapshots_ok valid] at normalized
  obtain ⟨snapshots, same, normalized⟩ := bind_eq_ok.mp normalized
  cases same
  obtain ⟨entries, mapped, _⟩ := bind_eq_ok.mp normalized
  obtain ⟨entry, ok⟩ := forall_of_mapM_ok mapped (snapshotOf t (id, live))
    (List.mem_map_of_mem (mem_toList_iff.mpr found))
  rw [normalizeSnapshot_eq, normalizedSnapshot_of] at ok
  obtain ⟨_, checked, _⟩ := bind_eq_ok.mp ok
  exact (validateSequence_ok valid found).mp checked

structure IdsKnown (t : SequencePageTable) (seen : PageTableMirror.SeenIds) : Prop where
  physical : ∀ (id : PhysicalPageId) (page : RankPageEntry), seen.1[id]? = some page →
    ∃ entry, Named t entry ∧ entry.physical = id ∧ page = entryOf t entry
  draft : ∀ (key id : PhysicalPageId), seen.2[key]? = some id → id.ownerRank = key.ownerRank ∧
    ∃ page, t.physical[id]? = some page ∧ page.draftLocalPageId = some key.targetLocalPageId

theorem named_found (valid : Valid t) (named : Named t entry) :
    t.physical[entry.physical]? = some (pageOf t entry) := by
  obtain ⟨id, live, found, member⟩ := named
  obtain ⟨i, get⟩ := List.mem_iff_getElem?.mp member
  exact ((valid.shape id live found).entries i entry get).found

theorem named_unique (valid : Valid t) {a b : SequencePage} (namedA : Named t a) (namedB : Named t b)
    (same : a.physical = b.physical) : a = b := by
  obtain ⟨place, agree, _⟩ := valid.holding.placed
  have ordinal : a.ordinal = b.ordinal := by
    rw [← agree a (.inl namedA), ← agree b (.inl namedB), same]
  cases a
  cases b
  simp_all

theorem any_ne_false {α : Type} [DecidableEq α] {value : Option α} {a : α}
    (same : ∀ b, value = some b → b = a) : value.any (fun b => decide (b ≠ a)) = false := by
  cases value with
  | none => rfl
  | some b => simp [same b rfl]

section
variable (valid : Valid t)
include valid

theorem recordDraft_ok (named : Named t entry) (known : IdsKnown t seen) :
    Yields (PageTableMirror.recordDraft (entryOf t entry) entry.physical seen.2)
      (fun draft => IdsKnown t (seen.1, draft)) (fun _ => False) := by
  have found := named_found valid named
  unfold PageTableMirror.recordDraft
  cases held : (entryOf t entry).draftLocalPageId with
  | none => exact Yields.pure known
  | some id =>
    have same : ∀ prior, seen.2[(⟨(entryOf t entry).ownerRank, id⟩ : PhysicalPageId)]? = some prior →
        prior = entry.physical := by
      intro prior met
      obtain ⟨rank, page, foundPrior, heldPrior⟩ := known.draft _ prior met
      exact valid.holding.pool.draft_unique _ _ _ _ id foundPrior found rank heldPrior held
    dsimp only
    rw [any_ne_false same]
    refine Yields.pure ⟨known.physical, ?_⟩
    intro key other met
    by_cases here : (⟨(entryOf t entry).ownerRank, id⟩ : PhysicalPageId) = key
    · subst here
      rw [ExtTreeMap.getElem?_insert_self, Option.some.injEq] at met
      subst met
      exact ⟨rfl, _, found, held⟩
    · rw [getElem?_insert_ne (Ne.symm here)] at met
      exact known.draft key other met

theorem recordIds_ok (named : Named t entry) (known : IdsKnown t seen) :
    Yields (PageTableMirror.recordIds t.config (entryOf t entry) seen) (IdsKnown t)
      (fun _ => False) := by
  have found := named_found valid named
  have pool := valid.holding.pool
  have inTarget := (pool.target_bound entry.physical).mpr (.inr (.inr (by grind)))
  have inDraft : (entryOf t entry).draftLocalPageId.any
      (fun draft => decide (draft ≥ t.config.draftPagesPerRank)) = false := by
    cases held : (entryOf t entry).draftLocalPageId with
    | none => rfl
    | some draft =>
      have := (pool.draft_bound entry.physical.ownerRank draft).mpr
        (.inr (.inr ⟨_, _, found, rfl, held⟩))
      simpa using this
  have same : ∀ prior, seen.1[entry.physical]? = some prior → prior = entryOf t entry := by
    intro prior met
    obtain ⟨other, namedOther, physical, rfl⟩ := known.physical _ prior met
    rw [named_unique valid namedOther named physical]
  unfold PageTableMirror.recordIds
  rw [if_neg (by rw [inDraft]; simpa [entryOf, RankPageEntry.fromView, viewOf] using inTarget)]
  rw [if_neg (by rw [Bool.not_eq_true]; exact any_ne_false same)]
  refine Yields.bind (recordDraft_ok valid named known) ?_
  intro draft known'
  refine Yields.pure ⟨?_, known'.draft⟩
  intro id page met
  by_cases here : entry.physical = id
  · subst here
    change (seen.1.insert entry.physical (entryOf t entry))[entry.physical]? = some page at met
    rw [ExtTreeMap.getElem?_insert_self, Option.some.injEq] at met
    exact ⟨entry, named, rfl, met.symm⟩
  · change (seen.1.insert entry.physical (entryOf t entry))[id]? = some page at met
    rw [getElem?_insert_ne (Ne.symm here)] at met
    exact known.physical id page met

theorem foldlM_recordIds_ok {entries : List SequencePage}
    (named : ∀ entry ∈ entries, Named t entry) (known : IdsKnown t seen) :
    Yields ((entries.map (entryOf t)).foldlM
      (fun seen page => PageTableMirror.recordIds t.config page seen) seen) (IdsKnown t)
      (fun _ => False) := by
  induction entries generalizing seen with
  | nil => exact Yields.pure known
  | cons entry entries ih =>
    rw [List.map_cons, List.foldlM_cons]
    refine Yields.bind (recordIds_ok valid (named entry (List.mem_cons_self ..)) known) ?_
    intro seen' known'
    exact ih (fun other member => named other (List.mem_cons_of_mem _ member)) known'

theorem validateSequences_ok (matched : Matched t) {entries : List (Nat × NormalizedSequence)}
    (named : ∀ entry ∈ entries, (mirrorSequences t)[entry.1]? = some entry.2) (known : IdsKnown t seen) :
    PageTableMirror.validateSequences t.config entries seen = .ok () := by
  induction entries generalizing seen with
  | nil => rfl
  | cons entry entries ih =>
    obtain ⟨id, sequence⟩ := entry
    have here := named (id, sequence) (List.mem_cons_self ..)
    rw [getElem?_mirrorSequences, Option.map_eq_some_iff] at here
    obtain ⟨live, found, rfl⟩ := here
    have nonzero : id ≠ 0 := by
      rintro rfl
      rw [valid.holding.nonzero] at found
      cases found
    unfold PageTableMirror.validateSequences
    rw [if_neg nonzero]
    refine bind_eq_ok.mpr ⟨(), (validateSequence_ok valid found).mpr (matched id live found), ?_⟩
    have ids := foldlM_recordIds_ok valid
      (fun entry (member : entry ∈ live.pages) => ⟨id, live, found, member⟩) known
    cases outcome : (live.pages.map (entryOf t)).foldlM
        (fun seen page => PageTableMirror.recordIds t.config page seen) seen with
    | error failure => exact (ids.failure outcome).elim
    | ok seen' =>
      refine bind_eq_ok.mpr ⟨seen', outcome, ?_⟩
      exact ih (fun other member => named other (List.mem_cons_of_mem _ member)) (ids.value outcome)

theorem fromTable_ok (matched : Matched t) (few : t.sequences.size ≤ 64) (positive : generation ≠ 0) :
    PageTableMirror.fromTable t generation = .ok ⟨t.config, generation, mirrorSequences t⟩ := by
  unfold PageTableMirror.fromTable
  rw [if_neg positive]
  refine bind_eq_ok.mpr ⟨_, normalizedSnapshots_ok valid matched, ?_⟩
  refine bind_eq_ok.mpr ⟨(), ?_, rfl⟩
  unfold PageTableMirror.validate
  rw [if_neg (by simp only [size_mirrorSequences, maximumDeltaSequences]; omega)]
  refine validateSequences_ok valid matched (fun entry member => mem_toList_iff.mp member) ?_
  exact ⟨fun _ _ met => by simp at met, fun _ _ met => by simp at met⟩

theorem fromTable_iff (few : t.sequences.size ≤ 64) (positive : generation ≠ 0) :
    (∃ mirror, PageTableMirror.fromTable t generation = .ok mirror) ↔ Matched t := by
  refine ⟨?_, fun matched => ⟨_, fromTable_ok valid matched few positive⟩⟩
  rintro ⟨mirror, built⟩
  unfold PageTableMirror.fromTable at built
  rw [if_neg positive] at built
  obtain ⟨sequences, normalized, _⟩ := bind_eq_ok.mp built
  exact matched_of_normalized valid normalized

end

end Table

end Glmaxx.Proof.Delta
