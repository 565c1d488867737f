import Glmaxx.Cache.Delta

namespace Glmaxx.Cache
open Library

def RankPageEntry.InRange (page : RankPageEntry) : Prop :=
  page.targetLocalPageId < 2 ^ 32 ∧ ∀ draft ∈ page.draftLocalPageId, draft < 2 ^ 32

def SequencePageUpdate.InRange (update : SequencePageUpdate) : Prop :=
  update.requestId < 2 ^ 64 ∧ update.pageCountAfter < 2 ^ 32 ∧ ∀ page ∈ update.changedPages, page.InRange

/-- The numbers of the delta that no check bounds are values of their types in the source. -/
def PageTableDelta.InRange (delta : PageTableDelta) : Prop :=
  (∀ update ∈ delta.updates, update.InRange) ∧ ∀ id ∈ delta.removedSequenceIds, id < 2 ^ 64

end Glmaxx.Cache

namespace Glmaxx.Proof.Delta
open Library Cache Cache.PageTableDelta

section Pages

@[simp] theorem pageStateCode_inj {a b : PageState} : pageStateCode a = pageStateCode b ↔ a = b := by
  cases a <;> cases b <;> decide

/-- What the shape checks and the field types leave of a changed page. -/
structure Hashable (mtp : Bool) (page : RankPageEntry) : Prop where
  ordinal : page.ordinal < 2 ^ 64
  validTokens : page.validTokens < 2 ^ 8
  drafted : page.draftLocalPageId.isSome = mtp
  inRange : page.InRange

theorem getD_lt {page : RankPageEntry} (inRange : page.InRange) :
    page.draftLocalPageId.getD (2 ^ 32 - 1) < 2 ^ 32 := by
  cases draft : page.draftLocalPageId with
  | none => norm_num
  | some id => exact inRange.2 id draft

/-- The sentinel of an absent draft page is not mistaken for an id: the mode of the update says which it is. -/
theorem page_unambiguous (mtp : Bool) : Unambiguous (Hashable mtp) RankPageEntry.hashBytes := by
  intro page page' hashable hashable' rest rest' same
  have drafts := getD_lt hashable.inRange
  have drafts' := getD_lt hashable'.inRange
  simp only [RankPageEntry.hashBytes, List.append_assoc, List.cons_append, List.nil_append, List.cons.injEq,
    leBytes_append_inj 8 hashable.ordinal hashable'.ordinal,
    leBytes_append_inj 1 (show page.ownerRank.val < 256 ^ 1 by omega) (show page'.ownerRank.val < 256 ^ 1 by omega),
    leBytes_append_inj 4 hashable.inRange.1 hashable'.inRange.1, leBytes_append_inj 4 drafts drafts',
    leBytes_append_inj 1 hashable.validTokens hashable'.validTokens, pageStateCode_inj] at same
  obtain ⟨ordinal, rank, target, draft, state, tokens, tails⟩ := same
  have drafted : page.draftLocalPageId.isSome = page'.draftLocalPageId.isSome :=
    hashable.drafted.trans hashable'.drafted.symm
  have draft : page.draftLocalPageId = page'.draftLocalPageId := by
    cases left : page.draftLocalPageId <;> cases right : page'.draftLocalPageId <;> simp_all
  cases page
  cases page'
  simp_all [Fin.val_inj]

theorem validateChangedPages_hashable {mtp : Bool} {pages : List RankPageEntry} {expected : Nat}
    (ok : validateChangedPages mtp pages expected = .ok ()) (bound : expected + pages.length ≤ 2 ^ 64)
    (inRange : ∀ page ∈ pages, page.InRange) : ∀ page ∈ pages, Hashable mtp page := by
  induction pages generalizing expected with
  | nil => nofun
  | cons page rest ih =>
    unfold validateChangedPages at ok
    split at ok
    · cases ok
    next accepted =>
      simp only [not_or, not_not] at accepted
      obtain ⟨ordinal, -, -, few, drafted, -⟩ := accepted
      rw [List.length_cons] at bound
      intro other isIn
      rcases List.mem_cons.mp isIn with rfl | later
      · exact ⟨by omega, by unfold pageTokens at few; omega, by simpa using drafted, inRange other isIn⟩
      · exact ih ok (by omega) (fun page isIn => inRange page (List.mem_cons_of_mem _ isIn)) other later

end Pages

section Updates

/-- What `hash_invariant_fields` records of an update. -/
structure Heading where
  requestId : Nat
  mtp : Bool
  committedTokens : Nat
  tentativeTokens : Nat
  pageCountAfter : Nat
  firstChangedOrdinal : Nat
  changed : Nat

def headingOf (update : SequencePageUpdate) : Heading where
  requestId := update.requestId
  mtp := update.mtp
  committedTokens := update.committedTokens
  tentativeTokens := update.tentativeTokens
  pageCountAfter := update.pageCountAfter
  firstChangedOrdinal := update.firstChangedOrdinal
  changed := update.changedPages.length

def Heading.bytes (heading : Heading) : List UInt8 :=
  leBytes 8 heading.requestId ++ [if heading.mtp then 1 else 0] ++ leBytes 8 heading.committedTokens
    ++ leBytes 1 heading.tentativeTokens ++ leBytes 4 heading.pageCountAfter
    ++ leBytes 4 heading.firstChangedOrdinal ++ leBytes 4 heading.changed

structure Heading.Fits (heading : Heading) : Prop where
  requestId : heading.requestId < 2 ^ 64
  committedTokens : heading.committedTokens < 2 ^ 64
  tentativeTokens : heading.tentativeTokens < 2 ^ 8
  pageCountAfter : heading.pageCountAfter < 2 ^ 32
  firstChangedOrdinal : heading.firstChangedOrdinal < 2 ^ 32
  changed : heading.changed < 2 ^ 32

theorem heading_unambiguous : Unambiguous Heading.Fits Heading.bytes := by
  intro heading heading' fits fits' rest rest' same
  have flags : ∀ a b : Bool, ((if a then 1 else 0 : UInt8) = if b then 1 else 0) ↔ a = b := by decide
  simp only [Heading.bytes, List.append_assoc, List.cons_append, List.nil_append, List.cons.injEq,
    leBytes_append_inj 8 fits.requestId fits'.requestId,
    leBytes_append_inj 8 fits.committedTokens fits'.committedTokens,
    leBytes_append_inj 1 fits.tentativeTokens fits'.tentativeTokens,
    leBytes_append_inj 4 fits.pageCountAfter fits'.pageCountAfter,
    leBytes_append_inj 4 fits.firstChangedOrdinal fits'.firstChangedOrdinal,
    leBytes_append_inj 4 fits.changed fits'.changed, flags] at same
  cases heading
  cases heading'
  simp_all

theorem validateUpdate_fits {removed : List Nat} {update : SequencePageUpdate}
    (ok : validateUpdate removed update = .ok ()) (inRange : update.InRange) :
    (headingOf update).Fits ∧ ∀ page ∈ update.changedPages, Hashable update.mtp page := by
  obtain ⟨request, count, pages⟩ := inRange
  unfold validateUpdate at ok
  split at ok
  · cases ok
  next accepted =>
    simp only [not_or, not_lt, not_not, gt_iff_lt] at accepted
    obtain ⟨-, -, tentative, committed, first, length⟩ := accepted
    have context : maximumContextTokens < 2 ^ 64 := by decide
    refine ⟨⟨request, by simp only [headingOf]; omega, ?_, count, ?_, ?_⟩,
      validateChangedPages_hashable ok (by omega) pages⟩
    all_goals simp only [headingOf]; omega

/-- The pages behind equal headings are split between the updates in the same way. -/
theorem updates_unambiguous {updates updates' : List SequencePageUpdate}
    (headings : updates.map headingOf = updates'.map headingOf)
    (hashable : ∀ update ∈ updates, ∀ page ∈ update.changedPages, Hashable update.mtp page)
    (hashable' : ∀ update ∈ updates', ∀ page ∈ update.changedPages, Hashable update.mtp page)
    (same : updates.flatMap (fun update => update.changedPages.flatMap (·.hashBytes))
      = updates'.flatMap fun update => update.changedPages.flatMap (·.hashBytes)) : updates = updates' := by
  induction updates generalizing updates' with
  | nil => exact (List.map_eq_nil_iff.mp headings.symm).symm
  | cons update rest ih =>
    cases updates' with
    | nil => cases headings
    | cons update' rest' =>
      obtain ⟨heading, remaining⟩ := List.cons.inj headings
      rw [List.flatMap_cons, List.flatMap_cons] at same
      have modes : update.mtp = update'.mtp := congrArg Heading.mtp heading
      obtain ⟨pages, tails⟩ := (page_unambiguous update.mtp).flatMap (congrArg Heading.changed heading)
        (hashable update (by simp)) (modes ▸ hashable' update' (by simp)) same
      have first : update = update' := by
        cases update
        cases update'
        simp_all [headingOf]
      rw [first, ih remaining (fun update isIn => hashable update (List.mem_cons_of_mem _ isIn))
        (fun update isIn => hashable' update (List.mem_cons_of_mem _ isIn)) tails]

end Updates

theorem validateShape_fits {delta : PageTableDelta} (ok : delta.validateShape = .ok ()) (inRange : delta.InRange) :
    (delta.generationBefore < 2 ^ 64 ∧ delta.generationAfter < 2 ^ 64) ∧
    (delta.updates.length < 2 ^ 32 ∧ delta.removedSequenceIds.length < 2 ^ 32) ∧
    ∀ update ∈ delta.updates, (headingOf update).Fits ∧ ∀ page ∈ update.changedPages, Hashable update.mtp page := by
  obtain ⟨_, generations, ok⟩ := bind_eq_ok.mp ok
  have bounds : delta.generationBefore < 2 ^ 64 ∧ delta.generationAfter < 2 ^ 64 := by
    unfold validateGenerations checkedAdd at generations
    grind
  split at ok
  · cases ok
  next accepted =>
    simp only [not_or, not_lt, gt_iff_lt] at accepted
    have limit : maximumDeltaSequences < 2 ^ 32 := by decide
    refine ⟨bounds, ⟨by omega, by omega⟩, fun update isIn => ?_⟩
    exact validateUpdate_fits (forM_eq_ok.mp ok update isIn) (inRange.1 update isIn)

theorem globalHashInput_covers {delta delta' : PageTableDelta} (shape : delta.validateShape = .ok ())
    (shape' : delta'.validateShape = .ok ()) (inRange : delta.InRange) (inRange' : delta'.InRange)
    (same : delta.globalHashInput = delta'.globalHashInput) :
    { delta with globalDigest := delta'.globalDigest } = delta' := by
  obtain ⟨generations, counts, fits⟩ := validateShape_fits shape inRange
  obtain ⟨generations', counts', fits'⟩ := validateShape_fits shape' inRange'
  simp only [globalHashInput, PageTableDelta.invariantBytes, List.append_assoc, List.append_cancel_left_eq,
    leBytes_append_inj 8 generations.1 generations'.1, leBytes_append_inj 8 generations.2 generations'.2,
    leBytes_append_inj 4 counts.1 counts'.1, leBytes_append_inj 4 counts.2 counts'.2] at same
  obtain ⟨before, after, updates, removed, same⟩ := same
  have recorded : ∀ updates : List SequencePageUpdate,
      updates.flatMap (·.invariantBytes) = (updates.map headingOf).flatMap Heading.bytes := by
    intro updates
    rw [List.flatMap_map]
    rfl
  rw [recorded, recorded] at same
  obtain ⟨headings, same⟩ := heading_unambiguous.flatMap (by simpa using updates)
    (List.forall_mem_map.mpr fun update isIn => (fits update isIn).1)
    (List.forall_mem_map.mpr fun update isIn => (fits' update isIn).1) same
  have ids : Unambiguous (· < 2 ^ 64) (leBytes 8) := fun a b small small' _ _ => (leBytes_append_inj 8 small small').mp
  obtain ⟨ids, same⟩ := ids.flatMap removed inRange.2 inRange'.2 same
  have updates := updates_unambiguous headings (fun update isIn => (fits update isIn).2)
    (fun update isIn => (fits' update isIn).2) same
  cases delta
  cases delta'
  simp_all

/-- One drafted page, its draft id the sentinel of an absent one, sealed with a digest of equal bytes. -/
def draftedDelta (byte : UInt8) : PageTableDelta where
  generationBefore := 1
  generationAfter := 2
  updates := [⟨7, true, 1, 0, 1, 0, [⟨0, ownerRank 0, 3, some (2 ^ 32 - 1), .hbmMutable, 1⟩]⟩]
  removedSequenceIds := [9]
  globalDigest := List.Vector.replicate 32 byte

theorem draftedDelta_covered : draftedDelta 1 ≠ draftedDelta 2 ∧
    { draftedDelta 1 with globalDigest := (draftedDelta 2).globalDigest } = draftedDelta 2 := by
  have inRange : ∀ byte, (draftedDelta byte).InRange := by
    intro byte
    simp [draftedDelta, PageTableDelta.InRange, SequencePageUpdate.InRange, RankPageEntry.InRange]
  have same : (draftedDelta 1).globalHashInput = (draftedDelta 2).globalHashInput := rfl
  exact ⟨by decide, globalHashInput_covers rfl rfl (inRange 1) (inRange 2) same⟩

end Glmaxx.Proof.Delta
