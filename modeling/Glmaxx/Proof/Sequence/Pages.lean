import Glmaxx.Proof.Sequence.Room

namespace Glmaxx.Proof.Sequence
open Std Library Cache

variable {p : PhysicalPageId} {update : PhysicalPage → Except SequencePageError PhysicalPage}
  {bad : SequencePageError → Prop} {room : Prop}

variable {t t' : SequencePageTable} {held : List SequencePage}

/-- What sharing may do to a page under the sequences that already name it. -/
structure Keeps (page page' : PhysicalPage) : Prop where
  state_eq : page'.state = page.state
  valid_eq : page'.validTokens = page.validTokens
  references_eq : page.state ≠ .hbmSealed → page'.references = page.references
  draft : page.draftLocalPageId.isSome → page'.draftLocalPageId.isSome

theorem Keeps.refl (page : PhysicalPage) : Keeps page page := ⟨rfl, rfl, fun _ => rfl, id⟩

theorem Keeps.trans {a b c : PhysicalPage} (ab : Keeps a b) (bc : Keeps b c) : Keeps a c where
  state_eq := bc.state_eq.trans ab.state_eq
  valid_eq := bc.valid_eq.trans ab.valid_eq
  references_eq unsealed := (bc.references_eq (ab.state_eq ▸ unsealed)).trans (ab.references_eq unsealed)
  draft held := bc.draft (ab.draft held)

def KeepsPages (t t' : SequencePageTable) : Prop :=
  ∀ (p : PhysicalPageId) (page : PhysicalPage), t.physical[p]? = some page →
    ∃ page', t'.physical[p]? = some page' ∧ Keeps page page'

/-- A step that only adds an entry: `entry`, whose page `page'` then is. -/
structure Gained (t : SequencePageTable) (entry : SequencePage) (page' : PhysicalPage)
    (t' : SequencePageTable) : Prop where
  moves : Moves t t'
  sequences_eq : t'.sequences = t.sequences
  keeps : KeepsPages t t'
  found : t'.physical[entry.physical]? = some page'
  rank_eq : entry.physical.ownerRank = ownerRank entry.ordinal

theorem allocatePage_spec (holding : Holding t held) (ordinal : Nat) (mtp : Bool)
    (roomy : room → Unquarantined t ∧ Roomy (ownerRank ordinal) mtp t held) :
    Yields (t.allocatePage ordinal mtp)
      (fun result => ∃ draft : Option Nat, draft.isSome = mtp ∧
        Holding result.2 (⟨ordinal, result.1⟩ :: held) ∧ t.physical[result.1]? = none ∧
        result.2.physical = t.physical.insert result.1 ⟨draft, .hbmMutable, 0, 1, none⟩ ∧
        result.2.prefixes = t.prefixes ∧
        Gained t ⟨ordinal, result.1⟩ ⟨draft, .hbmMutable, 0, 1, none⟩ result.2 ∧
        KeepsQuarantine t result.2) (Refusal room) := by
  unfold SequencePageTable.allocatePage
  refine Yields.bind (Yields.okOr_cases (fun _ popped => popped) fun none has => ?_) ?_
  · obtain ⟨clear, spare⟩ := roomy has
    exact popFirst_ne_none (freeTarget_nonempty holding (clear.target _) spare.1) none
  rintro ⟨target, rest⟩ popped
  obtain ⟨free, rfl⟩ := popFirst_some popped
  have taken := holding.pool.takeTarget (p := ⟨ownerRank ordinal, target⟩) free
  have moved := Moves.takeTarget (p := ⟨ownerRank ordinal, target⟩) free
  have unused := holding.pool.unused (p := ⟨ownerRank ordinal, target⟩) free
  have absent : (⟨ownerRank ordinal, target⟩ : PhysicalPageId) ∉ t.physical := by grind
  have transition : PageState.free.transition .hbmMutable = .ok .hbmMutable := rfl
  cases mtp with
  | false =>
    simp only [Bool.false_eq_true, if_false, pure_bind, transition, Except.mapError, absent]
    refine Yields.pure ⟨none, rfl, holding.take unused rfl rfl rfl taken, unused, rfl, rfl,
      ⟨moved, rfl, ?_, ?_, rfl⟩, rfl, rfl⟩
    · intro p page found
      exact ⟨page, by grind, Keeps.refl page⟩
    · simp
  | true =>
    simp only [if_true]
    refine Yields.bind (Yields.okOr_cases (fun _ popped => popped) fun none has => ?_) ?_
    · obtain ⟨clear, spare⟩ := roomy has
      have fewer : (draftedOn (ownerRank ordinal) t).card + 0 ≤ (pagesOn (ownerRank ordinal) t).card := by
        rw [Nat.add_zero]
        exact Finset.card_le_card (Finset.filter_subset _ _)
      exact popFirst_ne_none (freeDraft_nonempty holding (clear.draft _) fewer (spare.2 rfl)) none
    rintro ⟨draft, rest⟩ popped
    obtain ⟨freeDraft, rfl⟩ := popFirst_some popped
    have found : (t.physical.insert (⟨ownerRank ordinal, target⟩ : PhysicalPageId)
        (⟨none, .hbmMutable, 0, 1, none⟩ : PhysicalPage))[
          (⟨ownerRank ordinal, target⟩ : PhysicalPageId)]? = some ⟨none, .hbmMutable, 0, 1, none⟩ := by
      simp
    have drafted := taken.takeDraft found rfl freeDraft
    have movedDraft := moved.trans (Moves.takeDraft found freeDraft)
    simp only [insert_insert_same] at drafted movedDraft
    simp only [pure_bind, transition, Except.mapError, absent, if_false]
    refine Yields.pure ⟨some draft, rfl, holding.take unused rfl rfl rfl drafted, unused, rfl, rfl,
      ⟨movedDraft, rfl, ?_, ?_, rfl⟩, rfl, rfl⟩
    · intro p page found
      exact ⟨page, by grind, Keeps.refl page⟩
    · simp

theorem updatePage_spec {page : PhysicalPage} {good : SequencePageTable → Prop} (found : t.physical[p]? = some page)
    (h : Yields (update page) (fun page' => good { t with physical := t.physical.insert p page' }) bad) :
    Yields (t.updatePage p update) good bad := by
  unfold SequencePageTable.updatePage
  rw [found]
  exact Yields.bind_ok rfl (Yields.bind h fun _ holds => holds)

theorem updatePage_bind {α : Type} {page : PhysicalPage}
    {next : SequencePageTable → Except SequencePageError α} {good : α → Prop} (found : t.physical[p]? = some page)
    (h : Yields (update page)
      (fun page' => Yields (next { t with physical := t.physical.insert p page' }) good bad) bad) :
    Yields (t.updatePage p update >>= next) good bad :=
  Yields.bind (updatePage_spec found h) fun _ holds => holds

theorem relationTo_external (a b : PrefixPageAttachment) :
    Yields (a.relationTo b) (fun relation => a.relationTo b = .ok relation) (Refusal room) := by
  unfold PrefixPageAttachment.relationTo
  repeat' split
  all_goals first | exact rfl | trivial

structure Released (t : SequencePageTable) (p : PhysicalPageId) (t' : SequencePageTable) : Prop where
  moves : Moves t t'
  sequences_eq : t'.sequences = t.sequences
  page : ∃ page, t.physical[p]? = some page ∧
    (1 < page.references ∧
        t'.physical = t.physical.insert p { page with references := page.references - 1 } ∨
      page.references = 1 ∧ t'.physical = t.physical.erase p)

theorem releasePage_spec {entry : SequencePage} (holding : Holding t (entry :: held)) :
    Yields (t.releasePage entry.physical)
      (fun t' => Holding t' held ∧ Released t entry.physical t') External := by
  obtain ⟨page, found⟩ := holding.present (.inr (List.mem_cons_self ..))
  have counted := holding.pool.counted _ _ found
  have used := holding.pool.target_used entry.physical (by grind)
  have subtracted : checkedSub page.references 1 = some (page.references - 1) := by
    simp only [checkedSub]
    grind
  unfold SequencePageTable.releasePage
  rw [found]
  refine Yields.bind_ok rfl ?_
  rw [subtracted]
  refine Yields.bind_ok rfl ?_
  by_cases last : page.references = 1
  · rw [if_neg (by omega)]
    have retired := holding.retire found last
    have moved : Moves t (retire t entry.physical page) := Moves.retire
    have draftUsed : ∀ draft, page.draftLocalPageId = some draft →
        ¬(draft ∈ t.freeDraft entry.physical.ownerRank ∨
          draft ∈ t.quarantinedDraft entry.physical.ownerRank) := by
      intro draft held
      have := holding.pool.draft_used entry.physical.ownerRank draft ⟨_, page, found, rfl, held⟩
      grind
    have prefixed : ∀ attached, page.prefixPage = some attached →
        t.prefixes[attached.1.key]? = some entry.physical := by
      intro attached attachment
      exact (holding.pool.prefix_iff _ _).mpr ⟨page, found, by simp [prefixKey, attachment]⟩
    have reached : Yields (pure (retire t entry.physical page) : Except SequencePageError _)
        (fun t' => Holding t' held ∧ Released t entry.physical t') External :=
      ⟨retired, moved, rfl, page, found, .inr ⟨last, rfl⟩⟩
    unfold retire at reached
    cases attachment : page.prefixPage with
    | none =>
      cases draft : page.draftLocalPageId with
      | none => simpa [used, attachment, draft] using reached
      | some id => simpa [used, attachment, draft, draftUsed id draft] using reached
    | some attached =>
      have key := prefixed attached attachment
      cases draft : page.draftLocalPageId with
      | none => simpa [used, attachment, draft, key] using reached
      | some id => simpa [used, attachment, draft, key, draftUsed id draft] using reached
  · rw [if_pos (by omega)]
    exact Yields.pure ⟨holding.drop found last, Moves.setPage found rfl, rfl, page, found,
      .inl ⟨by omega, rfl⟩⟩

theorem restorePage_spec {attachment : PrefixPageAttachment} (holding : Holding t held) (mtp : Bool)
    (ordinal : Nat) (fresh : t.prefixes[attachment.key]? = none)
    (roomy : room → Unquarantined t ∧ Roomy (ownerRank ordinal) mtp t held) :
    Yields (t.restorePage mtp attachment ordinal)
      (fun result => ∃ page', Holding result.2 (⟨ordinal, result.1⟩ :: held) ∧
        Gained t ⟨ordinal, result.1⟩ page' result.2 ∧ page'.state = .hbmSealed ∧
        page'.validTokens = pageTokens ∧ (mtp → page'.draftLocalPageId.isSome) ∧
        KeepsQuarantine t result.2) (Refusal room) := by
  unfold SequencePageTable.restorePage
  refine Yields.bind (allocatePage_spec holding ordinal mtp roomy) ?_
  rintro ⟨p, t₁⟩ ⟨draft, drafted, holding₁, unused, physical, same, gained, kept⟩
  have transition : PageState.hbmMutable.transition .hbmSealed = .ok .hbmSealed := rfl
  refine updatePage_bind gained.found ?_
  simp only [transition, Except.mapError]
  refine Yields.pure (Yields.pure ⟨_, ?_, ⟨?_, gained.sequences_eq, ?_, ExtTreeMap.getElem?_insert_self,
    gained.rank_eq⟩, rfl, rfl, fun _ => by simp_all, kept⟩)
  · obtain ⟨place, entries, prefixes⟩ := holding₁.placed
    have home : place p = ordinal := entries ⟨ordinal, p⟩ (.inr (List.mem_cons_self ..))
    refine ⟨?_, ⟨place, entries, ?_⟩, holding₁.nonzero⟩
    · exact holding₁.pool.addPrefix gained.found rfl (by rw [same, fresh]) rfl rfl ⟨rfl, rfl⟩ rfl
    · grind
  · exact gained.moves.trans (Moves.setPage gained.found rfl)
  · intro q page found
    have other : q ≠ p := by grind
    exact ⟨page, by grind, Keeps.refl page⟩

theorem KeepsPages.insert {p : PhysicalPageId} {page page' : PhysicalPage}
    (found : t.physical[p]? = some page) (keeps : Keeps page page')
    (physical : t'.physical = t.physical.insert p page') : KeepsPages t t' := by
  intro q other foundOther
  by_cases same : p = q
  · subst same
    have : page = other := by grind
    exact ⟨page', by grind, this ▸ keeps⟩
  · exact ⟨other, by grind, Keeps.refl other⟩

theorem Gained.refl {entry : SequencePage} {page : PhysicalPage} (found : t.physical[entry.physical]? = some page)
    (rank : entry.physical.ownerRank = ownerRank entry.ordinal) : Gained t entry page t :=
  ⟨Moves.refl t, rfl, fun _ page found => ⟨page, found, Keeps.refl page⟩, found, rank⟩

theorem Gained.trans {a b c : SequencePageTable} {entry entry' : SequencePage} {page page' : PhysicalPage}
    (ab : Gained a entry page b) (bc : Gained b entry' page' c) : Gained a entry' page' c := by
  refine { bc with
    moves := ab.moves.trans bc.moves
    sequences_eq := bc.sequences_eq.trans ab.sequences_eq
    keeps := fun p first found => ?_ }
  obtain ⟨second, found, keeps⟩ := ab.keeps p first found
  obtain ⟨third, found, keeps'⟩ := bc.keeps p second found
  exact ⟨third, found, keeps.trans keeps'⟩

section Attach
variable {entry : SequencePage} {page : PhysicalPage} {attachment : PrefixPageAttachment}

section
variable (entry : SequencePage) (holding : Holding t held) (found : t.physical[entry.physical]? = some page)
  (rank : entry.physical.ownerRank = ownerRank entry.ordinal)
include holding found rank

theorem upgradeAttachment_spec
    (place : ∃ current, page.prefixPage = some (current, entry.ordinal) ∧ current.key = attachment.key)
    (relation : AttachmentRelation) :
    Yields (t.upgradeAttachment entry.physical relation attachment entry.ordinal)
      (fun t' => ∃ page', Holding t' held ∧ Gained t entry page' t' ∧ Keeps page page' ∧
        (∃ current, page'.prefixPage = some (current, entry.ordinal)) ∧ KeepsQuarantine t t') (Refusal room) := by
  obtain ⟨current, attached, key⟩ := place
  have sealed := holding.pool.prefix_sealed _ _ found (by simp [attached])
  have positive := holding.pool.counted _ _ found
  unfold SequencePageTable.upgradeAttachment
  split
  · refine updatePage_spec found (Yields.pure ?_)
    refine ⟨_, ?_, ⟨Moves.setPage found rfl, rfl, KeepsPages.insert found ?_ rfl,
      ExtTreeMap.getElem?_insert_self, rank⟩, ?_, ⟨attachment, rfl⟩, rfl, rfl⟩
    · obtain ⟨place, entries, prefixes⟩ := holding.placed
      refine ⟨?_, ⟨place, entries, ?_⟩, holding.nonzero⟩
      · have pool := holding.pool.setPage { page with prefixPage := some (attachment, entry.ordinal) }
          found rfl (by simp [prefixKey, attached, key]) (fun _ => sealed) (by grind)
        rw [update_names_self holding.pool found rfl] at pool
        exact pool
      · grind
    all_goals exact ⟨rfl, rfl, fun _ => rfl, id⟩
  · exact Yields.pure ⟨page, holding, Gained.refl found rank, Keeps.refl page, ⟨current, attached⟩, rfl, rfl⟩

theorem ensureDraft_spec (mtp : Bool) (roomy : room → Unquarantined t ∧
      (mtp = true → namedOn entry.physical.ownerRank t held ≤ t.config.draftPagesPerRank)) :
    Yields (t.ensureDraft mtp entry.physical)
      (fun t' => ∃ page', Holding t' held ∧ Gained t entry page' t' ∧ Keeps page page' ∧
        page'.prefixPage = page.prefixPage ∧ (mtp → page'.draftLocalPageId.isSome) ∧ KeepsQuarantine t t')
      (Refusal room) := by
  unfold SequencePageTable.ensureDraft
  rw [found]
  refine Yields.bind_ok rfl ?_
  split
  next needed =>
    simp only [Bool.and_eq_true, Option.isNone_iff_eq_none] at needed
    refine Yields.bind (Yields.okOr_cases (fun _ popped => popped) fun none has => ?_) ?_
    · obtain ⟨clear, spare⟩ := roomy has
      -- the page itself has no draft yet, so that the drafted pages are fewer than the pages
      have fewer : (draftedOn entry.physical.ownerRank t).card + 1 ≤ (pagesOn entry.physical.ownerRank t).card := by
        refine Finset.card_lt_card ⟨Finset.filter_subset _ _, fun all => ?_⟩
        have member : entry.physical ∈ pagesOn entry.physical.ownerRank t :=
          mem_pagesOn.mpr ⟨ExtTreeMap.mem_iff_isSome_getElem?.mpr (by rw [found]; rfl), rfl⟩
        have drafted := (Finset.mem_filter.mp (all member)).2
        simp [found, needed.2] at drafted
      exact popFirst_ne_none (freeDraft_nonempty holding (clear.draft _) fewer
        (Nat.lt_succ_of_le (spare needed.1))) none
    rintro ⟨draft, rest⟩ popped
    obtain ⟨free, rfl⟩ := popFirst_some popped
    refine updatePage_spec found (Yields.pure ?_)
    refine ⟨_, ?_, ⟨Moves.takeDraft found free, rfl, KeepsPages.insert found ?_ rfl,
      ExtTreeMap.getElem?_insert_self, rank⟩, ?_, rfl, fun _ => rfl, rfl, rfl⟩
    · obtain ⟨place, entries, prefixes⟩ := holding.placed
      refine ⟨holding.pool.takeDraft found needed.2 free, ⟨place, entries, ?_⟩, holding.nonzero⟩
      grind
    all_goals exact ⟨rfl, rfl, fun _ => rfl, fun _ => rfl⟩
  next enough =>
    refine Yields.pure ⟨page, holding, Gained.refl found rank, Keeps.refl page, rfl, ?_, rfl, rfl⟩
    intro draft
    cases held : page.draftLocalPageId <;> simp_all

theorem addReference_spec (sealed : page.state = .hbmSealed)
    (place : Named t entry ∨ ∃ attachment, page.prefixPage = some (attachment, entry.ordinal)) :
    Yields (t.addReference entry.physical)
      (fun t' => Holding t' (entry :: held) ∧
        Gained t entry { page with references := page.references + 1 } t' ∧ KeepsQuarantine t t')
      (Refusal room) := by
  unfold SequencePageTable.addReference
  refine updatePage_spec found (Yields.bind (Yields.okOr (fun _ added => added) trivial) ?_)
  intro references added
  obtain rfl : references = page.references + 1 := by
    unfold checkedAdd at added
    grind
  have keeps : Keeps page { page with references := page.references + 1 } :=
    ⟨rfl, rfl, fun unsealed => absurd sealed unsealed, id⟩
  exact Yields.pure ⟨holding.share found place, ⟨Moves.setPage found rfl, rfl,
    KeepsPages.insert found keeps rfl, ExtTreeMap.getElem?_insert_self, rank⟩, rfl, rfl⟩

end

theorem attachPage_spec (holding : Holding t held) (mtp : Bool) (ordinal : Nat)
    (known : t.prefixes[attachment.key]? = some p)
    (roomy : room → Unquarantined t ∧ Roomy (ownerRank ordinal) mtp t held) :
    Yields (t.attachPage mtp attachment ordinal p)
      (fun result => ∃ page', Holding result.2 (⟨ordinal, result.1⟩ :: held) ∧
        Gained t ⟨ordinal, result.1⟩ page' result.2 ∧ page'.state = .hbmSealed ∧
        page'.validTokens = pageTokens ∧ (mtp → page'.draftLocalPageId.isSome) ∧
        KeepsQuarantine t result.2) (Refusal room) := by
  obtain ⟨page, found, key⟩ := (holding.pool.prefix_iff _ _).mp known
  unfold prefixKey at key
  obtain ⟨⟨current, currentOrdinal⟩, attached, sameKey⟩ := Option.map_eq_some_iff.mp key
  unfold SequencePageTable.attachPage
  simp only [found, attached, Option.bind_some]
  split
  · exact Yields.throw trivial
  next valid =>
    simp only [Bool.not_eq_true, Bool.not_eq_false', Bool.and_eq_true, decide_eq_true_eq] at valid
    obtain ⟨⟨⟨sealed, full⟩, rank⟩, same, related⟩ := valid
    subst same
    refine Yields.bind_ok rfl ?_
    refine Yields.bind (relationTo_external current attachment) ?_
    intro relation _
    refine Yields.bind (upgradeAttachment_spec ⟨currentOrdinal, p⟩ holding found rank
      ⟨current, attached, sameKey⟩ relation) ?_
    rintro t₁ ⟨page₁, holding₁, gained₁, keeps₁, place₁, kept₁⟩
    have spare : room → Unquarantined t₁ ∧
        (mtp = true → namedOn p.ownerRank t₁ held ≤ t₁.config.draftPagesPerRank) := by
      intro has
      obtain ⟨clear, -, drafts⟩ := roomy has
      rw [namedOn_congr gained₁.sequences_eq, gained₁.moves.config_eq, rank]
      exact ⟨kept₁.clear clear, fun needed => (drafts needed).le⟩
    refine Yields.bind (ensureDraft_spec ⟨currentOrdinal, p⟩ holding₁ gained₁.found rank mtp spare) ?_
    rintro t₂ ⟨page₂, holding₂, gained₂, keeps₂, attached₂, draft₂, kept₂⟩
    have keeps := keeps₁.trans keeps₂
    refine Yields.bind (addReference_spec ⟨currentOrdinal, p⟩ holding₂ gained₂.found rank
      (keeps.state_eq.trans sealed) (.inr (attached₂ ▸ place₁))) ?_
    rintro t₃ ⟨holding₃, gained₃, kept₃⟩
    exact Yields.pure ⟨_, holding₃, (gained₁.trans gained₂).trans gained₃, keeps.state_eq.trans sealed,
      keeps.valid_eq.trans full, draft₂, (kept₁.trans kept₂).trans kept₃⟩

end Attach

end Glmaxx.Proof.Sequence
