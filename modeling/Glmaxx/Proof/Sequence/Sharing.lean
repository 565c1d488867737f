import Glmaxx.Proof.Sequence.Tentative

namespace Glmaxx.Proof.Sequence
open Std Library Cache Cache.SequencePageTable

variable {t₁ t₂ : SequencePageTable} {mtp : Bool} {c n i : Nat} {pages : List SequencePage} {entry : SequencePage}
  {page : PhysicalPage} {p : PhysicalPageId} {rank : Fin 4} {room : Prop}

variable {t t' : SequencePageTable} {id : Nat}

/-- Pages collected for a sequence that is not in the table yet, in a table that has gained nothing
else since `t`. -/
structure Collected (t : SequencePageTable) (id : Nat) (mtp : Bool) (c : Nat)
    (pages : List SequencePage) (t' : SequencePageTable) : Prop where
  holding : Holding t' pages.reverse
  entries : Entries t' mtp c 0 pages
  sequences_eq : t'.sequences = t.sequences
  keeps : KeepsPages t t'
  leaves : Leaves id t t'

theorem Collected.start (valid : Valid t) (id : Nat) (mtp : Bool) (c : Nat) : Collected t id mtp c [] t :=
  ⟨valid.holding, fun _ _ get => by simp at get, rfl, fun _ page found => ⟨page, found, Keeps.refl page⟩,
    Leaves.refl id t⟩

theorem Collected.push (collected : Collected t id mtp c pages t₁)
    (holding : Holding t₂ (entry :: pages.reverse)) (gained : Gained t₁ entry page t₂)
    (ordinal : entry.ordinal = pages.length) (fits : Fits mtp c 0 pages.length page) :
    Collected t id mtp c (pages ++ [entry]) t₂ where
  holding := by simpa using holding
  entries := by
    intro i other get
    by_cases last : i < pages.length
    · rw [List.getElem?_append_left last] at get
      exact (collected.entries.keeps gained.keeps) i other get
    · have bound := (List.getElem?_eq_some_iff.mp get).1
      obtain rfl : i = pages.length := by
        simp only [List.length_append, List.length_singleton] at bound
        omega
      obtain rfl : entry = other := by simpa using get
      exact ⟨ordinal, ordinal ▸ gained.rank_eq, page, gained.found, fits⟩
  sequences_eq := gained.sequences_eq.trans collected.sequences_eq
  keeps p page found := by
    obtain ⟨page₁, found₁, keeps₁⟩ := collected.keeps p page found
    obtain ⟨page₂, found₂, keeps₂⟩ := gained.keeps p page₁ found₁
    exact ⟨page₂, found₂, keeps₁.trans keeps₂⟩
  leaves := collected.leaves.trans gained.leaves

theorem Collected.insert {mtp : Bool} {c : Nat} {pages : List SequencePage} (valid : Valid t)
    (collected : Collected t id mtp c pages t') (nonzero : id ≠ 0) (absent : t.sequences[id]? = none)
    (length_eq : pages.length = pageCount c) (bound : c ≤ maximumContextTokens) :
    let sequence : Cache.Sequence := { mtp, committedTokens := c, pages, tentative := none }
    Valid { t' with sequences := t'.sequences.insert id sequence } ∧
      Moves t { t' with sequences := t'.sequences.insert id sequence } := by
  intro sequence
  have leaves := collected.leaves.trans (Leaves.setSequence sequence)
  refine ⟨valid.of_leaves leaves ?_ ?_, leaves.moves⟩
  · exact collected.holding.insertNew nonzero (by rw [collected.sequences_eq, absent])
      (List.reverse_perm pages).symm
  · intro settled found
    obtain rfl : sequence = settled := by simpa using found
    exact ⟨bound, length_eq, collected.entries.of_physical rfl, fun _ none => by cases none⟩

section
variable (absent : t.sequences[id]? = none) (collected : Collected t id mtp c pages t₁)
include absent collected

theorem Collected.namedOn_eq :
    namedOn rank t₁ pages.reverse = othersOn rank id t + ordinalsOn rank pages.length := by
  unfold namedOn othersOn
  rw [collected.sequences_eq, erase_of_getElem?_none absent, ← entriesOn_eq collected.entries]
  unfold entriesOn
  rw [List.countP_reverse]

theorem Collected.roomy (kept : KeepsQuarantine t t₁) (below : pages.length < n) (spare : Spare t id mtp n) :
    Unquarantined t₁ ∧ Roomy (ownerRank pages.length) mtp t₁ pages.reverse :=
  spare.roomy kept collected.leaves.moves.config_eq below (collected.namedOn_eq absent)

end

theorem Collected.attach (collected : Collected t id mtp (pageTokens * n) pages t₁)
    (below : pages.length < n) (holding : Holding t₂ (⟨pages.length, p⟩ :: pages.reverse))
    (gained : Gained t₁ ⟨pages.length, p⟩ page t₂) (sealed : page.state = .hbmSealed)
    (full : page.validTokens = pageTokens) (drafted : mtp → page.draftLocalPageId.isSome) :
    Collected t id mtp (pageTokens * n) (pages ++ [⟨pages.length, p⟩]) t₂ := by
  refine collected.push holding gained rfl ⟨?_, fun _ => sealed, ?_, drafted⟩
  · grind
  · intro short
    grind

theorem admitPages_spec
    (rest : List PrefixPageAttachment) (seen : Finset PrefixPageKey) (absent : t.sequences[id]? = none)
    (collected : Collected t id mtp (pageTokens * n) pages t₁) (split : pages.length + rest.length = n)
    (kept : KeepsQuarantine t t₁) (spare : room → Spare t id mtp n) :
    Yields (admitPages mtp rest pages.length pages seen t₁)
      (fun result => Collected t id mtp (pageTokens * n) result.1 result.2 ∧ result.1.length = n)
      (Refusal room) := by
  induction rest generalizing pages seen t₁ with
  | nil => exact Yields.pure ⟨collected, by simpa using split⟩
  | cons attachment rest ih =>
    have below : pages.length < n := by
      rw [List.length_cons] at split
      omega
    have roomy := fun has : room => collected.roomy absent kept below (spare has)
    unfold admitPages
    dsimp only
    split
    · exact Yields.throw trivial
    split
    · exact Yields.throw trivial
    have next : ∀ result : PhysicalPageId × SequencePageTable,
        (∃ page', Holding result.2 (⟨pages.length, result.1⟩ :: pages.reverse) ∧
          Gained t₁ ⟨pages.length, result.1⟩ page' result.2 ∧ page'.state = .hbmSealed ∧
          page'.validTokens = pageTokens ∧ (mtp → page'.draftLocalPageId.isSome) ∧
          KeepsQuarantine t₁ result.2) →
        Yields (admitPages mtp rest (pages.length + 1) (pages ++ [⟨pages.length, result.1⟩])
          (insert attachment.key seen) result.2)
          (fun result => Collected t id mtp (pageTokens * n) result.1 result.2 ∧ result.1.length = n)
          (Refusal room) := by
      rintro ⟨p, t₂⟩ ⟨page, holding, gained, sealed, full, drafted, kept₂⟩
      have longer : (pages ++ [(⟨pages.length, p⟩ : SequencePage)]).length + rest.length = n := by
        simp only [List.length_append, List.length_cons, List.length_nil] at split ⊢
        omega
      simpa using ih (insert attachment.key seen)
        (collected.attach below holding gained sealed full drafted) longer (kept.trans kept₂)
    cases known : t₁.prefixes[attachment.key]? with
    | some p => exact Yields.bind (attachPage_spec collected.holding mtp pages.length known roomy) next
    | none => exact Yields.bind (restorePage_spec collected.holding mtp pages.length known roomy) next

theorem admitWithPrefix_leads (valid : Valid t) (id : Nat) (mtp : Bool) (prefixPages : List PrefixPageAttachment)
    (affords : room → Affords t (.admitWithPrefix id mtp prefixPages)) :
    Served t (t.admitWithPrefix id mtp prefixPages) ∧
      Leads (Refusal room) (loadsAfter t (.admitWithPrefix id mtp prefixPages))
        (t.admitWithPrefix id mtp prefixPages) := by
  unfold SequencePageTable.admitWithPrefix
  split
  next bound => exact Leads.reject valid (requireUnbound_error bound ▸ trivial)
  split
  · exact Leads.reject valid trivial
  next allowed =>
  have absent : t.sequences[id]? = none := by grind
  have whole : pageCount (pageTokens * prefixPages.length) = prefixPages.length := by
    grind
  refine transact_leads valid ?_
  refine Yields.bind (admitPages_spec (n := prefixPages.length) prefixPages ∅ absent
    (Collected.start valid id mtp _) (Nat.zero_add _) ⟨rfl, rfl⟩ fun has => whole ▸ affords has id _ rfl) ?_
  rintro ⟨pages, t₁⟩ ⟨collected, length_eq⟩
  refine Yields.bind (Yields.okOr (fun _ product => product) trivial) ?_
  intro committed product
  obtain rfl : committed = pageTokens * prefixPages.length := by
    unfold checkedMul at product
    grind
  refine Yields.pure ⟨collected.insert valid ?_ absent (length_eq.trans whole.symm) ?_,
    loads_setSequence collected.leaves _⟩
  · exact fun zero => allowed (.inl zero)
  · have short : ¬prefixPages.length > maximumPages := fun long => allowed (.inr (.inr long))
    simp only [pageTokens, maximumPages, maximumContextTokens] at *
    omega

theorem Fits.shared (fits : Fits mtp c 0 i page)
    (full : pageTokens * (i + 1) ≤ c) : page.state = .hbmSealed ∧ page.validTokens = pageTokens := by
  have valid := fits.valid
  refine ⟨fits.closed full, ?_⟩
  grind

theorem Fits.copied (fits : Fits mtp c 0 i page) (partly : ¬pageTokens * (i + 1) ≤ c) :
    page.state = .hbmMutable ∧ page.validTokens < pageTokens ∧ page.references = 1 := by
  have valid := fits.valid
  obtain ⟨single, state⟩ := fits.tail (by omega)
  simp only [true_or, if_true] at state
  refine ⟨state, ?_, single⟩
  grind

/-- A full page of the source is shared with the new sequence. -/
theorem Collected.share (collected : Collected t id mtp c pages t₁)
    (fits : Fits mtp c 0 pages.length page) (sealed : page.state = .hbmSealed)
    (ordinal : entry.ordinal = pages.length) (holding : Holding t₂ (entry :: pages.reverse))
    (gained : Gained t₁ entry { page with references := page.references + 1 } t₂) :
    Collected t id mtp c (pages ++ [entry]) t₂ := by
  have keeps : Keeps page { page with references := page.references + 1 } :=
    ⟨rfl, rfl, fun unsealed => absurd sealed unsealed, fun drafted => drafted⟩
  exact collected.push holding gained ordinal (fits.keeps keeps)

/-- The last page of the source, when it has room, is copied to a page of the new sequence's own. -/
theorem Collected.copy {ordinal : Nat} {draft : Option Nat}
    (collected : Collected t id mtp c pages t₁) (fits : Fits mtp c 0 pages.length page)
    (partly : ¬pageTokens * (pages.length + 1) ≤ c) (next : ordinal = pages.length) (drafted : draft.isSome = mtp)
    (holding : Holding t₂ (⟨ordinal, p⟩ :: pages.reverse)) (unused : t₁.physical[p]? = none)
    (physical : t₂.physical = t₁.physical.insert p ⟨draft, .hbmMutable, 0, 1, none⟩)
    (gained : Gained t₁ ⟨ordinal, p⟩ ⟨draft, .hbmMutable, 0, 1, none⟩ t₂) :
    let page' : PhysicalPage := ⟨draft, .hbmMutable, page.validTokens, 1, none⟩
    Collected t id mtp c (pages ++ [⟨ordinal, p⟩]) { t₂ with physical := t₂.physical.insert p page' } := by
  intro page'
  obtain ⟨holding', gained'⟩ := fillFresh page' holding unused physical gained rfl rfl rfl rfl
  refine collected.push holding' gained' next ?_
  exact ⟨fits.valid, fun complete => absurd complete partly, fun _ => ⟨rfl, by simp [page']⟩,
    fun mtp => drafted ▸ mtp⟩

theorem forkPages_spec {source : Cache.Sequence} {sourceId : Nat} (rest : List SequencePage)
    (absent : t.sequences[id]? = none) (live : t.sequences[sourceId]? = some source)
    (original : Entries t mtp c 0 source.pages) (collected : Collected t id mtp c pages t₁)
    (split : source.pages.drop pages.length = rest) (kept : KeepsQuarantine t t₁)
    (spare : room → Spare t id mtp source.pages.length) :
    Yields (forkPages mtp rest pages t₁)
      (fun result => Collected t id mtp c result.1 result.2 ∧
        result.1.length = pages.length + rest.length) (Refusal room) := by
  induction rest generalizing pages t₁ with
  | nil => exact Yields.pure ⟨collected, rfl⟩
  | cons entry rest ih =>
    have get : source.pages[pages.length]? = some entry := by
      rw [← List.head?_drop, split]
      rfl
    have dropped : source.pages.drop (pages.length + 1) = rest := by
      rw [← List.tail_drop, split]
      rfl
    obtain ⟨ordinal, rank, page, found, fits⟩ := (original.keeps collected.keeps) _ _ get
    have next : ∀ (entry' : SequencePage) (t₂ : SequencePageTable),
        Collected t id mtp c (pages ++ [entry']) t₂ → KeepsQuarantine t₁ t₂ →
        Yields (forkPages mtp rest (pages ++ [entry']) t₂)
          (fun result => Collected t id mtp c result.1 result.2 ∧
            result.1.length = pages.length + (entry :: rest).length) (Refusal room) := by
      intro entry' t₂ pushed kept₂
      refine (ih pushed (by simpa using dropped) (kept.trans kept₂)).mono ?_ fun _ failure => failure
      rintro result ⟨collected', length_eq⟩
      refine ⟨collected', ?_⟩
      simp only [List.length_append, List.length_cons, List.length_nil] at length_eq ⊢
      omega
    unfold forkPages
    rw [found]
    refine Yields.bind_ok rfl ?_
    by_cases full : pageTokens * (pages.length + 1) ≤ c
    · obtain ⟨sealed, complete⟩ := fits.shared full
      rw [if_pos ⟨sealed, complete⟩]
      have named : Named t₁ entry :=
        ⟨sourceId, source, by rw [collected.sequences_eq, live], List.mem_of_getElem? get⟩
      refine Yields.bind (addReference_spec _ collected.holding found (ordinal ▸ rank) sealed (.inl named)) ?_
      rintro t₂ ⟨holding, gained, kept₂⟩
      exact next entry t₂ (collected.share fits sealed ordinal holding gained) kept₂
    · obtain ⟨state, short, single⟩ := fits.copied full
      rw [if_neg (by simp [state]), if_pos ⟨state, short, single⟩]
      have below := (List.getElem?_eq_some_iff.mp get).1
      refine Yields.bind (allocatePage_spec collected.holding entry.ordinal mtp fun has =>
        ordinal ▸ collected.roomy absent kept below (spare has)) ?_
      rintro ⟨p, t₂⟩ ⟨draft, drafted, holding, unused, physical, -, gained, kept₂⟩
      refine updatePage_bind gained.found (Yields.pure ?_)
      exact next ⟨entry.ordinal, p⟩ _
        (collected.copy fits full ordinal drafted holding unused physical gained) kept₂

theorem forkSequence_leads (valid : Valid t) (sourceId destinationId : Nat)
    (affords : room → Affords t (.forkSequence sourceId destinationId)) :
    Served t (t.forkSequence sourceId destinationId) ∧
      Leads (Refusal room) (loadsAfter t (.forkSequence sourceId destinationId))
        (t.forkSequence sourceId destinationId) := by
  unfold SequencePageTable.forkSequence
  split
  next bound => exact Leads.reject valid (requireUnbound_error bound ▸ trivial)
  split
  · exact Leads.reject valid trivial
  next allowed =>
  have absent : t.sequences[destinationId]? = none := by grind
  split
  · exact Leads.reject valid trivial
  next source live =>
  split
  · exact Leads.reject valid trivial
  next unreserved =>
  have idle : source.tentative = none := by simpa using unreserved
  have shape := valid.shape sourceId source live
  have entries := shape.entries
  have length_eq := shape.length_eq
  have bound := shape.bound
  rw [reserved_none idle] at entries length_eq bound
  have writes : written t (.forkSequence sourceId destinationId) =
      some (destinationId, ⟨source.mtp, source.committedTokens, 0⟩) := by
    simp [written, live]
  rw [loadsAfter, writes]
  refine transact_leads valid ?_
  refine Yields.bind (forkPages_spec source.pages absent live entries
    (Collected.start valid destinationId source.mtp _) rfl ⟨rfl, rfl⟩ fun has =>
      length_eq ▸ affords has destinationId _ writes) ?_
  rintro ⟨pages, t₁⟩ ⟨collected, copied⟩
  refine Yields.pure ⟨collected.insert valid ?_ absent ?_ bound, loads_setSequence collected.leaves _⟩
  · exact fun zero => allowed (.inl zero)
  · rw [copied, List.length_nil, Nat.zero_add, length_eq, Nat.add_zero]

theorem Released.single (released : Released t p t')
    (single : ∀ page, t.physical[p]? = some page → page.state = .hbmSealed ∨ page.references = 1)
    {q : PhysicalPageId} (before : ∀ page, t.physical[q]? = some page →
      page.state = .hbmSealed ∨ page.references = 1)
    (found : t'.physical[q]? = some page) : page.state = .hbmSealed ∨ page.references = 1 := by
  by_cases same : p = q
  · subst same
    obtain ⟨first, foundFirst, ⟨many, physical⟩ | ⟨_, physical⟩⟩ := released.page
    · have sealed := (single first foundFirst).resolve_right (by omega)
      grind
    · grind
  · rw [released.elsewhere same] at found
    exact before page found

theorem releasePages_spec (id : Nat) (pages : List SequencePage) (holding : Holding t₁ pages)
    (single : ∀ entry ∈ pages, ∀ page, t₁.physical[entry.physical]? = some page →
      page.state = .hbmSealed ∨ page.references = 1) :
    Yields (releasePages pages t₁)
      (fun t₂ => Holding t₂ [] ∧ t₂.sequences = t₁.sequences ∧ Leaves id t₁ t₂) External := by
  induction pages generalizing t₁ with
  | nil => exact Yields.pure ⟨holding, rfl, Leaves.refl id t₁⟩
  | cons entry rest ih =>
    unfold releasePages
    refine Yields.bind (releasePage_spec holding) ?_
    rintro t₂ ⟨holding₂, released⟩
    have leaves := released.leaves id holding (single entry (List.mem_cons_self ..))
    refine (ih holding₂ ?_).mono ?_ fun _ failure => failure
    · intro other member page found
      exact released.single (single entry (List.mem_cons_self ..))
        (single other (List.mem_cons_of_mem _ member)) found
    · rintro t₃ ⟨holding₃, same, leaves₃⟩
      exact ⟨holding₃, same.trans released.sequences_eq, leaves.trans leaves₃⟩

theorem removeSequence_served (valid : Valid t) (id : Nat) : Served t (t.removeSequence id) := by
  unfold SequencePageTable.removeSequence
  split
  next bound => exact Served.reject valid (requireUnbound_error bound ▸ trivial)
  refine transact_served valid (Yields.bind (Yields.okOr (fun _ found => found) trivial) ?_)
  intro sequence found
  dsimp only
  split
  · exact Yields.throw trivial
  have holding := valid.holding.eraseSequence found (List.reverse_perm sequence.pages)
  refine (releasePages_spec id sequence.pages.reverse holding ?_).mono ?_ fun _ failure => failure
  · intro entry member page foundPage
    obtain ⟨i, get⟩ := List.mem_iff_getElem?.mp (List.mem_reverse.mp member)
    obtain ⟨page', foundPage', fits⟩ := ((valid.shape id sequence found).entries i entry get).page
    obtain rfl : page' = page := by simpa [foundPage'] using foundPage
    exact fits.single
  · rintro t' ⟨holding', same, leaves⟩
    have step := Leaves.eraseSequence.trans leaves
    refine ⟨valid.of_leaves step holding' ?_, step.moves⟩
    intro removed found'
    simp [same] at found'

end Glmaxx.Proof.Sequence
