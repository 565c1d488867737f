import Glmaxx.Proof.Sequence.Budget

namespace Glmaxx.Proof.Sequence
open Std Library Cache Cache.SequencePageTable

variable {sequence : Cache.Sequence} {mtp : Bool} {c r i j a b : Nat} {entry : SequencePage} {p : PhysicalPageId}
  {t₁ : SequencePageTable} {rank : Fin 4} {room : Prop}

variable {t t' : SequencePageTable} {held : List SequencePage} {id : Nat}

/-- Sequence `id` in the middle of an operation: its pages hold `c` committed and `r` reserved
tokens, whatever its own counters say by now. -/
structure Carries (t : SequencePageTable) (id : Nat) (sequence : Cache.Sequence) (c r : Nat) : Prop where
  holding : Holding t []
  found : t.sequences[id]? = some sequence
  entries : Entries t sequence.mtp c r sequence.pages

theorem Holding.distinct {other : SequencePage}
    (holding : Holding t held) (found : t.sequences[id]? = some sequence)
    (entries : Entries t mtp c r sequence.pages) (getI : sequence.pages[i]? = some entry)
    (getJ : sequence.pages[j]? = some other) (same : entry.physical = other.physical) : i = j := by
  obtain ⟨place, agree, _⟩ := holding.placed
  have atI := agree entry (.inl ⟨id, sequence, found, List.mem_of_getElem? getI⟩)
  have atJ := agree other (.inl ⟨id, sequence, found, List.mem_of_getElem? getJ⟩)
  rw [← (entries i entry getI).ordinal_eq, ← (entries j other getJ).ordinal_eq, ← atI, ← atJ, same]

theorem Holding.exclusive {other : Cache.Sequence} {entry' : SequencePage}
    {page : PhysicalPage} (holding : Holding t held) (found : t.sequences[id]? = some sequence)
    (member : entry ∈ sequence.pages) (live : t.sequences[j]? = some other) (different : j ≠ id)
    (member' : entry' ∈ other.pages) (foundPage : t.physical[entry.physical]? = some page)
    (single : page.references = 1) : entry.physical ≠ entry'.physical := by
  intro same
  have counted := (holding.pool.counted _ _ foundPage).1
  have both := add_le_total (fun _ (sequence : Cache.Sequence) => nameCount sequence.pages entry.physical)
    different live found
  have own := nameCount_pos member
  have others := nameCount_pos member'
  rw [← same] at others
  simp only [names, referenceCount] at counted
  omega

theorem Pool.unprefixed {names : PhysicalPageId → Nat} {page : PhysicalPage}
    (pool : Pool t names) (found : t.physical[p]? = some page) (unsealed : page.state ≠ .hbmSealed) :
    page.prefixPage = none := by
  cases attached : page.prefixPage with
  | none => rfl
  | some _ => exact absurd (pool.prefix_sealed p page found (by simp [attached])).1 unsealed

theorem Carries.setOwn
    {page : PhysicalPage} (carries : Carries t id sequence c r) (c' r' : Nat) (page' : PhysicalPage)
    (get : sequence.pages[i]? = some entry) (found : t.physical[entry.physical]? = some page)
    (unsealed : page.state ≠ .hbmSealed) (single : page.references = 1)
    (references : page'.references = 1) (draft : page'.draftLocalPageId = page.draftLocalPageId)
    (attached : page'.prefixPage = page.prefixPage)
    (own : Fits sequence.mtp c' r' i page')
    (others : ∀ j page, j ≠ i → j < sequence.pages.length → Fits sequence.mtp c r j page →
      Fits sequence.mtp c' r' j page) :
    Carries { t with physical := t.physical.insert entry.physical page' } id sequence c' r' ∧
      Leaves id t { t with physical := t.physical.insert entry.physical page' } := by
  have member := List.mem_of_getElem? get
  have bare := carries.holding.pool.unprefixed found unsealed
  refine ⟨⟨?_, carries.found, ?_⟩, ⟨Moves.setPage found draft, fun _ _ => rfl, ?_⟩⟩
  · exact carries.holding.setPage found draft attached (by simp [attached, bare]) (by omega)
  · intro j other getJ
    obtain ⟨ordinal, rank, pageJ, foundJ, fitsJ⟩ := carries.entries j other getJ
    by_cases same : j = i
    · subst same
      obtain rfl : entry = other := by simpa [get] using getJ
      exact ⟨ordinal, rank, page', by simp, own⟩
    · have different : entry.physical ≠ other.physical := by
        intro equal
        exact same (carries.holding.distinct carries.found carries.entries get getJ equal).symm
      exact ⟨ordinal, rank, pageJ, by grind,
        others j pageJ same (List.getElem?_eq_some_iff.mp getJ).1 fitsJ⟩
  · intro j other entry' pageJ different live member' foundJ
    have apart := carries.holding.exclusive carries.found member live different member' found single
    exact ⟨pageJ, by grind, Keeps.refl pageJ⟩

def extend (sequence : Cache.Sequence) (entry : SequencePage) : Cache.Sequence :=
  { sequence with pages := sequence.pages ++ [entry] }

theorem Carries.push
    {page : PhysicalPage} (carries : Carries t id sequence c r) (c' r' : Nat) (gained : Gained t entry page t')
    (holding : Holding t' [entry])
    (ordinal : entry.ordinal = sequence.pages.length)
    (own : Fits sequence.mtp c' r' sequence.pages.length page)
    (others : ∀ j page, j < sequence.pages.length → Fits sequence.mtp c r j page →
      Fits sequence.mtp c' r' j page) :
    Carries { t' with sequences := t'.sequences.insert id (extend sequence entry) } id
      (extend sequence entry) c' r' := by
  have found : t'.sequences[id]? = some sequence := by rw [gained.sequences_eq, carries.found]
  refine ⟨holding.insertOld _ _ found ?_, by simp, ?_⟩
  · simp [extend]
  · intro j other getJ
    unfold extend at getJ
    by_cases last : j < sequence.pages.length
    · rw [List.getElem?_append_left last] at getJ
      obtain ⟨ordinal, rank, pageJ, foundJ, fitsJ⟩ := (carries.entries.keeps gained.keeps) j other getJ
      exact ⟨ordinal, rank, pageJ, foundJ, others j pageJ last fitsJ⟩
    · have bound := (List.getElem?_eq_some_iff.mp getJ).1
      obtain rfl : j = sequence.pages.length := by
        simp only [List.length_append, List.length_singleton] at bound
        omega
      obtain rfl : entry = other := by simpa using getJ
      exact ⟨ordinal, ordinal ▸ gained.rank_eq, page, gained.found, own⟩

theorem Carries.namedOn_eq (carries : Carries t id sequence c r) :
    namedOn rank t [] = othersOn rank id t + ordinalsOn rank sequence.pages.length := by
  have split := total_erase (fun _ sequence => entriesOn rank sequence.pages) carries.found
  rw [entriesOn_eq carries.entries] at split
  simp only [namedOn, othersOn, entriesOn, List.countP_nil] at split ⊢
  omega

theorem Carries.page (carries : Carries t id sequence c r) (get : sequence.pages[i]? = some entry) :
    ∃ page, t.physical[entry.physical]? = some page ∧ Fits sequence.mtp c r i page :=
  (carries.entries i entry get).page

theorem narrow_some {width : Nat} (h : narrow width a = some b) : b = a := (narrow_eq_some.mp h).2.symm

theorem Fits.grow {c' : Nat} {page : PhysicalPage} (fits : Fits mtp c 0 i page)
    (full : pageTokens * (i + 1) ≤ c) (more : c ≤ c') : Fits mtp c' 0 i page where
  valid := by
    have := fits.valid
    grind
  closed _ := fits.closed full
  tail short := absurd short (by omega)
  draft := fits.draft

theorem sealFull_mutable (validTokens : Nat) : sealFull .hbmMutable validTokens =
    .ok (if validTokens = pageTokens then .hbmSealed else .hbmMutable) := by
  unfold sealFull
  split <;> rfl

theorem fillTail_spec (carries : Carries t id sequence c 0) (length_eq : sequence.pages.length = pageCount c)
    (last : sequence.pages.getLast? = some entry) (remaining : Nat) :
    Yields (t.fillTail entry.physical remaining)
      (fun result => ∃ filled, filled + result.1 = remaining ∧
        (result.1 = 0 ∨ pageTokens ∣ c + filled) ∧ pageCount (c + filled) = pageCount c ∧
        Carries result.2 id sequence (c + filled) 0 ∧ Leaves id t result.2 ∧ KeepsQuarantine t result.2)
      (Refusal room) := by
  rw [List.getLast?_eq_getElem?] at last
  obtain ⟨page, found, fits⟩ := carries.page last
  have bound := (List.getElem?_eq_some_iff.mp last).1
  have valid := fits.valid
  unfold SequencePageTable.fillTail
  rw [found]
  refine Yields.bind_ok rfl ?_
  by_cases full : pageTokens * (sequence.pages.length - 1 + 1) ≤ c
  · have sealed := fits.closed full
    have complete : page.validTokens = pageTokens := by
      grind
    rw [if_neg (by simp [sealed]), if_neg (by simp [sealed, complete])]
    refine Yields.pure ⟨0, by simp, .inr ?_, rfl, carries, Leaves.refl id t, rfl, rfl⟩
    simp only [pageTokens, pageCount] at *
    omega
  · obtain ⟨single, state⟩ := fits.tail (by omega)
    simp only [true_or, if_true] at state
    have short : page.validTokens < pageTokens ∧
        c = pageTokens * (sequence.pages.length - 1) + page.validTokens := by
      grind
    rw [if_pos ⟨state, single, short.1⟩, checkedSub_of_le short.1.le]
    refine Yields.bind_ok rfl ?_
    refine Yields.bind (Yields.okOr (fun _ narrowed => narrow_some narrowed) trivial) ?_
    rintro filled rfl
    refine Yields.bind (Yields.okOr (fun _ added => checkedAdd_some added) trivial) ?_
    rintro validTokens rfl
    rw [state, sealFull_mutable]
    refine Yields.bind_ok rfl ?_
    rw [checkedSub_of_le (Nat.min_le_left ..)]
    refine Yields.bind_ok rfl (Yields.pure ?_)
    generalize step : min remaining (pageTokens - page.validTokens) = filled
    have next := carries.setOwn (c + filled) 0
      { page with
        validTokens := page.validTokens + filled
        state := if page.validTokens + filled = pageTokens then .hbmSealed else .hbmMutable }
      last found (by simp [state]) single single rfl rfl ?_ ?_
    · refine ⟨filled, by omega, ?_, ?_, next.1, next.2, rfl, rfl⟩
      · simp only [pageTokens] at *
        omega
      · grind
    · refine ⟨?_, ?_, ?_, fits.draft⟩
      · grind
      · intro complete
        refine if_pos ?_
        grind
      · intro partly
        simp only [true_or, if_true]
        refine ⟨single, if_neg ?_⟩
        grind
    · intro j page other bound fits
      refine fits.grow ?_ (by omega)
      simp only [pageTokens, pageCount] at *
      omega

theorem updateSequence_ok (found : t.sequences[id]? = some sequence)
    (update : Cache.Sequence → Cache.Sequence) : t.updateSequence id update =
      .ok { t with sequences := t.sequences.insert id (update sequence) } := by
  unfold SequencePageTable.updateSequence
  rw [found]
  rfl

theorem fillFresh {page : PhysicalPage} (page' : PhysicalPage)
    (holding : Holding t₁ (entry :: held)) (unused : t.physical[entry.physical]? = none)
    (physical : t₁.physical = t.physical.insert entry.physical page) (gained : Gained t entry page t₁)
    (bare : page.prefixPage = none)
    (draft : page'.draftLocalPageId = page.draftLocalPageId) (attached : page'.prefixPage = none)
    (references : page'.references = page.references) :
    Holding { t₁ with physical := t₁.physical.insert entry.physical page' } (entry :: held) ∧
      Gained t entry page' { t₁ with physical := t₁.physical.insert entry.physical page' } := by
  refine ⟨holding.setPage gained.found draft (by rw [attached, bare]) (by simp [attached]) references, ?_⟩
  refine ⟨gained.moves.trans (Moves.setPage gained.found draft), gained.sequences_eq, ?_, by simp,
    gained.rank_eq⟩
  intro p other found
  have apart : entry.physical ≠ p := by
    rintro rfl
    rw [unused] at found
    cases found
  exact ⟨other, by grind, Keeps.refl other⟩

/-- A page written with the next `appended` tokens joins a sequence whose pages are full. -/
theorem Carries.appendPage {appended : Nat} {draft : Option Nat} (carries : Carries t id sequence c 0)
    (ordinal : c = pageTokens * sequence.pages.length) (most : appended ≤ pageTokens)
    (drafted : draft.isSome = sequence.mtp) (holding : Holding t₁ [⟨sequence.pages.length, p⟩])
    (gained : Gained t ⟨sequence.pages.length, p⟩ ⟨draft,
      if appended = pageTokens then .hbmSealed else .hbmMutable, appended, 1, none⟩ t₁) :
    Carries { t₁ with sequences := t₁.sequences.insert id (extend sequence ⟨sequence.pages.length, p⟩) } id
      (extend sequence ⟨sequence.pages.length, p⟩) (c + appended) 0 := by
  refine carries.push (c + appended) 0 gained holding rfl ?_ ?_
  · refine ⟨?_, ?_, ?_, fun mtp => drafted ▸ mtp⟩
    · grind
    · intro complete
      refine if_pos ?_
      grind
    · intro partly
      simp only [true_or, if_true]
      refine ⟨trivial, if_neg ?_⟩
      grind
  · intro j page bound fits
    refine fits.grow ?_ (by omega)
    grind

theorem appendPages_spec (fuel remaining : Nat)
    (carries : Carries t id sequence c 0) (length_eq : sequence.pages.length = pageCount c)
    (enough : remaining ≤ fuel) (aligned : remaining = 0 ∨ pageTokens ∣ c)
    (spare : room → Spare t id sequence.mtp (pageCount (c + remaining))) :
    Yields (appendPages id fuel remaining t)
      (fun t' => ∃ pages, Carries t' id { sequence with pages } (c + remaining) 0 ∧
        pages.length = pageCount (c + remaining) ∧ Leaves id t t') (Refusal room) := by
  induction fuel generalizing t sequence c remaining with
  | zero =>
    obtain rfl : remaining = 0 := by omega
    exact Yields.pure ⟨sequence.pages, carries, length_eq, Leaves.refl id t⟩
  | succ fuel ih =>
    unfold appendPages
    split
    next none =>
      subst none
      exact Yields.pure ⟨sequence.pages, carries, length_eq, Leaves.refl id t⟩
    next some =>
      have full : pageTokens ∣ c := aligned.resolve_left some
      have ordinal : c = pageTokens * sequence.pages.length := by
        simp only [pageTokens, pageCount] at *
        omega
      have below : sequence.pages.length < pageCount (c + remaining) := by
        grind
      rw [carries.found]
      refine Yields.bind_ok rfl ?_
      refine Yields.bind (allocatePage_spec carries.holding sequence.pages.length sequence.mtp fun has =>
        (spare has).roomy ⟨rfl, rfl⟩ rfl below carries.namedOn_eq) ?_
      rintro ⟨p, t₁⟩ ⟨draft, drafted, holding, unused, physical, -, gained, kept⟩
      refine Yields.bind (Yields.okOr (fun _ narrowed => narrow_some narrowed) trivial) ?_
      rintro appended step
      refine updatePage_bind gained.found ?_
      rw [sealFull_mutable]
      refine Yields.bind_ok rfl (Yields.pure ?_)
      obtain ⟨holding₂, gained₂⟩ := fillFresh ⟨draft,
        if appended = pageTokens then .hbmSealed else .hbmMutable, appended, 1, .none⟩
        holding unused physical gained rfl rfl rfl rfl
      have pushed := carries.appendPage ordinal (by omega) drafted holding₂ gained₂
      rw [updateSequence_ok (show _ = Option.some sequence from gained₂.sequences_eq ▸ carries.found)]
      refine Yields.bind_ok rfl ?_
      rw [checkedSub_of_le (by omega)]
      refine Yields.bind_ok rfl ?_
      have total : c + appended + (remaining - appended) = c + remaining := by omega
      have leaves : Leaves id t _ := gained₂.leaves.trans (Leaves.setSequence (extend sequence ⟨sequence.pages.length, p⟩))
      have tail := ih (remaining - appended) pushed ?_ (by grind) ?_ fun has =>
        total ▸ (spare has).of_leaves kept leaves
      · refine tail.mono ?_ fun _ failure => failure
        rintro t₃ ⟨pages, carries₃, length₃, leaves₃⟩
        rw [total] at carries₃ length₃
        exact ⟨pages, carries₃, length₃, leaves.trans leaves₃⟩
      · simp only [extend, List.length_append, List.length_singleton]
        grind
      · simp only [pageTokens] at *
        omega

theorem Valid.carries (valid : Valid t) (found : t.sequences[id]? = some sequence) :
    Carries t id sequence sequence.committedTokens (reserved sequence) :=
  ⟨valid.holding, found, (valid.shape id sequence found).entries⟩

theorem reserved_none (idle : sequence.tentative = none) : reserved sequence = 0 := by
  simp [reserved, idle]

theorem Entries.of_physical {pages : List SequencePage}
    (entries : Entries t mtp c r pages) (same : t'.physical = t.physical) : Entries t' mtp c r pages :=
  entries.keeps fun _ page found => ⟨page, by rw [same, found], Keeps.refl page⟩

theorem Carries.settle {sequence' : Cache.Sequence} (valid : Valid t)
    (carries : Carries t' id sequence c r) (leaves : Leaves id t t')
    (same : sequence'.pages = sequence.pages ∧ sequence'.mtp = sequence.mtp)
    (committed : sequence'.committedTokens = c) (pending : reserved sequence' = r)
    (length_eq : sequence.pages.length = pageCount (c + r)) (bound : c + r ≤ maximumContextTokens)
    (tentative : ∀ transaction, sequence'.tentative = some transaction →
      transaction.originalCommittedTokens = c ∧ transaction.originalPageCount = pageCount c ∧
      transaction.originalTailTokens = tailTokens c ∧ 0 < transaction.reservedTokens ∧
      transaction.reservedTokens ≤ 7) :
    Valid { t' with sequences := t'.sequences.insert id sequence' } ∧
      Moves t { t' with sequences := t'.sequences.insert id sequence' } := by
  have step := leaves.trans (Leaves.setSequence sequence')
  refine ⟨valid.of_leaves step ?_ ?_, step.moves⟩
  · exact carries.holding.insertOld _ _ carries.found (by simp [same.1])
  · intro settled found
    obtain rfl : sequence' = settled := by simpa using found
    refine ⟨?_, ?_, ?_, ?_⟩
    · rw [pending, committed]
      exact bound
    · rw [pending, committed, same.1, length_eq]
    · rw [pending, committed, same.1, same.2]
      exact carries.entries.of_physical rfl
    · rw [committed]
      exact tentative

theorem filter_some {limit : Nat} (h : (checkedAdd 64 a b).filter (· ≤ limit) = some c) :
    c = a + b ∧ a + b ≤ limit := by
  rw [Option.filter_eq_some_iff] at h
  obtain ⟨added, within⟩ := h
  have := checkedAdd_some added
  simp only [decide_eq_true_eq] at within
  omega

section
variable (valid : Valid t) (id tokenCount : Nat) (affords : room → Affords t (.appendCommitted id tokenCount))
include valid affords

theorem appendCommittedInner_spec : Yields (t.appendCommittedInner id tokenCount)
      (fun t' => (Valid t' ∧ Moves t t') ∧ loads t' = loadsAfter t (.appendCommitted id tokenCount))
      (Refusal room) := by
  unfold SequencePageTable.appendCommittedInner
  refine Yields.bind (Yields.okOr (fun _ found => found) trivial) ?_
  intro sequence found
  refine Yields.bind (Yields.okOr (fun _ kept => filter_some kept) trivial) ?_
  rintro committed ⟨rfl, bound⟩
  have writes : written t (.appendCommitted id tokenCount) =
      some (id, ⟨sequence.mtp, sequence.committedTokens + tokenCount, reserved sequence⟩) := by
    simp [written, found]
  by_cases idle : sequence.tentative = none
  · simp only [idle, Option.isSome_none, Bool.false_eq_true, if_false]
    have shape := valid.shape id sequence found
    have carries := valid.carries found
    have length_eq := shape.length_eq
    rw [reserved_none idle] at carries length_eq
    have rest : ∀ t₁ remaining filled, filled + remaining = tokenCount →
        (remaining = 0 ∨ pageTokens ∣ sequence.committedTokens + filled) →
        pageCount (sequence.committedTokens + filled) = pageCount sequence.committedTokens →
        Carries t₁ id sequence (sequence.committedTokens + filled) 0 → Leaves id t t₁ → KeepsQuarantine t t₁ →
        Yields (do
          let table ← appendPages id remaining remaining t₁
          table.updateSequence id fun sequence' =>
            { sequence' with committedTokens := sequence.committedTokens + tokenCount })
          (fun t' => (Valid t' ∧ Moves t t') ∧ loads t' = loadsAfter t (.appendCommitted id tokenCount))
          (Refusal room) := by
      intro t₁ remaining filled split aligned same carries₁ leaves₁ kept
      have sum : sequence.committedTokens + filled + remaining = sequence.committedTokens + tokenCount := by
        omega
      refine Yields.bind (appendPages_spec remaining remaining carries₁ (by rw [same]; exact length_eq)
        le_rfl aligned fun has => ?_) ?_
      · have spare := (affords has id _ writes).of_leaves kept leaves₁
        rw [reserved_none idle, Nat.add_zero] at spare
        rw [sum]
        exact spare
      rintro t₂ ⟨pages, carries₂, length₂, leaves₂⟩
      rw [sum] at carries₂ length₂
      rw [updateSequence_ok carries₂.found]
      refine ⟨carries₂.settle valid (leaves₁.trans leaves₂) ⟨rfl, rfl⟩ rfl (reserved_none idle) length₂
        bound (by simp [idle]), ?_⟩
      rw [loadsAfter, writes]
      exact loads_setSequence (leaves₁.trans leaves₂) _
    cases last : sequence.pages.getLast? with
    | none => exact rest t tokenCount 0 (by omega) (.inr (by
        have : sequence.pages = [] := List.getLast?_eq_none_iff.mp last
        simp [this, pageCount, pageTokens] at length_eq ⊢
        omega)) rfl carries (Leaves.refl id t) ⟨rfl, rfl⟩
    | some entry =>
      refine Yields.bind (fillTail_spec carries length_eq last tokenCount) ?_
      rintro ⟨remaining, t₁⟩ ⟨filled, split, aligned, same, carries₁, leaves₁, kept⟩
      exact rest t₁ remaining filled split aligned same carries₁ leaves₁ kept
  · simp only [Option.isSome_iff_ne_none, ne_eq, idle, not_false_eq_true, if_true]
    exact Yields.throw trivial

theorem appendCommitted_leads : Served t (t.appendCommitted id tokenCount) ∧
      Leads (Refusal room) (loadsAfter t (.appendCommitted id tokenCount)) (t.appendCommitted id tokenCount) := by
  unfold SequencePageTable.appendCommitted
  split
  next bound => exact Leads.reject valid (requireUnbound_error bound ▸ trivial)
  split
  next zero =>
    subst zero
    refine ⟨⟨valid, Moves.refl t, nofun⟩, nofun, fun _ => ?_⟩
    cases found : t.sequences[id]? with
    | none => simp [loadsAfter, written, found]
    | some sequence =>
      have same : (loads t)[id]? = some (loadOf sequence) := by rw [getElem?_loads, found]; rfl
      simpa [loadsAfter, written, found, loadOf] using (insert_of_getElem? same).symm
  · exact transact_leads valid (appendCommittedInner_spec valid id tokenCount affords)

end

end Glmaxx.Proof.Sequence
