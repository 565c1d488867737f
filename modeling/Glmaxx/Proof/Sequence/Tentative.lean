import Glmaxx.Proof.Sequence.Growth

namespace Glmaxx.Proof.Sequence
open Std Library Cache Cache.SequencePageTable

variable {sequence : Cache.Sequence} {c r i c' : Nat} {mtp : Bool} {page : PhysicalPage} {room : Prop}

variable {t t' : SequencePageTable} {held : List SequencePage} {id : Nat}

section
variable (carries : Carries t id sequence c r) (length_eq : sequence.pages.length = pageCount (c + r))
include carries length_eq

theorem needsPage_spec :
    Yields (t.needsPage sequence) (fun needed => needed = decide (pageTokens ∣ c + r)) (Refusal room) := by
  unfold SequencePageTable.needsPage
  cases last : sequence.pages.getLast? with
  | none =>
    have empty : sequence.pages = [] := List.getLast?_eq_none_iff.mp last
    rw [empty] at length_eq
    refine Yields.pure (decide_eq_true ?_).symm
    simp only [pageTokens, pageCount, List.length_nil] at *
    omega
  | some entry =>
    rw [List.getLast?_eq_getElem?] at last
    obtain ⟨page, found, fits⟩ := carries.page last
    have bound := (List.getElem?_eq_some_iff.mp last).1
    have valid := fits.valid
    dsimp only
    rw [found]
    refine Yields.bind_ok rfl (Yields.pure (decide_eq_decide.mpr ?_))
    simp only [pageTokens, pageCount] at *
    omega

theorem openTail_spec (spare : room → Spare t id sequence.mtp (pageCount (c + r + 1))) :
    Yields (t.openTail id) (fun t' => ∃ pages, Carries t' id { sequence with pages } c r ∧
      pages.length = (c + r) / pageTokens + 1 ∧ Leaves id t t' ∧ KeepsQuarantine t t') (Refusal room) := by
  unfold SequencePageTable.openTail
  rw [carries.found]
  refine Yields.bind_ok rfl ?_
  refine Yields.bind (needsPage_spec carries length_eq) ?_
  · rintro needPage rfl
    split
    next full =>
      have full := of_decide_eq_true full
      have ordinal : c + r = pageTokens * sequence.pages.length := by
        simp only [pageTokens, pageCount] at *
        omega
      have below : sequence.pages.length < pageCount (c + r + 1) := by
        grind
      refine Yields.bind (allocatePage_spec carries.holding sequence.pages.length sequence.mtp fun has =>
        (spare has).roomy ⟨rfl, rfl⟩ rfl below carries.namedOn_eq) ?_
      rintro ⟨p, t₁⟩ ⟨draft, drafted, holding, unused, physical, -, gained, kept⟩
      dsimp only
      rw [updateSequence_ok (show _ = some sequence from gained.sequences_eq ▸ carries.found)]
      have pushed := carries.push c r gained holding rfl ?_ fun _ _ _ fits => fits
      · refine ⟨_, pushed, ?_, gained.leaves.trans (Leaves.setSequence _), kept⟩
        rw [ordinal]
        simp [pageTokens]
      · refine ⟨?_, ?_, ?_, fun mtp => drafted ▸ mtp⟩
        · grind
        · intro complete
          grind
        · intro _
          exact ⟨rfl, (if_pos (.inr ordinal.le)).symm⟩
    next room =>
      have room := of_decide_eq_false (Bool.eq_false_iff.mpr room)
      refine Yields.pure ⟨sequence.pages, carries, ?_, Leaves.refl id t, rfl, rfl⟩
      simp only [pageTokens, pageCount] at *
      omega

end

theorem reserveToken_spec (fits : Fits mtp c r ((c + r) / pageTokens) page) :
    Yields (reserveToken page) (fun page' =>
      page' = { page with state := .hbmTentative, validTokens := page.validTokens + 1 }) (Refusal room) := by
  obtain ⟨single, state⟩ := fits.tail (by grind)
  unfold reserveToken
  rw [if_neg (by rw [state, single]; split <;> simp)]
  by_cases mutable : r = 0 ∨ c + r ≤ pageTokens * ((c + r) / pageTokens)
  · rw [if_pos mutable] at state
    have transition : PageState.hbmMutable.transition .hbmTentative = .ok .hbmTentative := rfl
    simp only [state, if_true, transition, Except.mapError]
    refine Yields.bind_ok rfl ?_
    refine Yields.bind (Yields.okOr (fun _ added => checkedAdd_some added) trivial) ?_
    rintro validTokens rfl
    exact Yields.pure rfl
  · rw [if_neg mutable] at state
    simp only [state, reduceCtorEq, if_false, pure_bind]
    refine Yields.bind (Yields.okOr (fun _ added => checkedAdd_some added) trivial) ?_
    rintro validTokens rfl
    exact Yields.pure rfl

theorem Carries.reserve {entry : SequencePage}
    (carries : Carries t id sequence c r) (length_eq : sequence.pages.length = (c + r) / pageTokens + 1)
    (last : sequence.pages[(c + r) / pageTokens]? = some entry) (found : t.physical[entry.physical]? = some page) :
    let page' := { page with state := .hbmTentative, validTokens := page.validTokens + 1 }
    Carries { t with physical := t.physical.insert entry.physical page' } id sequence c (r + 1) ∧
      Leaves id t { t with physical := t.physical.insert entry.physical page' } := by
  intro reservedPage
  obtain ⟨page', found', fits⟩ := carries.page last
  obtain rfl : page' = page := by simpa [found'] using found
  obtain ⟨single, state⟩ := fits.tail (by grind)
  have valid := fits.valid
  refine carries.setOwn c (r + 1) _ last found (by rw [state]; split <;> decide) single single rfl rfl ?_ ?_
  · refine ⟨?_, ?_, ?_, fits.draft⟩
    · change page'.validTokens + 1 = _
      grind
    · intro complete
      grind
    · intro _
      refine ⟨single, (if_neg ?_).symm⟩
      grind
  · intro j other before bound fits
    have earlier : j < (c + r) / pageTokens := by omega
    have valid := fits.valid
    refine ⟨?_, fits.closed, ?_, fits.draft⟩
    · grind
    · intro partly
      obtain ⟨single, state⟩ := fits.tail partly
      refine ⟨single, ?_⟩
      rw [state, if_neg, if_neg]
      · grind
      · grind

theorem reserveTentative_spec (requested : Nat)
    (carries : Carries t id sequence c r) (length_eq : sequence.pages.length = pageCount (c + r))
    (spare : room → Spare t id sequence.mtp (pageCount (c + (r + requested)))) :
    Yields (reserveTentative id requested t)
      (fun t' => ∃ pages, Carries t' id { sequence with pages } c (r + requested) ∧
        pages.length = pageCount (c + (r + requested)) ∧ Leaves id t t') (Refusal room) := by
  induction requested generalizing t sequence r with
  | zero => exact Yields.pure ⟨sequence.pages, carries, length_eq, Leaves.refl id t⟩
  | succ requested ih =>
    have less : pageCount (c + r + 1) ≤ pageCount (c + (r + (requested + 1))) := by
      grind
    unfold reserveTentative
    refine Yields.bind (openTail_spec carries length_eq fun has => (spare has).mono less) ?_
    rintro t₁ ⟨pages, carries₁, length₁, leaves₁, kept₁⟩
    rw [carries₁.found]
    refine Yields.bind_ok rfl ?_
    have last : pages[(c + r) / pageTokens]? = some (pages[(c + r) / pageTokens]) :=
      List.getElem?_eq_getElem (by omega)
    rw [List.getLast?_eq_getElem?, length₁, Nat.add_sub_cancel, last]
    refine Yields.bind_ok rfl ?_
    obtain ⟨page, found, fits⟩ := carries₁.page last
    refine updatePage_bind found ?_
    refine (reserveToken_spec fits).mono ?_ fun _ failure => failure
    rintro page' rfl
    have next := carries₁.reserve length₁ last found
    have sum : r + 1 + requested = r + (requested + 1) := by omega
    refine (ih next.1 ?_ fun has => sum ▸ (spare has).of_leaves kept₁ (leaves₁.trans next.2)).mono ?_
      fun _ failure => failure
    · simp only [length₁]
      grind
    · rintro t₂ ⟨pages₂, carries₂, length₂, leaves₂⟩
      rw [sum] at carries₂ length₂
      exact ⟨pages₂, carries₂, length₂, (leaves₁.trans next.2).trans leaves₂⟩

theorem tail_tokens (carries : Carries t id sequence c 0) (length_eq : sequence.pages.length = pageCount c) :
    ((sequence.pages.getLast?.bind fun page => t.physical[page.physical]?).map
      (·.validTokens)).getD 0 = tailTokens c := by
  cases last : sequence.pages.getLast? with
  | none =>
    have empty : sequence.pages = [] := List.getLast?_eq_none_iff.mp last
    rw [empty] at length_eq
    simp only [Option.bind_none, Option.map_none, Option.getD_none, tailTokens]
    grind
  | some entry =>
    rw [List.getLast?_eq_getElem?] at last
    obtain ⟨page, found, fits⟩ := carries.page last
    have bound := (List.getElem?_eq_some_iff.mp last).1
    have valid := fits.valid
    simp only [Option.bind_some, found, Option.map_some, Option.getD_some, tailTokens]
    grind

theorem beginTentative_leads (valid : Valid t) (id requested : Nat)
    (affords : room → Affords t (.beginTentative id requested)) :
    Served t (t.beginTentative id requested) ∧
      Leads (Refusal room) (loadsAfter t (.beginTentative id requested)) (t.beginTentative id requested) := by
  unfold SequencePageTable.beginTentative
  split
  next bound => exact Leads.reject valid (requireUnbound_error bound ▸ trivial)
  split
  · exact Leads.reject valid trivial
  next positive =>
  refine transact_leads valid (Yields.bind (Yields.okOr (fun _ found => found) trivial) ?_)
  intro sequence found
  dsimp only
  split
  · exact Yields.throw trivial
  next allowed =>
  obtain ⟨idle, within⟩ := not_or.mp allowed
  have idle : sequence.tentative = none := by simpa using idle
  have limit : sequence.committedTokens + requested ≤ maximumContextTokens := by
    unfold checkedAdd at within
    split at within <;> simp at within
    exact within
  have shape := valid.shape id sequence found
  have carries := valid.carries found
  have length_eq := shape.length_eq
  rw [reserved_none idle] at carries length_eq
  rw [tail_tokens carries length_eq]
  have writes : written t (.beginTentative id requested) =
      some (id, ⟨sequence.mtp, sequence.committedTokens, requested⟩) := by
    simp [written, found]
  refine Yields.bind (reserveTentative_spec requested carries length_eq fun has => ?_) ?_
  · rw [Nat.zero_add]
    exact affords has id _ writes
  rintro t₁ ⟨pages, carries₁, length₁, leaves₁⟩
  rw [updateSequence_ok carries₁.found, loadsAfter, writes]
  rw [Nat.zero_add] at carries₁ length₁
  refine ⟨carries₁.settle valid leaves₁ ⟨rfl, rfl⟩ rfl rfl length₁ limit ?_, loads_setSequence leaves₁ _⟩
  rintro transaction ⟨⟩
  have allowed := not_or.mp positive
  exact ⟨rfl, length_eq, rfl, Nat.pos_of_ne_zero allowed.1, Nat.not_lt.mp allowed.2⟩

theorem Released.elsewhere {p q : PhysicalPageId} (released : Released t p t') (apart : p ≠ q) :
    t'.physical[q]? = t.physical[q]? := by
  obtain ⟨page, found, ⟨_, physical⟩ | ⟨_, physical⟩⟩ := released.page
  all_goals
    rw [physical]
    grind

theorem Fits.single (fits : Fits mtp c r i page) : page.state = .hbmSealed ∨ page.references = 1 := by
  by_cases full : pageTokens * (i + 1) ≤ c
  · exact .inl (fits.closed full)
  · exact .inr (fits.tail (by omega)).1

theorem popPages_spec (count : Nat)
    (carries : Carries t id sequence c r) (enough : count ≤ sequence.pages.length) :
    Yields (popPages id count t)
      (fun t' => Carries t' id
        { sequence with pages := sequence.pages.take (sequence.pages.length - count) } c r ∧
        Leaves id t t') External := by
  induction count generalizing t sequence with
  | zero =>
    refine Yields.pure ⟨?_, Leaves.refl id t⟩
    simpa using carries
  | succ count ih =>
    unfold popPages
    rw [carries.found]
    refine Yields.bind_ok rfl ?_
    obtain ⟨entry, last⟩ : ∃ entry, sequence.pages.getLast? = some entry := by
      cases empty : sequence.pages.getLast? with
      | none => simp [List.getLast?_eq_none_iff.mp empty] at enough
      | some entry => exact ⟨entry, rfl⟩
    have split := List.dropLast_append_getLast? entry last
    rw [last]
    refine Yields.bind_ok rfl ?_
    dsimp only
    have holding := carries.holding.insertOld { sequence with pages := sequence.pages.dropLast } [entry]
      carries.found (by simp [split])
    refine Yields.bind (releasePage_spec holding) ?_
    rintro t₂ ⟨holding₂, released⟩
    have get : sequence.pages[sequence.pages.length - 1]? = some entry := by
      rw [← List.getLast?_eq_getElem?, last]
    have leaves : Leaves id t t₂ := by
      refine (Leaves.setSequence _).trans (released.leaves id holding ?_)
      intro page found
      obtain ⟨page', found', fits⟩ := carries.page get
      obtain rfl : page' = page := by simpa [found'] using found
      exact fits.single
    have popped : Carries t₂ id { sequence with pages := sequence.pages.dropLast } c r := by
      refine ⟨holding₂, by simp [released.sequences_eq], ?_⟩
      intro j other getJ
      have before : j < sequence.pages.length - 1 := by
        simpa using (List.getElem?_eq_some_iff.mp getJ).1
      have original : sequence.pages[j]? = some other := by
        rw [← getJ, List.getElem?_dropLast, if_pos before]
      have apart : entry.physical ≠ other.physical := by
        intro same
        have := carries.holding.distinct carries.found carries.entries get original same
        omega
      obtain ⟨ordinal, rank, page, found, fits⟩ := carries.entries j other original
      exact ⟨ordinal, rank, page, by rw [released.elsewhere apart]; exact found, fits⟩
    refine (ih popped (by simp; omega)).mono ?_ fun _ failure => failure
    rintro t₃ ⟨carries₃, leaves₃⟩
    refine ⟨?_, leaves.trans leaves₃⟩
    have shorter : sequence.pages.dropLast.take (sequence.pages.dropLast.length - count) =
        sequence.pages.take (sequence.pages.length - (count + 1)) := by
      rw [List.dropLast_eq_take, List.take_take, List.length_take]
      congr 1
      omega
    simpa only [shorter] using carries₃

theorem Carries.setSequence (carries : Carries t id sequence c r) (sequence' : Cache.Sequence)
    (same : sequence'.pages = sequence.pages ∧ sequence'.mtp = sequence.mtp) :
    Carries { t with sequences := t.sequences.insert id sequence' } id sequence' c r := by
  refine ⟨carries.holding.insertOld _ _ carries.found (by simp [same.1]), by simp, ?_⟩
  rw [same.1, same.2]
  exact carries.entries.of_physical rfl

theorem Fits.full {r' : Nat} (fits : Fits mtp c r i page)
    (full : pageTokens * (i + 1) ≤ c) (full' : pageTokens * (i + 1) ≤ c') : Fits mtp c' r' i page where
  valid := by
    have := fits.valid
    grind
  closed _ := fits.closed full
  tail short := absurd short (by omega)
  draft := fits.draft

theorem rollbackTail_spec (transaction : TentativeTail)
    (carries : Carries t id sequence c r) (length_eq : sequence.pages.length = pageCount c)
    (count : transaction.originalPageCount = pageCount c)
    (tokens : transaction.originalTailTokens = tailTokens c) (pending : 0 < r) :
    Yields (t.rollbackTail id transaction)
      (fun t' => Carries t' id sequence c 0 ∧ Leaves id t t') External := by
  unfold SequencePageTable.rollbackTail
  rw [count, tokens]
  split
  next nonempty =>
    rw [carries.found]
    refine Yields.bind_ok rfl ?_
    obtain ⟨entry, last⟩ : ∃ entry, sequence.pages[sequence.pages.length - 1]? = some entry :=
      ⟨_, List.getElem?_eq_getElem (by omega)⟩
    rw [List.getLast?_eq_getElem?, last]
    refine Yields.bind_ok rfl ?_
    obtain ⟨page, found, fits⟩ := carries.page last
    have valid := fits.valid
    have before : ∀ j page, j ≠ sequence.pages.length - 1 → j < sequence.pages.length →
        Fits sequence.mtp c r j page → Fits sequence.mtp c 0 j page := by
      intro j page other bound fits
      refine fits.full ?_ ?_ <;>
      · simp only [pageTokens, pageCount] at *
        omega
    refine updatePage_spec found ?_
    unfold rollbackPage
    by_cases full : pageTokens * (sequence.pages.length - 1 + 1) ≤ c
    · have sealed := fits.closed full
      have complete : page.validTokens = pageTokens := by
        grind
      rw [if_neg (by simp [sealed]), if_neg (by simp [sealed, complete])]
      refine Yields.pure ?_
      rw [insert_of_getElem? found]
      refine ⟨⟨carries.holding, carries.found, ?_⟩, Leaves.refl id t⟩
      intro j entry get
      obtain ⟨ordinal, rank, page, found, fits⟩ := carries.entries j entry get
      have bound := (List.getElem?_eq_some_iff.mp get).1
      refine ⟨ordinal, rank, page, found, fits.full ?_ ?_⟩ <;>
      · grind
    · obtain ⟨single, state⟩ := fits.tail (by omega)
      have reservedHere : ¬(r = 0 ∨ c + r ≤ pageTokens * (sequence.pages.length - 1)) := by
        grind
      rw [if_neg reservedHere] at state
      have transition : PageState.hbmTentative.transition .hbmMutable = .ok .hbmMutable := rfl
      simp only [state, if_true, transition, Except.mapError]
      refine Yields.bind_ok rfl (Yields.pure ?_)
      refine carries.setOwn _ _ _ last found (by simp [state]) single single rfl rfl ?_ before
      refine ⟨?_, fun complete => absurd complete full, fun _ => ⟨single, by simp⟩, fits.draft⟩
      rw [tailTokens, ← length_eq]
      grind
  next empty =>
    refine Yields.pure ⟨⟨carries.holding, carries.found, ?_⟩, Leaves.refl id t⟩
    intro j entry get
    have bound := (List.getElem?_eq_some_iff.mp get).1
    omega

theorem rollbackTentativeInner_spec (valid : Valid t) (id : Nat) :
    Yields (t.rollbackTentativeInner id) (fun t' => Valid t' ∧ Moves t t') External := by
  unfold SequencePageTable.rollbackTentativeInner
  refine Yields.bind (Yields.okOr (fun _ found => found) trivial) ?_
  intro sequence found
  refine Yields.bind (Yields.okOr (fun _ pending => pending) trivial) ?_
  intro transaction pending
  have shape := valid.shape id sequence found
  have length_eq := shape.length_eq
  have bound := shape.bound
  have carries := valid.carries found
  have reserves : reserved sequence = transaction.reservedTokens := by simp [reserved, pending]
  obtain ⟨committed, count, tokens, positive, _⟩ := shape.tentative transaction pending
  rw [reserves] at carries length_eq bound
  have shorter : transaction.originalPageCount ≤ sequence.pages.length := by
    rw [count, length_eq]
    grind
  dsimp only
  rw [checkedSub_of_le shorter]
  refine Yields.bind_ok rfl ?_
  have idle := carries.setSequence { sequence with tentative := none } ⟨rfl, rfl⟩
  refine Yields.bind (popPages_spec _ idle (Nat.sub_le _ _)) ?_
  rintro t₁ ⟨carries₁, leaves₁⟩
  have remaining : (sequence.pages.take (sequence.pages.length -
      (sequence.pages.length - transaction.originalPageCount))).length =
      pageCount sequence.committedTokens := by
    rw [List.length_take]
    omega
  refine Yields.bind (rollbackTail_spec transaction carries₁ remaining count tokens positive) ?_
  rintro t₂ ⟨carries₂, leaves₂⟩
  rw [updateSequence_ok carries₂.found]
  have leaves := ((Leaves.setSequence _).trans leaves₁).trans leaves₂
  exact carries₂.settle valid leaves ⟨rfl, rfl⟩ committed (reserved_none rfl) remaining (by omega)
    (fun _ none => by cases none)

theorem rollbackTentative_served (valid : Valid t) (id : Nat) : Served t (t.rollbackTentative id) := by
  unfold SequencePageTable.rollbackTentative
  split
  next bound => exact Served.reject valid (requireUnbound_error bound ▸ trivial)
  next => exact transact_served valid (rollbackTentativeInner_spec valid id)

def settledTokens (c c' k : Nat) : Nat := if k < pageCount c' then max c (pageTokens * k) else c'

def pendingTokens (c r c' k : Nat) : Nat :=
  if k < pageCount c' then c + r - max c (pageTokens * k) else 0

theorem expectedTokens_spec {k : Nat} (bound : k < pageCount c') : Yields (expectedTokens c' (pageCount c') k)
      (fun expected => expected = min pageTokens (c' - pageTokens * k)) External := by
  unfold expectedTokens
  dsimp only
  split
  · split
    · refine Yields.pure ?_
      grind
    · refine Yields.okOr (fun _ narrowed => ?_) trivial
      rw [narrow_some narrowed]
      grind
  · refine Yields.pure ?_
    grind

theorem settlePage_tentative (state : page.state = .hbmTentative) (expected : Nat) :
    settlePage expected page = .ok { page with
      state := if expected = pageTokens then .hbmSealed else .hbmMutable
      validTokens := expected } := by
  unfold settlePage
  simp only [state, if_true]
  split <;> rfl

theorem settlePages_spec (count k : Nat)
    (carries : Carries t id sequence (settledTokens c c' k) (pendingTokens c r c' k))
    (length_eq : sequence.pages.length = pageCount c') (split : k + count = pageCount c')
    (lower : c < c') (upper : c' ≤ c + r) :
    Yields (settlePages id c' (pageCount c') count k t)
      (fun t' => Carries t' id sequence c' 0 ∧ Leaves id t t') External := by
  induction count generalizing t k with
  | zero =>
    have done : ¬k < pageCount c' := by omega
    simp only [settledTokens, pendingTokens, done, if_false] at carries
    exact Yields.pure ⟨carries, Leaves.refl id t⟩
  | succ count ih =>
    have bound : k < pageCount c' := by omega
    unfold settlePages
    rw [carries.found]
    refine Yields.bind_ok rfl ?_
    obtain ⟨entry, get⟩ : ∃ entry, sequence.pages[k]? = some entry :=
      ⟨_, List.getElem?_eq_getElem (by omega)⟩
    rw [get]
    refine Yields.bind_ok rfl ?_
    refine Yields.bind (expectedTokens_spec bound) ?_
    rintro expected rfl
    obtain ⟨page, found, fits⟩ := carries.page get
    refine updatePage_bind found ?_
    suffices step : Yields (settlePage (min pageTokens (c' - pageTokens * k)) page)
        (fun page' => Carries { t with physical := t.physical.insert entry.physical page' } id sequence
            (settledTokens c c' (k + 1)) (pendingTokens c r c' (k + 1)) ∧
          Leaves id t { t with physical := t.physical.insert entry.physical page' }) External by
      refine step.mono ?_ fun _ failure => failure
      rintro page' ⟨carries', leaves'⟩
      refine (ih (k + 1) carries' (by omega)).mono ?_ fun _ failure => failure
      rintro t₂ ⟨carries₂, leaves₂⟩
      exact ⟨carries₂, leaves'.trans leaves₂⟩
    have valid := fits.valid
    by_cases full : pageTokens * (k + 1) ≤ c
    · -- a page committed before the transaction is left as it is
      have more : k + 1 < pageCount c' := by
        grind
      have settled : settledTokens c c' (k + 1) = settledTokens c c' k := by
        simp only [settledTokens, bound, more, if_true]
        grind
      have pending : pendingTokens c r c' (k + 1) = pendingTokens c r c' k := by
        simp only [pendingTokens, bound, more, if_true]
        grind
      have sealed := fits.closed (by
        simp only [settledTokens, bound, if_true]
        omega)
      have expected : min pageTokens (c' - pageTokens * k) = pageTokens := by
        grind
      have complete : page.validTokens = pageTokens := by
        simp only [settledTokens, pendingTokens, bound, if_true] at valid
        grind
      unfold settlePage
      simp only [expected, sealed, complete, if_true, reduceCtorEq, if_false, ne_eq, not_true_eq_false,
        or_self]
      refine Yields.pure ?_
      rw [insert_of_getElem? found, settled, pending]
      exact ⟨carries, Leaves.refl id t⟩
    · obtain ⟨single, state⟩ := fits.tail (by
        simp only [settledTokens, bound, if_true]
        grind)
      rw [if_neg (by
        simp only [settledTokens, pendingTokens, bound, if_true]
        grind)] at state
      rw [settlePage_tentative state]
      refine carries.setOwn _ _ _ get found (by simp [state]) single single rfl rfl ?_ ?_
      · by_cases more : k + 1 < pageCount c'
        · simp only [settledTokens, pendingTokens, more, if_true]
          have expected : min pageTokens (c' - pageTokens * k) = pageTokens := by
            grind
          refine ⟨?_, fun _ => if_pos expected, ?_, fits.draft⟩
          · grind
          · intro short
            omega
        · simp only [settledTokens, pendingTokens, more, if_false]
          refine ⟨rfl, fun complete => if_pos ?_, fun short => ⟨single, ?_⟩, fits.draft⟩
          · grind
          · simp only [true_or, if_true]
            refine if_neg ?_
            grind
      · intro j other different inside fits
        simp only [settledTokens, pendingTokens, bound, if_true] at fits
        by_cases earlier : j < k
        · refine fits.full ?_ ?_
          · grind
          · unfold settledTokens
            split <;>
            · grind
        · have more : k + 1 < pageCount c' := by omega
          have valid := fits.valid
          simp only [settledTokens, pendingTokens, more, if_true]
          refine ⟨?_, fun complete => fits.closed ?_, fun short => ?_, fits.draft⟩
          · grind
          · grind
          · obtain ⟨single, state⟩ := fits.tail (by grind)
            refine ⟨single, ?_⟩
            rw [state, if_neg, if_neg] <;>
            · grind

theorem settleAll_spec (carries : Carries t id sequence c r)
    (length_eq : sequence.pages.length = pageCount c') (lower : c < c') (upper : c' ≤ c + r) :
    Yields (settlePages id c' (pageCount c') (pageCount c') 0 t)
      (fun t' => Carries t' id sequence c' 0 ∧ Leaves id t t') External := by
  have nonempty : 0 < pageCount c' := by
    grind
  refine settlePages_spec _ 0 ?_ length_eq (Nat.zero_add _) lower upper
  simpa [settledTokens, pendingTokens, nonempty] using carries

theorem commitTentativeInner_spec {transaction : TentativeTail}
    (valid : Valid t) (found : t.sequences[id]? = some sequence)
    (pending : sequence.tentative = some transaction) {committed : Nat} (positive : 0 < committed)
    (within : committed ≤ transaction.reservedTokens) :
    Yields (t.commitTentativeInner id committed transaction)
      (fun t' => Valid t' ∧ Moves t t') External := by
  have shape := valid.shape id sequence found
  have length_eq := shape.length_eq
  have carries := valid.carries found
  have reserves : reserved sequence = transaction.reservedTokens := by simp [reserved, pending]
  obtain ⟨original, count, tokens, _⟩ := shape.tentative transaction pending
  rw [reserves] at carries length_eq
  unfold SequencePageTable.commitTentativeInner
  refine Yields.bind (Yields.okOr (fun _ kept => filter_some kept) trivial) ?_
  rintro total ⟨rfl, bound⟩
  rw [original] at bound ⊢
  have fewer : pageCount (sequence.committedTokens + committed) ≤ sequence.pages.length := by
    rw [length_eq]
    grind
  dsimp only
  rw [found]
  refine Yields.bind_ok rfl ?_
  rw [pending]
  refine Yields.bind_ok rfl ?_
  rw [if_neg (by simp [fewer])]
  have idle := carries.setSequence { sequence with tentative := none } ⟨rfl, rfl⟩
  refine Yields.bind (popPages_spec _ idle (Nat.sub_le _ _)) ?_
  rintro t₁ ⟨carries₁, leaves₁⟩
  have remaining : (sequence.pages.take (sequence.pages.length - (sequence.pages.length -
      pageCount (sequence.committedTokens + committed)))).length =
      pageCount (sequence.committedTokens + committed) := by
    rw [List.length_take]
    omega
  refine Yields.bind (settleAll_spec carries₁ remaining (by omega) (by omega)) ?_
  rintro t₂ ⟨carries₂, leaves₂⟩
  rw [updateSequence_ok carries₂.found]
  have leaves := ((Leaves.setSequence _).trans leaves₁).trans leaves₂
  exact carries₂.settle valid leaves ⟨rfl, rfl⟩ rfl (reserved_none rfl) remaining bound
    (fun _ none => by cases none)

theorem commitTentative_served (valid : Valid t) (id committed : Nat) :
    Served t (t.commitTentative id committed) := by
  unfold SequencePageTable.commitTentative
  split
  next bound => exact Served.reject valid (requireUnbound_error bound ▸ trivial)
  split
  · exact Served.reject valid trivial
  next transaction pending =>
  obtain ⟨sequence, found, pending⟩ := Option.bind_eq_some_iff.mp pending
  split
  · exact Served.reject valid trivial
  next allowed =>
  exact transact_served valid
    (commitTentativeInner_spec valid found pending (by omega) (by omega))

end Glmaxx.Proof.Sequence
