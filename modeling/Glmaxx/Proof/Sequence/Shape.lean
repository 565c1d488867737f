import Glmaxx.Proof.Sequence.Pages

namespace Glmaxx.Proof.Sequence
open Std Library Cache Cache.SequencePageTable

variable {entry : SequencePage} {page : PhysicalPage} {mtp : Bool} {c r i : Nat} {failure : SequencePageError}

attribute [grind =] pageTokens pageCount

/-- Page `i` of a sequence with `c` committed and `r` reserved tokens. -/
structure Fits (mtp : Bool) (c r i : Nat) (page : PhysicalPage) : Prop where
  valid : page.validTokens = min pageTokens (c + r - pageTokens * i)
  closed : pageTokens * (i + 1) ≤ c → page.state = .hbmSealed
  tail : c < pageTokens * (i + 1) →
    page.references = 1 ∧
      page.state = if r = 0 ∨ c + r ≤ pageTokens * i then .hbmMutable else .hbmTentative
  draft : mtp → page.draftLocalPageId.isSome

structure EntryFits (t : SequencePageTable) (mtp : Bool) (c r i : Nat) (entry : SequencePage) : Prop where
  ordinal_eq : entry.ordinal = i
  rank_eq : entry.physical.ownerRank = ownerRank i
  page : ∃ page, t.physical[entry.physical]? = some page ∧ Fits mtp c r i page

def Entries (t : SequencePageTable) (mtp : Bool) (c r : Nat) (pages : List SequencePage) : Prop :=
  ∀ (i : Nat) (entry : SequencePage), pages[i]? = some entry → EntryFits t mtp c r i entry

def reserved (sequence : Cache.Sequence) : Nat := (sequence.tentative.map (·.reservedTokens)).getD 0

def tailTokens (c : Nat) : Nat := c - pageTokens * (pageCount c - 1)

structure SequenceShape (t : SequencePageTable) (sequence : Cache.Sequence) : Prop where
  bound : sequence.committedTokens + reserved sequence ≤ maximumContextTokens
  length_eq : sequence.pages.length = pageCount (sequence.committedTokens + reserved sequence)
  entries : Entries t sequence.mtp sequence.committedTokens (reserved sequence) sequence.pages
  tentative : ∀ transaction, sequence.tentative = some transaction →
    transaction.originalCommittedTokens = sequence.committedTokens ∧
    transaction.originalPageCount = pageCount sequence.committedTokens ∧
    transaction.originalTailTokens = tailTokens sequence.committedTokens ∧
    0 < transaction.reservedTokens ∧ transaction.reservedTokens ≤ 7

structure Valid (t : SequencePageTable) : Prop where
  holding : Holding t []
  shape : ∀ (id : Nat) (sequence : Cache.Sequence), t.sequences[id]? = some sequence →
    SequenceShape t sequence

/-- A step on behalf of sequence `id` leaves the other sequences and their pages alone. -/
structure Leaves (id : Nat) (t t' : SequencePageTable) : Prop where
  moves : Moves t t'
  sequences_eq : ∀ j, j ≠ id → t'.sequences[j]? = t.sequences[j]?
  keeps : ∀ (j : Nat) (sequence : Cache.Sequence) (entry : SequencePage) (page : PhysicalPage), j ≠ id →
    t.sequences[j]? = some sequence → entry ∈ sequence.pages → t.physical[entry.physical]? = some page →
    ∃ page', t'.physical[entry.physical]? = some page' ∧ Keeps page page'

variable {t t' : SequencePageTable} {held : List SequencePage} {id : Nat}

theorem Leaves.refl (id : Nat) (t : SequencePageTable) : Leaves id t t :=
  ⟨Moves.refl t, fun _ _ => rfl, fun _ _ _ page _ _ _ found => ⟨page, found, Keeps.refl page⟩⟩

theorem Leaves.trans {a b c : SequencePageTable} (ab : Leaves id a b) (bc : Leaves id b c) : Leaves id a c where
  moves := ab.moves.trans bc.moves
  sequences_eq j other := (bc.sequences_eq j other).trans (ab.sequences_eq j other)
  keeps j sequence entry page other live member found := by
    obtain ⟨page', found', keeps⟩ := ab.keeps j sequence entry page other live member found
    have live' : b.sequences[j]? = some sequence := by rw [ab.sequences_eq j other, live]
    obtain ⟨page'', found'', keeps'⟩ := bc.keeps j sequence entry page' other live' member found'
    exact ⟨page'', found'', keeps.trans keeps'⟩

theorem Gained.leaves (gained : Gained t entry page t') : Leaves id t t' where
  moves := gained.moves
  sequences_eq j _ := by rw [gained.sequences_eq]
  keeps _ _ entry page _ _ _ found := gained.keeps entry.physical page found

theorem Holding.unnamed {other : SequencePage}
    (holding : Holding t (entry :: held)) (found : t.physical[entry.physical]? = some page)
    (last : page.references = 1) (named : Named t other) : entry.physical ≠ other.physical := by
  intro same
  have counted := (holding.pool.counted _ _ found).1
  have positive := referenceCount_pos named
  rw [← same] at positive
  simp only [names, nameCount_cons, if_true] at counted
  omega

theorem Released.leaves (id : Nat) (holding : Holding t (entry :: held)) (released : Released t entry.physical t')
    (single : ∀ page, t.physical[entry.physical]? = some page →
      page.state = .hbmSealed ∨ page.references = 1) : Leaves id t t' where
  moves := released.moves
  sequences_eq j _ := by rw [released.sequences_eq]
  keeps j sequence other page _ live member found := by
    obtain ⟨first, foundFirst, ⟨many, physical⟩ | ⟨last, physical⟩⟩ := released.page
    · have sealed := (single first foundFirst).resolve_right (by omega)
      have keeps : Keeps first { first with references := first.references - 1 } :=
        ⟨rfl, rfl, fun unsealed => absurd sealed unsealed, fun drafted => drafted⟩
      exact KeepsPages.insert foundFirst keeps physical other.physical page found
    · have different := holding.unnamed foundFirst last ⟨j, sequence, live, member⟩
      exact ⟨page, by grind, Keeps.refl page⟩

theorem Leaves.setSequence (sequence : Cache.Sequence) :
    Leaves id t { t with sequences := t.sequences.insert id sequence } where
  moves := ⟨rfl, rfl, fun _ => subset_rfl, fun _ => subset_rfl, fun _ used => .inl used,
    fun _ _ held => .inl held⟩
  sequences_eq j other := by grind
  keeps _ _ _ page _ _ _ found := ⟨page, found, Keeps.refl page⟩

theorem Leaves.eraseSequence : Leaves id t { t with sequences := t.sequences.erase id } where
  moves := ⟨rfl, rfl, fun _ => subset_rfl, fun _ => subset_rfl, fun _ used => .inl used,
    fun _ _ held => .inl held⟩
  sequences_eq j other := by grind
  keeps _ _ _ page _ _ _ found := ⟨page, found, Keeps.refl page⟩

theorem Fits.keeps {page' : PhysicalPage} (fits : Fits mtp c r i page)
    (keeps : Keeps page page') : Fits mtp c r i page' where
  valid := keeps.valid_eq.trans fits.valid
  closed full := keeps.state_eq.trans (fits.closed full)
  tail partialPage := by
    obtain ⟨references, state⟩ := fits.tail partialPage
    have unsealed : page.state ≠ .hbmSealed := by
      rw [state]
      split <;> decide
    exact ⟨(keeps.references_eq unsealed).trans references, keeps.state_eq.trans state⟩
  draft mtp := keeps.draft (fits.draft mtp)

theorem EntryFits.keeps (fits : EntryFits t mtp c r i entry)
    (keeps : ∀ page, t.physical[entry.physical]? = some page →
      ∃ page', t'.physical[entry.physical]? = some page' ∧ Keeps page page') :
    EntryFits t' mtp c r i entry := by
  obtain ⟨ordinal, rank, page, found, fits⟩ := fits
  obtain ⟨page', found', keeps⟩ := keeps page found
  exact ⟨ordinal, rank, page', found', fits.keeps keeps⟩

theorem Entries.keeps {pages : List SequencePage}
    (entries : Entries t mtp c r pages) (keeps : KeepsPages t t') : Entries t' mtp c r pages :=
  fun i entry get => (entries i entry get).keeps (keeps entry.physical)

theorem SequenceShape.keeps {sequence : Cache.Sequence} (shape : SequenceShape t sequence)
    (keeps : ∀ entry ∈ sequence.pages, ∀ page, t.physical[entry.physical]? = some page →
      ∃ page', t'.physical[entry.physical]? = some page' ∧ Keeps page page') :
    SequenceShape t' sequence :=
  { shape with entries := fun i entry get => (shape.entries i entry get).keeps (keeps entry (List.mem_of_getElem? get)) }

theorem Valid.of_leaves (valid : Valid t) (leaves : Leaves id t t') (holding : Holding t' [])
    (own : ∀ sequence, t'.sequences[id]? = some sequence → SequenceShape t' sequence) : Valid t' := by
  refine ⟨holding, ?_⟩
  intro j sequence live
  by_cases same : j = id
  · exact own sequence (same ▸ live)
  · rw [leaves.sequences_eq j same] at live
    exact (valid.shape j sequence live).keeps fun entry member page found =>
      leaves.keeps j sequence entry page same live member found

/-- What every operation but the quarantine ones does, called on a valid table. -/
structure Served (t : SequencePageTable) (served : Except SequencePageError Unit × SequencePageTable) :
    Prop where
  valid : Valid served.2
  moves : Moves t served.2
  failure : ∀ failure, served.1 = .error failure → External failure ∧ served.2 = t

theorem Served.reject (valid : Valid t) (external : External failure) : Served t (.error failure, t) :=
  ⟨valid, Moves.refl t, fun _ same => ⟨by cases same; exact external, rfl⟩⟩

theorem transact_served {body : SequencePageTable → Except SequencePageError SequencePageTable}
    (valid : Valid t) (h : Yields (body t) (fun t' => Valid t' ∧ Moves t t') External) :
    Served t (transact t body) := by
  unfold transact
  cases outcome : body t with
  | ok next =>
    obtain ⟨valid', moves⟩ := h.value outcome
    exact ⟨valid', moves, fun _ same => by cases same⟩
  | error failure => exact Served.reject valid (h.failure outcome)

theorem requireUnbound_error (bound : t.requireUnboundQuarantine = .error failure) : failure = .transaction := by
  unfold SequencePageTable.requireUnboundQuarantine at bound
  split at bound
  · cases bound
    rfl
  · cases bound

end Glmaxx.Proof.Sequence
