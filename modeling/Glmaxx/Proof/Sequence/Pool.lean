import Glmaxx.Cache.Sequence

/-!
# The page pool

The arenas, the physical pages and the prefix map, apart from the sequences that name the pages.
`Pool t names` says that they fit together when page `p` is named `names p` times. Each primitive of
the table moves `names` by one page, so that an operation may hold pages that no sequence names yet.
-/

namespace Glmaxx.Proof.Sequence
open Std Library Cache

variable {id draft : Nat} {page' : PhysicalPage} {rank : Fin 4}

def External : SequencePageError → Prop
  | .sequence | .prefixPage | .missingDraft | .capacity | .transaction | .overflow => True
  | .config | .state | .invariant | .transition _ | .tier _ => False

def holdsDraft (t : SequencePageTable) (rank : Fin 4) (draft : Nat) : Prop :=
  ∃ (p : PhysicalPageId) (page : PhysicalPage), t.physical[p]? = some page ∧ p.ownerRank = rank ∧
    page.draftLocalPageId = some draft

def prefixKey (page : PhysicalPage) : Option PrefixPageKey := page.prefixPage.map (·.1.key)

structure Pool (t : SequencePageTable) (names : PhysicalPageId → Nat) : Prop where
  target_bound : ∀ p : PhysicalPageId, p.targetLocalPageId < t.config.targetPagesPerRank ↔
    p.targetLocalPageId ∈ t.freeTarget p.ownerRank ∨
      p.targetLocalPageId ∈ t.quarantinedTarget p.ownerRank ∨ p ∈ t.physical
  target_free : ∀ rank id, id ∈ t.freeTarget rank → id ∉ t.quarantinedTarget rank
  target_used : ∀ p ∈ t.physical, p.targetLocalPageId ∉ t.freeTarget p.ownerRank ∧
    p.targetLocalPageId ∉ t.quarantinedTarget p.ownerRank
  draft_bound : ∀ rank draft, draft < t.config.draftPagesPerRank ↔
    draft ∈ t.freeDraft rank ∨ draft ∈ t.quarantinedDraft rank ∨ holdsDraft t rank draft
  draft_free : ∀ rank draft, draft ∈ t.freeDraft rank → draft ∉ t.quarantinedDraft rank
  draft_used : ∀ rank draft, holdsDraft t rank draft →
    draft ∉ t.freeDraft rank ∧ draft ∉ t.quarantinedDraft rank
  draft_unique : ∀ (p q : PhysicalPageId) (page page' : PhysicalPage) (draft : Nat),
    t.physical[p]? = some page → t.physical[q]? = some page' →
    p.ownerRank = q.ownerRank → page.draftLocalPageId = some draft →
    page'.draftLocalPageId = some draft → p = q
  counted : ∀ (p : PhysicalPageId) (page : PhysicalPage), t.physical[p]? = some page →
    page.references = names p ∧ 0 < names p
  absent : ∀ p : PhysicalPageId, t.physical[p]? = none → names p = 0
  prefix_iff : ∀ (key : PrefixPageKey) (p : PhysicalPageId), t.prefixes[key]? = some p ↔
    ∃ page : PhysicalPage, t.physical[p]? = some page ∧ prefixKey page = some key
  prefix_sealed : ∀ (p : PhysicalPageId) (page : PhysicalPage), t.physical[p]? = some page →
    page.prefixPage.isSome → page.state = .hbmSealed ∧ page.validTokens = pageTokens

/-- How ids move while the reuse quarantine stays unacknowledged: nothing enters the free sets, and
what comes into use was free. -/
structure Moves (t t' : SequencePageTable) : Prop where
  config_eq : t'.config = t.config
  generation_eq : t'.quarantineGeneration = t.quarantineGeneration
  freeTarget_subset : ∀ rank, t'.freeTarget rank ⊆ t.freeTarget rank
  freeDraft_subset : ∀ rank, t'.freeDraft rank ⊆ t.freeDraft rank
  target_source : ∀ p ∈ t'.physical, p ∈ t.physical ∨ p.targetLocalPageId ∈ t.freeTarget p.ownerRank
  draft_source : ∀ rank draft, holdsDraft t' rank draft →
    holdsDraft t rank draft ∨ draft ∈ t.freeDraft rank

theorem Moves.refl (t : SequencePageTable) : Moves t t :=
  ⟨rfl, rfl, fun _ => subset_rfl, fun _ => subset_rfl, fun _ used => .inl used,
    fun _ _ held => .inl held⟩

theorem Moves.trans {a b c : SequencePageTable} (ab : Moves a b) (bc : Moves b c) : Moves a c where
  config_eq := bc.config_eq.trans ab.config_eq
  generation_eq := bc.generation_eq.trans ab.generation_eq
  freeTarget_subset rank := (bc.freeTarget_subset rank).trans (ab.freeTarget_subset rank)
  freeDraft_subset rank := (bc.freeDraft_subset rank).trans (ab.freeDraft_subset rank)
  target_source p used := by
    rcases bc.target_source p used with used | free
    · exact ab.target_source p used
    · exact .inr (ab.freeTarget_subset _ free)
  draft_source rank draft held := by
    rcases bc.draft_source rank draft held with held | free
    · exact ab.draft_source rank draft held
    · exact .inr (ab.freeDraft_subset _ free)

theorem popFirst_some {ids rest : Finset Nat} (h : popFirst ids = some (id, rest)) :
    id ∈ ids ∧ rest = ids.erase id := by
  unfold popFirst at h
  split at h
  · cases h
    exact ⟨Finset.min'_mem _ _, rfl⟩
  · cases h

def bump (names : PhysicalPageId → Nat) (p : PhysicalPageId) : PhysicalPageId → Nat :=
  Function.update names p (names p + 1)

def unbump (names : PhysicalPageId → Nat) (p : PhysicalPageId) : PhysicalPageId → Nat :=
  Function.update names p (names p - 1)

variable {t : SequencePageTable} {names : PhysicalPageId → Nat}

section Primitives
variable {p : PhysicalPageId} {page : PhysicalPage}

section
variable (pool : Pool t names) (free : p.targetLocalPageId ∈ t.freeTarget p.ownerRank)
include pool free

theorem Pool.unused : t.physical[p]? = none := by
  by_contra used
  exact (pool.target_used p (by grind)).1 free

theorem Pool.takeTarget : Pool { t with
      freeTarget := Function.update t.freeTarget p.ownerRank
        ((t.freeTarget p.ownerRank).erase p.targetLocalPageId)
      physical := t.physical.insert p ⟨none, .hbmMutable, 0, 1, none⟩ } (bump names p) := by
  have unused := pool.unused free
  unfold bump
  constructor
  · rintro ⟨rank, id⟩
    have := pool.target_bound ⟨rank, id⟩
    cases p
    grind
  · grind [pool.target_free]
  · rintro ⟨rank, id⟩ used
    have := pool.target_used ⟨rank, id⟩
    have := pool.target_free rank id
    cases p
    grind
  · intro rank draft
    have := pool.draft_bound rank draft
    grind [holdsDraft]
  · grind [pool.draft_free]
  · have := pool.draft_used
    grind [holdsDraft]
  · grind [pool.draft_unique]
  · grind [pool.counted, pool.absent]
  · grind [pool.absent]
  · grind [pool.prefix_iff, prefixKey]
  · grind [pool.prefix_sealed]

end

theorem Pool.takeDraft (pool : Pool t names) (found : t.physical[p]? = some page)
    (without : page.draftLocalPageId = none) (free : draft ∈ t.freeDraft p.ownerRank) :
    Pool { t with
      freeDraft := Function.update t.freeDraft p.ownerRank ((t.freeDraft p.ownerRank).erase draft)
      physical := t.physical.insert p { page with draftLocalPageId := some draft } } names := by
  constructor
  · grind [pool.target_bound]
  · grind [pool.target_free]
  · grind [pool.target_used]
  · intro rank id
    have := pool.draft_bound rank id
    grind [holdsDraft]
  · grind [pool.draft_free]
  · intro rank id
    have := pool.draft_used rank id
    have := pool.draft_free rank id
    grind [holdsDraft]
  · have := pool.draft_unique
    have := pool.draft_used
    grind [holdsDraft]
  · grind [pool.counted]
  · grind [pool.absent]
  · grind [pool.prefix_iff, prefixKey]
  · grind [pool.prefix_sealed]

/-- A page changes in place. What becomes of the prefix map is for the caller to say. -/
theorem Pool.replacePage {prefixes : ExtTreeMap PrefixPageKey PhysicalPageId} (pool : Pool t names)
    (found : t.physical[p]? = some page) (draft : page'.draftLocalPageId = page.draftLocalPageId)
    (mapped : ∀ (key : PrefixPageKey) (q : PhysicalPageId), prefixes[key]? = some q ↔
      ∃ page : PhysicalPage, (t.physical.insert p page')[q]? = some page ∧ prefixKey page = some key)
    (full : page'.prefixPage.isSome → page'.state = .hbmSealed ∧ page'.validTokens = pageTokens)
    (referenced : 0 < page'.references) :
    Pool { t with physical := t.physical.insert p page', prefixes } (Function.update names p page'.references) := by
  constructor
  · grind [pool.target_bound]
  · grind [pool.target_free]
  · grind [pool.target_used]
  · intro rank id
    have := pool.draft_bound rank id
    grind [holdsDraft]
  · grind [pool.draft_free]
  · have := pool.draft_used
    grind [holdsDraft]
  · grind [pool.draft_unique]
  · grind [pool.counted]
  · grind [pool.absent]
  · exact mapped
  · grind [pool.prefix_sealed]

theorem Pool.setPage (pool : Pool t names) (page' : PhysicalPage) (found : t.physical[p]? = some page)
    (draft : page'.draftLocalPageId = page.draftLocalPageId)
    (key : prefixKey page' = prefixKey page)
    (full : page'.prefixPage.isSome → page'.state = .hbmSealed ∧ page'.validTokens = pageTokens)
    (referenced : 0 < page'.references) :
    Pool { t with physical := t.physical.insert p page' }
      (Function.update names p page'.references) := by
  refine pool.replacePage found draft (fun k q => ?_) full referenced
  have := pool.prefix_iff k q
  grind

theorem Pool.addPrefix {attachment : PrefixPageAttachment} {ordinal : Nat}
    (pool : Pool t names) (found : t.physical[p]? = some page) (without : page.prefixPage = none)
    (fresh : t.prefixes[attachment.key]? = none)
    (attached : page'.prefixPage = some (attachment, ordinal))
    (draft : page'.draftLocalPageId = page.draftLocalPageId)
    (full : page'.state = .hbmSealed ∧ page'.validTokens = pageTokens)
    (references : page'.references = page.references) :
    Pool { t with
      physical := t.physical.insert p page'
      prefixes := t.prefixes.insert attachment.key p } names := by
  obtain ⟨counted, positive⟩ := pool.counted p page found
  have same : Function.update names p page'.references = names := by
    rw [references, counted, Function.update_eq_self]
  rw [← same]
  refine pool.replacePage found draft (fun k q => ?_) (fun _ => full) (by omega)
  have := pool.prefix_iff k q
  grind [prefixKey]

def retire (t : SequencePageTable) (p : PhysicalPageId) (page : PhysicalPage) : SequencePageTable :=
  { t with
    physical := t.physical.erase p
    prefixes := match page.prefixPage with
      | some (attachment, _) => t.prefixes.erase attachment.key
      | none => t.prefixes
    quarantinedTarget := insertId t.quarantinedTarget p.ownerRank p.targetLocalPageId
    quarantinedDraft := match page.draftLocalPageId with
      | some draft => insertId t.quarantinedDraft p.ownerRank draft
      | none => t.quarantinedDraft }

theorem mem_insertId {sets : Fin 4 → Finset Nat} {rank' : Fin 4} {id' : Nat} :
    id' ∈ insertId sets rank id rank' ↔ id' ∈ sets rank' ∨ (rank' = rank ∧ id' = id) := by
  unfold insertId
  grind

theorem mem_retire_quarantinedDraft : draft ∈ (retire t p page).quarantinedDraft rank ↔
      draft ∈ t.quarantinedDraft rank ∨ (rank = p.ownerRank ∧ page.draftLocalPageId = some draft) := by
  cases h : page.draftLocalPageId with
  | none => simp [retire, h]
  | some held => simp [retire, h, mem_insertId, eq_comm]

theorem getElem?_retire_prefixes {key : PrefixPageKey} {q : PhysicalPageId} :
    (retire t p page).prefixes[key]? = some q ↔
      t.prefixes[key]? = some q ∧ prefixKey page ≠ some key := by
  cases h : page.prefixPage with
  | none => simp [retire, h, prefixKey]
  | some attached =>
    obtain ⟨attachment, ordinal⟩ := attached
    simp only [retire, h, prefixKey, Option.map_some]
    grind

theorem holdsDraft_retire : holdsDraft (retire t p page) rank draft ↔
    ∃ (q : PhysicalPageId) (page' : PhysicalPage), q ≠ p ∧ t.physical[q]? = some page' ∧
      q.ownerRank = rank ∧ page'.draftLocalPageId = some draft := by
  unfold holdsDraft Sequence.retire
  grind

theorem Pool.retire (pool : Pool t names) (found : t.physical[p]? = some page)
    (last : page.references = 1) : Pool (retire t p page) (unbump names p) := by
  have used := pool.target_used p (by grind)
  have gone : (Sequence.retire t p page).physical = t.physical.erase p := rfl
  have retired : ∀ rank id, id ∈ (Sequence.retire t p page).quarantinedTarget rank ↔
    id ∈ t.quarantinedTarget rank ∨ (rank = p.ownerRank ∧ id = p.targetLocalPageId) :=
    fun _ _ => mem_insertId
  have freeTarget : (Sequence.retire t p page).freeTarget = t.freeTarget := rfl
  have freeDraft : (Sequence.retire t p page).freeDraft = t.freeDraft := rfl
  have config : (Sequence.retire t p page).config = t.config := rfl
  constructor
  · rintro ⟨rank, id⟩
    have := pool.target_bound ⟨rank, id⟩
    cases p
    grind
  · grind [pool.target_free]
  · rintro ⟨rank, id⟩
    have := pool.target_used ⟨rank, id⟩
    cases p
    grind
  · intro rank draft
    have := pool.draft_bound rank draft
    rw [mem_retire_quarantinedDraft, holdsDraft_retire]
    grind [holdsDraft, pool.draft_unique]
  · intro rank draft
    rw [mem_retire_quarantinedDraft]
    have := pool.draft_free rank draft
    have := pool.draft_used rank draft
    grind [holdsDraft]
  · intro rank draft
    rw [mem_retire_quarantinedDraft, holdsDraft_retire]
    have := pool.draft_used rank draft
    grind [holdsDraft, pool.draft_unique]
  · grind [pool.draft_unique]
  · have := pool.counted
    unfold unbump
    grind
  · have := pool.absent
    have := pool.counted p page found
    unfold unbump
    grind
  · intro key q
    rw [getElem?_retire_prefixes]
    have := pool.prefix_iff key q
    have := pool.prefix_iff key p
    grind
  · grind [pool.prefix_sealed]

end Primitives

section Moves
variable {p : PhysicalPageId} {page : PhysicalPage}

theorem Moves.takeTarget (free : p.targetLocalPageId ∈ t.freeTarget p.ownerRank) : Moves t { t with
      freeTarget := Function.update t.freeTarget p.ownerRank
        ((t.freeTarget p.ownerRank).erase p.targetLocalPageId)
      physical := t.physical.insert p ⟨none, .hbmMutable, 0, 1, none⟩ } := by
  refine ⟨rfl, rfl, ?_, fun _ => subset_rfl, ?_, ?_⟩
  · intro rank id
    grind
  · grind
  · grind [holdsDraft]

theorem Moves.takeDraft (found : t.physical[p]? = some page) (free : draft ∈ t.freeDraft p.ownerRank) :
    Moves t { t with
      freeDraft := Function.update t.freeDraft p.ownerRank ((t.freeDraft p.ownerRank).erase draft)
      physical := t.physical.insert p { page with draftLocalPageId := some draft } } := by
  refine ⟨rfl, rfl, fun _ => subset_rfl, ?_, ?_, ?_⟩
  · intro rank id
    grind
  · grind
  · grind [holdsDraft]

theorem Moves.setPage {prefixes : ExtTreeMap PrefixPageKey PhysicalPageId} (found : t.physical[p]? = some page)
    (draft : page'.draftLocalPageId = page.draftLocalPageId) :
    Moves t { t with physical := t.physical.insert p page', prefixes := prefixes } := by
  refine ⟨rfl, rfl, fun _ => subset_rfl, fun _ => subset_rfl, ?_, ?_⟩
  · grind
  · grind [holdsDraft]

theorem Moves.retire : Moves t (retire t p page) := by
  refine ⟨rfl, rfl, fun _ => subset_rfl, fun _ => subset_rfl, ?_, ?_⟩
  · intro q used
    have gone : (Sequence.retire t p page).physical = t.physical.erase p := rfl
    grind
  · intro rank draft held
    rw [holdsDraft_retire] at held
    grind [holdsDraft]

end Moves

end Glmaxx.Proof.Sequence
