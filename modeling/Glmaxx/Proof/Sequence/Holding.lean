import Glmaxx.Proof.Sequence.Pool

namespace Glmaxx.Proof.Sequence
open Std Library Cache

variable {pages : List SequencePage} {entry : SequencePage} {page : PhysicalPage} {p : PhysicalPageId} {id : Nat}
  {sequence : Cache.Sequence}

def nameCount (pages : List SequencePage) (p : PhysicalPageId) : Nat :=
  pages.countP fun entry => decide (entry.physical = p)

def referenceCount (t : SequencePageTable) (p : PhysicalPageId) : Nat :=
  total t.sequences fun _ sequence => nameCount sequence.pages p

def Named (t : SequencePageTable) (entry : SequencePage) : Prop :=
  ∃ (id : Nat) (sequence : Cache.Sequence), t.sequences[id]? = some sequence ∧ entry ∈ sequence.pages

def names (t : SequencePageTable) (held : List SequencePage) (p : PhysicalPageId) : Nat :=
  referenceCount t p + nameCount held p

/-- The table while an operation holds entries that no sequence names. Every page has one place in
the sequences that share it, and that is the ordinal its prefix attachment was made for. -/
structure Holding (t : SequencePageTable) (held : List SequencePage) : Prop where
  pool : Pool t (names t held)
  placed : ∃ place : PhysicalPageId → Nat,
    (∀ entry, Named t entry ∨ entry ∈ held → place entry.physical = entry.ordinal) ∧
    ∀ (p : PhysicalPageId) (page : PhysicalPage) (attachment : PrefixPageAttachment) (ordinal : Nat),
      t.physical[p]? = some page → page.prefixPage = some (attachment, ordinal) → place p = ordinal
  nonzero : t.sequences[0]? = none

variable {t t' : SequencePageTable} {held held' : List SequencePage}

theorem nameCount_pos (member : entry ∈ pages) : 0 < nameCount pages entry.physical :=
  List.countP_pos_iff.mpr ⟨entry, member, by simp⟩

theorem nameCount_cons (entry : SequencePage) (pages : List SequencePage) (p : PhysicalPageId) :
    nameCount (entry :: pages) p = nameCount pages p + if entry.physical = p then 1 else 0 := by
  simp [nameCount, List.countP_cons]

theorem nameCount_append (pages pages' : List SequencePage) (p : PhysicalPageId) :
    nameCount (pages ++ pages') p = nameCount pages p + nameCount pages' p :=
  List.countP_append

theorem referenceCount_pos (named : Named t entry) : 0 < referenceCount t entry.physical := by
  obtain ⟨id, sequence, found, member⟩ := named
  have bound := le_total (fun _ (sequence : Cache.Sequence) => nameCount sequence.pages entry.physical) found
  have positive := nameCount_pos member
  unfold referenceCount
  omega

theorem Holding.names_pos (h : Named t entry ∨ entry ∈ held) : 0 < names t held entry.physical := by
  unfold names
  rcases h with named | member
  · have := referenceCount_pos named
    omega
  · have := nameCount_pos member
    omega

theorem Holding.present (holding : Holding t held)
    (h : Named t entry ∨ entry ∈ held) : ∃ page, t.physical[entry.physical]? = some page := by
  cases found : t.physical[entry.physical]? with
  | none =>
    have := holding.pool.absent _ found
    have := Holding.names_pos h
    omega
  | some page => exact ⟨page, rfl⟩

theorem names_cons (entry : SequencePage) : names t (entry :: held) = bump (names t held) entry.physical := by
  funext q
  simp only [names, nameCount_cons, bump, Function.update_apply]
  split <;> grind

theorem names_congr (same : t'.sequences = t.sequences) : names t' held = names t held := by
  funext q
  simp only [names, referenceCount, same]

theorem Named.congr (same : t'.sequences = t.sequences) : Named t' entry ↔ Named t entry := by
  simp only [Named, same]

theorem Holding.take (holding : Holding t held) (fresh : t.physical[entry.physical]? = none)
    (physical : t'.physical = t.physical.insert entry.physical page) (without : page.prefixPage = none)
    (same : t'.sequences = t.sequences) (pool : Pool t' (bump (names t held) entry.physical)) :
    Holding t' (entry :: held) := by
  obtain ⟨place, entries, prefixes⟩ := holding.placed
  have unnamed : ∀ other, Named t other ∨ other ∈ held → other.physical ≠ entry.physical := by
    intro other named equal
    obtain ⟨page, found⟩ := holding.present named
    rw [equal, fresh] at found
    cases found
  refine ⟨?_, ⟨Function.update place entry.physical entry.ordinal, ?_, ?_⟩, by rw [same, holding.nonzero]⟩
  · rw [names_congr same, names_cons]
    exact pool
  · intro other
    rw [Named.congr same]
    grind
  · intro p other attachment ordinal found attached
    rw [physical] at found
    grind

theorem update_names_self {names : PhysicalPageId → Nat}
    {references : Nat} (pool : Pool t names) (found : t.physical[p]? = some page)
    (same : references = page.references) : Function.update names p references = names := by
  rw [same, (pool.counted p page found).1, Function.update_eq_self]

theorem Holding.setPage {page' : PhysicalPage} (holding : Holding t held) (found : t.physical[p]? = some page)
    (draft : page'.draftLocalPageId = page.draftLocalPageId)
    (attached : page'.prefixPage = page.prefixPage)
    (full : page'.prefixPage.isSome → page'.state = .hbmSealed ∧ page'.validTokens = pageTokens)
    (references : page'.references = page.references) :
    Holding { t with physical := t.physical.insert p page' } held := by
  have positive := holding.pool.counted p page found
  obtain ⟨place, entries, prefixes⟩ := holding.placed
  refine ⟨?_, ⟨place, entries, ?_⟩, holding.nonzero⟩
  · have pool := holding.pool.setPage page' found draft (by simp only [prefixKey, attached]) full (by omega)
    rw [update_names_self holding.pool found references] at pool
    exact pool
  · grind

theorem Holding.share (holding : Holding t held) (found : t.physical[entry.physical]? = some page)
    (place : Named t entry ∨ ∃ attachment, page.prefixPage = some (attachment, entry.ordinal)) :
    Holding { t with physical :=
      t.physical.insert entry.physical { page with references := page.references + 1 } }
      (entry :: held) := by
  have counted := (holding.pool.counted _ _ found).1
  obtain ⟨spot, entries, prefixes⟩ := holding.placed
  refine ⟨?_, ⟨spot, ?_, ?_⟩, holding.nonzero⟩
  · show Pool _ (names t (entry :: held))
    rw [names_cons, bump, ← counted]
    exact holding.pool.setPage _ found rfl rfl (holding.pool.prefix_sealed _ page found) (Nat.succ_pos _)
  · intro other member
    change Named t other ∨ _ at member
    grind
  · grind

section
variable (holding : Holding t (entry :: held)) (found : t.physical[entry.physical]? = some page)
include holding found

theorem Holding.drop (many : page.references ≠ 1) :
    Holding { t with physical :=
      t.physical.insert entry.physical { page with references := page.references - 1 } } held := by
  have counted := holding.pool.counted _ _ found
  obtain ⟨place, entries, prefixes⟩ := holding.placed
  refine ⟨?_, ⟨place, ?_, ?_⟩, holding.nonzero⟩
  · have pool := holding.pool.setPage
      { page with references := page.references - 1 } found rfl rfl
      (holding.pool.prefix_sealed _ page found) (by grind)
    have same : Function.update (names t (entry :: held)) entry.physical (page.references - 1)
        = names t held := by
      rw [names_cons] at counted ⊢
      funext q
      simp only [bump, Function.update_apply] at counted ⊢
      grind
    rw [same] at pool
    exact pool
  · intro other member
    change Named t other ∨ _ at member
    grind
  · grind

theorem Holding.retire (last : page.references = 1) : Holding (retire t entry.physical page) held := by
  obtain ⟨place, entries, prefixes⟩ := holding.placed
  have gone : (Sequence.retire t entry.physical page).physical = t.physical.erase entry.physical := rfl
  refine ⟨?_, ⟨place, ?_, ?_⟩, holding.nonzero⟩
  · have pool := holding.pool.retire found last
    have same : unbump (names t (entry :: held)) entry.physical = names t held := by
      rw [names_cons]
      funext q
      simp only [unbump, bump, Function.update_apply]
      grind
    rw [same] at pool
    exact pool
  · intro other member
    change Named t other ∨ _ at member
    grind
  · grind

end

theorem nameCount_perm {pages' : List SequencePage} (same : pages.Perm pages')
    (p : PhysicalPageId) : nameCount pages p = nameCount pages' p :=
  same.countP_eq _

theorem Holding.rename {sequences : ExtTreeMap Nat Cache.Sequence} (holding : Holding t held)
    (count : names { t with sequences } held' = names t held)
    (member : ∀ entry, Named { t with sequences } entry ∨ entry ∈ held' →
      Named t entry ∨ entry ∈ held)
    (nonzero : sequences[0]? = none) : Holding { t with sequences } held' := by
  obtain ⟨place, entries, prefixes⟩ := holding.placed
  obtain ⟨a, b, c, d, e, f, g, h, i, j, k⟩ := holding.pool
  refine ⟨?_, ⟨place, fun entry named => entries entry (member entry named), prefixes⟩, nonzero⟩
  rw [count]
  exact ⟨a, b, c, d, e, f, g, h, i, j, k⟩

theorem Holding.insertNew (holding : Holding t held)
    (nonzero : id ≠ 0) (absent : t.sequences[id]? = none) (perm : sequence.pages.Perm held) :
    Holding { t with sequences := t.sequences.insert id sequence } [] := by
  refine holding.rename ?_ ?_ ?_
  · funext p
    simp only [names, referenceCount, total_insert_new _ _ absent, nameCount_perm perm]
    simp [nameCount, Nat.add_comm]
  · intro entry named
    simp only [Named, List.not_mem_nil, or_false] at named
    obtain ⟨other, found, lookup, member⟩ := named
    by_cases same : id = other
    · subst same
      simp only [ExtTreeMap.getElem?_insert_self, Option.some.injEq] at lookup
      subst lookup
      exact .inr (perm.mem_iff.mp member)
    · simp only [ExtTreeMap.getElem?_insert, Std.compare_eq_iff_eq, same] at lookup
      exact .inl ⟨other, found, lookup, member⟩
  · grind [holding.nonzero]

theorem Holding.insertOld (holding : Holding t held) (sequence' : Cache.Sequence) (held' : List SequencePage)
    (found : t.sequences[id]? = some sequence)
    (perm : (sequence'.pages ++ held').Perm (sequence.pages ++ held)) :
    Holding { t with sequences := t.sequences.insert id sequence' } held' := by
  refine holding.rename ?_ ?_ ?_
  · funext p
    have split := total_insert_old (fun _ (sequence : Cache.Sequence) => nameCount sequence.pages p)
      sequence' found
    have balance := nameCount_perm perm p
    simp only [nameCount_append] at balance
    simp only [names, referenceCount]
    omega
  · intro entry named
    have moved : entry ∈ sequence'.pages ∨ entry ∈ held' → entry ∈ sequence.pages ∨ entry ∈ held := by
      have := perm.mem_iff (a := entry)
      simpa using this.mp
    have old : entry ∈ sequence.pages → Named t entry := fun member => ⟨id, sequence, found, member⟩
    rcases named with ⟨other, changed, lookup, member⟩ | member
    · by_cases same : id = other
      · subst same
        simp only [ExtTreeMap.getElem?_insert_self, Option.some.injEq] at lookup
        subst lookup
        exact (moved (.inl member)).imp_left old
      · simp only [ExtTreeMap.getElem?_insert, Std.compare_eq_iff_eq, same] at lookup
        exact .inl ⟨other, changed, lookup, member⟩
    · exact (moved (.inr member)).imp_left old
  · grind [holding.nonzero]

theorem Holding.eraseSequence (holding : Holding t []) (found : t.sequences[id]? = some sequence)
    (perm : pages.Perm sequence.pages) :
    Holding { t with sequences := t.sequences.erase id } pages := by
  refine holding.rename ?_ ?_ ?_
  · funext p
    have split := total_erase (fun _ (sequence : Cache.Sequence) => nameCount sequence.pages p) found
    have balance := nameCount_perm perm p
    simp only [names, referenceCount, nameCount, List.countP_nil] at split balance ⊢
    omega
  · intro entry named
    rcases named with ⟨other, changed, lookup, member⟩ | member
    · refine .inl ⟨other, changed, ?_, member⟩
      grind
    · exact .inl ⟨id, sequence, found, perm.mem_iff.mp member⟩
  · grind [holding.nonzero]

end Glmaxx.Proof.Sequence
