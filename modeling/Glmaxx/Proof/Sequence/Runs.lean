import Glmaxx.Library.Run
import Glmaxx.Proof.Sequence.Sharing
import Glmaxx.Proof.Sequence.Snapshots

/-!
# Runs of the page table

Every operation keeps a table valid, so that the partition of the arenas, the shape of the sequences
and the absence of internal faults hold in every table that a run of calls can reach.
-/

namespace Glmaxx.Proof.Sequence
open Std Library Cache Cache.SequencePageTable

variable {config : PageTableConfig} {mtp : Bool} {c r i : Nat} {page : PhysicalPage}

variable {t : SequencePageTable}

theorem new_valid (accepted : SequencePageTable.new config = .ok t) : Valid t ∧ t.config = config := by
  unfold SequencePageTable.new at accepted
  split at accepted
  · cases accepted
  · cases accepted
    refine ⟨⟨⟨?_, ⟨fun _ => 0, ?_, ?_⟩, by simp⟩, by simp⟩, rfl⟩
    · constructor <;> simp [names, referenceCount, nameCount, holdsDraft]
    · rintro entry (⟨id, sequence, found, _⟩ | member)
      · simp at found
      · simp at member
    · simp

theorem Valid.rearrange {t' : SequencePageTable} (valid : Valid t) (pool : Pool t' (names t []))
    (physical : t'.physical = t.physical) (sequences : t'.sequences = t.sequences) : Valid t' := by
  obtain ⟨place, entries, prefixes⟩ := valid.holding.placed
  refine ⟨⟨?_, ⟨place, ?_, ?_⟩, by rw [sequences, valid.holding.nonzero]⟩, ?_⟩
  · rw [names_congr sequences]
    exact pool
  · intro entry named
    rw [Named.congr sequences] at named
    exact entries entry named
  · rw [physical]
    exact prefixes
  · intro id sequence live
    rw [sequences] at live
    exact (valid.shape id sequence live).keeps fun _ _ page found =>
      ⟨page, by rw [physical, found], Keeps.refl page⟩

theorem bindReuseQuarantine_valid (valid : Valid t) (generation : Nat) :
    Valid (t.bindReuseQuarantine generation).2 := by
  unfold SequencePageTable.bindReuseQuarantine
  split
  · exact valid
  split
  · exact valid
  · obtain ⟨a, b, c, d, e, f, g, h, i, j, k⟩ := valid.holding.pool
    exact valid.rearrange ⟨a, b, c, d, e, f, g, h, i, j, k⟩ rfl rfl

theorem Pool.acknowledge {names : PhysicalPageId → Nat} (pool : Pool t names) : Pool { t with
      freeTarget := fun rank => t.freeTarget rank ∪ t.quarantinedTarget rank
      freeDraft := fun rank => t.freeDraft rank ∪ t.quarantinedDraft rank
      quarantinedTarget := fun _ => ∅
      quarantinedDraft := fun _ => ∅
      quarantineGeneration := none } names := by
  constructor
  · intro p
    have := pool.target_bound p
    grind
  · simp
  · intro p used
    have := pool.target_used p used
    grind
  · intro rank draft
    have := pool.draft_bound rank draft
    have same : holdsDraft { t with
      freeTarget := fun rank => t.freeTarget rank ∪ t.quarantinedTarget rank
      freeDraft := fun rank => t.freeDraft rank ∪ t.quarantinedDraft rank
      quarantinedTarget := fun _ => ∅
      quarantinedDraft := fun _ => ∅
      quarantineGeneration := none } rank draft ↔ holdsDraft t rank draft := Iff.rfl
    grind
  · simp
  · intro rank draft held
    have := pool.draft_used rank draft held
    grind
  · exact pool.draft_unique
  · exact pool.counted
  · exact pool.absent
  · exact pool.prefix_iff
  · exact pool.prefix_sealed

theorem acknowledgeReuseQuarantine_valid (valid : Valid t) (generation : Nat) :
    Valid (t.acknowledgeReuseQuarantine generation).2 := by
  unfold SequencePageTable.acknowledgeReuseQuarantine
  split
  · exact valid
  · exact valid.rearrange valid.holding.pool.acknowledge rfl rfl

def MovesPages : TableCall → Prop
  | .bindReuseQuarantine _ | .acknowledgeReuseQuarantine _ => False
  | _ => True

theorem call_kind (call : TableCall) : MovesPages call ∨ (∃ generation, call = .bindReuseQuarantine generation) ∨
    ∃ generation, call = .acknowledgeReuseQuarantine generation := by
  cases call <;> simp [MovesPages]

theorem call_served {call : TableCall} (valid : Valid t) (pages : MovesPages call) : Served t (t.call call) := by
  cases call with
  | admitWithPrefix id mtp prefixPages => exact (admitWithPrefix_leads valid id mtp prefixPages False.elim).1
  | appendCommitted id tokenCount => exact (appendCommitted_leads valid id tokenCount False.elim).1
  | forkSequence source destination => exact (forkSequence_leads valid source destination False.elim).1
  | beginTentative id requested => exact (beginTentative_leads valid id requested False.elim).1
  | commitTentative id committed => exact commitTentative_served valid id committed
  | rollbackTentative id => exact rollbackTentative_served valid id
  | removeSequence id => exact removeSequence_served valid id
  | bindReuseQuarantine | acknowledgeReuseQuarantine => exact pages.elim

theorem call_valid (valid : Valid t) (call : TableCall) : Valid (t.call call).2 := by
  rcases call_kind call with pages | ⟨generation, rfl⟩ | ⟨generation, rfl⟩
  · exact (call_served valid pages).valid
  · exact bindReuseQuarantine_valid valid generation
  · exact acknowledgeReuseQuarantine_valid valid generation

theorem bindReuseQuarantine_config (generation : Nat) :
    (t.bindReuseQuarantine generation).2.config = t.config := by
  unfold SequencePageTable.bindReuseQuarantine
  repeat' split
  all_goals rfl

theorem acknowledgeReuseQuarantine_config (generation : Nat) :
    (t.acknowledgeReuseQuarantine generation).2.config = t.config := by
  unfold SequencePageTable.acknowledgeReuseQuarantine
  split <;> rfl

theorem call_config (valid : Valid t) (call : TableCall) : (t.call call).2.config = t.config := by
  rcases call_kind call with pages | ⟨generation, rfl⟩ | ⟨generation, rfl⟩
  · exact (call_served valid pages).moves.config_eq
  · exact bindReuseQuarantine_config generation
  · exact acknowledgeReuseQuarantine_config generation

theorem run_valid {start : SequencePageTable}
    (accepted : SequencePageTable.new config = .ok start) (calls : List TableCall) :
    Valid (start.run calls) ∧ (start.run calls).config = config := by
  refine foldl_invariant (fun t => Valid t ∧ t.config = config) ?_ calls start
    (new_valid accepted)
  rintro t call ⟨valid, same⟩
  exact ⟨call_valid valid call, (call_config valid call).trans same⟩

section Partition

def usedTarget (t : SequencePageTable) (rank : Fin 4) : Set Nat :=
  { id | (⟨rank, id⟩ : PhysicalPageId) ∈ t.physical }

def usedDraft (t : SequencePageTable) (rank : Fin 4) : Set Nat := { draft | holdsDraft t rank draft }

structure Partitions (count : Nat) (free quarantined : Finset Nat) (used : Set Nat) : Prop where
  free_quarantined : Disjoint free quarantined
  free_used : Disjoint (free : Set Nat) used
  quarantined_used : Disjoint (quarantined : Set Nat) used
  union_eq : (free : Set Nat) ∪ quarantined ∪ used = Set.Iio count

structure ArenaPartition (config : PageTableConfig) (t : SequencePageTable) : Prop where
  target : ∀ rank, Partitions config.targetPagesPerRank (t.freeTarget rank)
    (t.quarantinedTarget rank) (usedTarget t rank)
  draft : ∀ rank, Partitions config.draftPagesPerRank (t.freeDraft rank)
    (t.quarantinedDraft rank) (usedDraft t rank)
  draft_unique : ∀ (p q : PhysicalPageId) (page page' : PhysicalPage) (draft : Nat),
    t.physical[p]? = some page → t.physical[q]? = some page' → p.ownerRank = q.ownerRank →
    page.draftLocalPageId = some draft → page'.draftLocalPageId = some draft → p = q
  references : ∀ (p : PhysicalPageId) (page : PhysicalPage), t.physical[p]? = some page →
    page.references = referenceCount t p ∧ 1 ≤ page.references
  prefixes : ∀ (key : PrefixPageKey) (p : PhysicalPageId), t.prefixes[key]? = some p ↔
    ∃ (page : PhysicalPage) (attachment : PrefixPageAttachment) (ordinal : Nat),
      t.physical[p]? = some page ∧ page.prefixPage = some (attachment, ordinal) ∧ attachment.key = key

theorem Partitions.of_bound {count : Nat} {free quarantined : Finset Nat} {used : Set Nat}
    (bound : ∀ id, id < count ↔ id ∈ free ∨ id ∈ quarantined ∨ id ∈ used)
    (separate : ∀ id ∈ free, id ∉ quarantined) (unused : ∀ id ∈ used, id ∉ free ∧ id ∉ quarantined) :
    Partitions count free quarantined used where
  free_quarantined := Finset.disjoint_left.mpr fun _ => separate _
  free_used := Set.disjoint_right.mpr fun id member => (unused id member).1
  quarantined_used := Set.disjoint_right.mpr fun id member => (unused id member).2
  union_eq := by
    ext id
    simp only [Set.mem_union, Finset.mem_coe, Set.mem_Iio, bound id, or_assoc]

theorem names_nil (t : SequencePageTable) : names t [] = referenceCount t := by
  funext p
  simp [names, nameCount]

theorem Valid.partition (valid : Valid t) (same : t.config = config) : ArenaPartition config t := by
  have pool := valid.holding.pool
  rw [names_nil] at pool
  subst same
  refine ⟨fun rank => Partitions.of_bound ?_ (pool.target_free rank) ?_,
    fun rank => Partitions.of_bound (pool.draft_bound rank) (pool.draft_free rank) (pool.draft_used rank),
    pool.draft_unique, ?_, ?_⟩
  · exact fun id => pool.target_bound ⟨rank, id⟩
  · exact fun id used => pool.target_used ⟨rank, id⟩ used
  · intro p page found
    obtain ⟨counted, positive⟩ := pool.counted p page found
    exact ⟨counted, by omega⟩
  · intro key p
    rw [pool.prefix_iff]
    refine exists_congr fun page => ?_
    cases attached : page.prefixPage with
    | none => simp [prefixKey, attached]
    | some attachment => simp [prefixKey, attached, Prod.ext_iff]

theorem run_partitions_arenas (config : PageTableConfig) (start : SequencePageTable)
    (accepted : SequencePageTable.new config = .ok start) (calls : List TableCall) :
    ArenaPartition config (start.run calls) := by
  obtain ⟨valid, same⟩ := run_valid accepted calls
  exact valid.partition same

theorem removed_sequence_partitions_arenas : ∃ start, SequencePageTable.new ⟨2, 1⟩ = .ok start ∧
    ArenaPartition ⟨2, 1⟩ (start.run [.admitWithPrefix 1 true [], .appendCommitted 1 70,
      .beginTentative 1 3, .rollbackTentative 1, .removeSequence 1, .bindReuseQuarantine 9]) :=
  ⟨_, rfl, run_partitions_arenas ⟨2, 1⟩ _ rfl _⟩

end Partition

section Form

def PagesOf (t : SequencePageTable) (sequence : Cache.Sequence) (pages : List PhysicalPage) : Prop :=
  sequence.pages.map (fun entry => t.physical[entry.physical]?) = pages.map some

/-- A sequence with `c` committed and `r` reserved tokens, against the pages it names. -/
structure SequenceForm (sequence : Cache.Sequence) (c r : Nat) (pages : List PhysicalPage) : Prop where
  bound : c + r ≤ 1048576
  count : pages.length = (c + r) ⌈/⌉ 64
  entries : ∀ (i : Nat) (entry : SequencePage), sequence.pages[i]? = some entry →
    entry.ordinal = i ∧ (entry.physical.ownerRank : Nat) = i % 4
  tokens : (pages.map (·.validTokens)).sum = c + r
  inner : ∀ (i : Nat) (page : PhysicalPage), pages[i]? = some page → i + 1 < pages.length →
    page.validTokens = 64
  last : ∀ page, pages.getLast? = some page → 1 ≤ page.validTokens ∧ page.validTokens ≤ 64
  committed : r = 0 → ∀ page ∈ pages, (page.validTokens = 64 → page.state = .hbmSealed) ∧
    (page.validTokens ≠ 64 → page.state = .hbmMutable ∧ page.references = 1)
  tentative : 0 < r → ∀ (i : Nat) (page : PhysicalPage), pages[i]? = some page →
    (c < 64 * i + page.validTokens ↔ page.state = .hbmTentative) ∧
    (page.state = .hbmTentative → page.references = 1) ∧
    (page.state ≠ .hbmTentative → page.state = .hbmSealed ∧ page.validTokens = 64)
  draft : sequence.mtp → ∀ page ∈ pages, page.draftLocalPageId.isSome

theorem sum_page_tokens (n k : Nat) :
    ((List.range k).map fun i => min pageTokens (n - pageTokens * i)).sum = min n (pageTokens * k) := by
  induction k with
  | zero => simp
  | succ k ih =>
    rw [List.range_succ, List.map_append, List.sum_append, ih]
    simp only [List.map_cons, List.map_nil, List.sum_cons, List.sum_nil, pageTokens]
    omega

theorem Entries.pages {entries : List SequencePage} (fits : Entries t mtp c r entries) :
    ∃ pages : List PhysicalPage, entries.map (fun entry => t.physical[entry.physical]?) = pages.map some ∧
      ∀ (i : Nat) (page : PhysicalPage), pages[i]? = some page → Fits mtp c r i page := by
  refine ⟨entries.map (pageOf t), ?_, ?_⟩
  · rw [List.map_map]
    refine List.map_congr_left fun entry member => ?_
    obtain ⟨i, get⟩ := List.mem_iff_getElem?.mp member
    exact (fits i entry get).found
  · intro i page get
    rw [List.getElem?_map, Option.map_eq_some_iff] at get
    obtain ⟨entry, get, rfl⟩ := get
    exact (fits i entry get).fits

theorem sum_valid_tokens {pages : List PhysicalPage}
    (fits : ∀ (i : Nat) (page : PhysicalPage), pages[i]? = some page → Fits mtp c r i page)
    (length_eq : pages.length = pageCount (c + r)) : (pages.map (·.validTokens)).sum = c + r := by
  have tokens : pages.map (·.validTokens) =
      (List.range pages.length).map fun i => min pageTokens (c + r - pageTokens * i) := by
    apply List.ext_getElem?
    intro i
    rw [List.getElem?_map, List.getElem?_map]
    by_cases inside : i < pages.length
    · rw [List.getElem?_eq_getElem inside, List.getElem?_range inside]
      exact congrArg some (fits i _ (List.getElem?_eq_getElem inside)).valid
    · rw [List.getElem?_eq_none (by omega), List.getElem?_eq_none (by simpa using inside)]
      rfl
  rw [tokens, sum_page_tokens, length_eq]
  grind

theorem Fits.committed (fits : Fits mtp c 0 i page) : (page.validTokens = 64 → page.state = .hbmSealed) ∧
    (page.validTokens ≠ 64 → page.state = .hbmMutable ∧ page.references = 1) := by
  have valid := fits.valid
  by_cases full : pageTokens * (i + 1) ≤ c
  · have sealed := fits.closed full
    refine ⟨fun _ => sealed, fun partly => absurd ?_ partly⟩
    grind
  · obtain ⟨single, state⟩ := fits.tail (by omega)
    simp only [true_or, if_true] at state
    refine ⟨fun complete => absurd full ?_, fun _ => ⟨state, single⟩⟩
    grind

theorem Fits.tentative (fits : Fits mtp c r i page) (inside : i < pageCount (c + r)) (pending : 0 < r) :
    (c < 64 * i + page.validTokens ↔ page.state = .hbmTentative) ∧
    (page.state = .hbmTentative → page.references = 1) ∧
    (page.state ≠ .hbmTentative → page.state = .hbmSealed ∧ page.validTokens = 64) := by
  have valid := fits.valid
  by_cases full : pageTokens * (i + 1) ≤ c
  · have sealed := fits.closed full
    have complete : page.validTokens = 64 := by
      grind
    simp only [sealed, complete, reduceCtorEq, iff_false, false_implies, ne_eq,
      not_false_eq_true, and_true, implies_true]
    grind
  · obtain ⟨single, state⟩ := fits.tail (by omega)
    rw [if_neg (by grind)] at state
    simp only [state, single, iff_true, implies_true, ne_eq, not_true_eq_false, false_implies, and_true]
    grind

theorem SequenceShape.form {sequence : Cache.Sequence} (shape : SequenceShape t sequence) :
    ∃ pages, PagesOf t sequence pages ∧
      SequenceForm sequence sequence.committedTokens (reserved sequence) pages := by
  obtain ⟨pages, lookup, fits⟩ := shape.entries.pages
  have length_eq : pages.length = pageCount (sequence.committedTokens + reserved sequence) := by
    have := congrArg List.length lookup
    simpa [shape.length_eq] using this.symm
  have inside : ∀ (i : Nat) (page : PhysicalPage), pages[i]? = some page →
      i < pageCount (sequence.committedTokens + reserved sequence) := by
    intro i page get
    rw [← length_eq]
    exact (List.getElem?_eq_some_iff.mp get).1
  refine ⟨pages, lookup, shape.bound, ?_, ?_, sum_valid_tokens fits length_eq, ?_, ?_, ?_, ?_, ?_⟩
  · rw [length_eq, Nat.ceilDiv_eq_add_pred_div]
    rfl
  · intro i entry get
    obtain ⟨ordinal, rank, _⟩ := shape.entries i entry get
    exact ⟨ordinal, by rw [rank]; rfl⟩
  · intro i page get before
    have valid := (fits i page get).valid
    grind
  · intro page last
    rw [List.getLast?_eq_getElem?] at last
    have valid := (fits _ page last).valid
    have bound := inside _ page last
    grind
  · intro idle page member
    obtain ⟨i, get⟩ := List.mem_iff_getElem?.mp member
    rw [idle] at fits
    exact (fits i page get).committed
  · intro pending i page get
    exact (fits i page get).tentative (inside i page get) pending
  · intro mtp page member
    obtain ⟨i, get⟩ := List.mem_iff_getElem?.mp member
    exact (fits i page get).draft mtp

theorem run_shapes_sequences (config : PageTableConfig) (start : SequencePageTable)
    (accepted : SequencePageTable.new config = .ok start) (calls : List TableCall) (id : Nat)
    (sequence : Cache.Sequence) (live : (start.run calls).sequences[id]? = some sequence) :
    ∃ pages, PagesOf (start.run calls) sequence pages ∧
      SequenceForm sequence sequence.committedTokens (reserved sequence) pages :=
  ((run_valid accepted calls).1.shape id sequence live).form

theorem reserving_sequence_shaped : ∃ start sequence, SequencePageTable.new ⟨2, 2⟩ = .ok start ∧
    (start.run [.admitWithPrefix 1 true [], .appendCommitted 1 62, .beginTentative 1 3]).sequences[1]? =
      some sequence ∧ reserved sequence = 3 ∧
    ∃ pages, PagesOf
      (start.run [.admitWithPrefix 1 true [], .appendCommitted 1 62, .beginTentative 1 3]) sequence pages ∧
      SequenceForm sequence sequence.committedTokens (reserved sequence) pages :=
  ⟨_, _, rfl, rfl, rfl, run_shapes_sequences ⟨2, 2⟩ _ rfl _ 1 _ rfl⟩

end Form

section Faults

theorem call_failure (valid : Valid t) (call : TableCall) (failure : SequencePageError)
    (failed : (t.call call).1 = .error failure) : External failure := by
  rcases call_kind call with pages | ⟨generation, rfl⟩ | ⟨generation, rfl⟩
  · exact ((call_served valid pages).failure failure failed).1
  · simp only [SequencePageTable.call, SequencePageTable.bindReuseQuarantine] at failed
    repeat' split at failed
    all_goals cases failed
    trivial
  · simp only [SequencePageTable.call, SequencePageTable.acknowledgeReuseQuarantine] at failed
    split at failed
    all_goals cases failed
    trivial

theorem pages_failure (valid : Valid t) (id : Nat) (failure : SequencePageError)
    (failed : t.pages id = .error failure) : External failure := by
  cases live : t.sequences[id]? with
  | none =>
    simp only [SequencePageTable.pages, live] at failed
    cases failed
    trivial
  | some sequence =>
    rw [pages_ok valid live] at failed
    cases failed

theorem run_never_faults (config : PageTableConfig) (start : SequencePageTable)
    (accepted : SequencePageTable.new config = .ok start) (calls : List TableCall) :
    (∀ call failure, ((start.run calls).call call).1 = .error failure → External failure) ∧
    (∀ id failure, (start.run calls).pages id = .error failure → External failure) ∧
    ∀ failure, (start.run calls).snapshots = .error failure → External failure := by
  have valid := (run_valid accepted calls).1
  refine ⟨call_failure valid, pages_failure valid, ?_⟩
  intro failure failed
  rw [snapshots_ok valid] at failed
  cases failed

/-- A call that does fail: the append finds no draft page. -/
theorem exhausted_draft_arena_is_capacity : ∃ start, SequencePageTable.new ⟨1, 0⟩ = .ok start ∧
    (start.call (.admitWithPrefix 1 true [])).1 = .ok () ∧
    ((start.run [.admitWithPrefix 1 true []]).call (.appendCommitted 1 1)).1 = .error .capacity ∧
    External .capacity :=
  ⟨_, rfl, rfl, rfl, (run_never_faults ⟨1, 0⟩ _ rfl [.admitWithPrefix 1 true []]).1
    (.appendCommitted 1 1) .capacity rfl⟩

end Faults

end Glmaxx.Proof.Sequence
