import Glmaxx.Proof.Delta.Between

namespace Glmaxx.Proof.Delta
open Std Library Cache Cache.SequencePageTable Sequence

section Ascending

theorem strictlyAscending_of_pairwise {ids : List Nat} (ordered : ids.Pairwise (· < ·)) :
    strictlyAscending ids = true := by
  induction ids with
  | nil => rfl
  | cons a rest ih =>
    obtain ⟨below, ordered⟩ := List.pairwise_cons.mp ordered
    cases rest with
    | nil => rfl
    | cons b rest =>
      unfold strictlyAscending
      rw [ih ordered, Bool.and_true, decide_eq_true_iff]
      exact below b (List.mem_cons_self ..)

theorem keys_ascending (map : ExtTreeMap Nat NormalizedSequence) : map.keys.Pairwise (· < ·) :=
  ExtTreeMap.ordered_keys.imp Nat.compare_eq_lt.mp

theorem updates_ascending (before after : ExtTreeMap Nat NormalizedSequence) :
    ((after.toList.filterMap (updateOf before)).map (·.requestId)).Pairwise (· < ·) := by
  refine List.pairwise_map.mpr (List.Pairwise.filterMap (updateOf before) ?_ ExtTreeMap.ordered_keys_toList)
  rintro ⟨id, next⟩ ⟨id', next'⟩ ordered update emitted update' emitted'
  rw [(updatedSequence_updateOf emitted).1, (updatedSequence_updateOf emitted').1]
  exact Nat.compare_eq_lt.mp ordered

end Ascending

section Shape
variable {before after : SequencePageTable} {generation : Nat}

theorem validateChangedPages_ok {sequence : NormalizedSequence} {pages : List RankPageEntry} {first : Nat}
    (accepted : ∀ j page, pages[j]? = some page → PageAccepted sequence (first + j) page) :
    PageTableDelta.validateChangedPages sequence.mtp pages first = .ok () := by
  induction pages generalizing first with
  | nil => rfl
  | cons page rest ih =>
    have here : PageAccepted sequence first page := accepted 0 page rfl
    have state : page.state = .hbmMutable ∨ page.state = .hbmTentative ∨ page.state = .hbmSealed := by
      by_cases pending : sequence.tentativeTokens = 0
      · rw [here.idle pending, idleState]
        split <;> simp
      · rcases here.reserving pending with held | held <;> simp [held]
    have ordinal := here.ordinal_eq
    unfold PageTableDelta.validateChangedPages
    rw [if_neg]
    · refine ih ?_
      intro j other get
      have := accepted (j + 1) other get
      rwa [← Nat.add_assoc, Nat.add_right_comm] at this
    · rintro (wrong | wrong | wrong | wrong | wrong | wrong)
      · exact wrong ordinal
      · exact wrong (ordinal ▸ here.rank_eq)
      · exact here.positive wrong
      · exact Nat.not_lt.mpr here.bounded wrong
      · exact wrong here.draft
      · exact wrong state

theorem updateOf_accepted (valid : Valid after) (matched : Matched after)
    {map : ExtTreeMap Nat NormalizedSequence} {removed : List Nat} {id : Nat} {next : NormalizedSequence}
    (live : (mirrorSequences after)[id]? = some next) (kept : id ∉ removed)
    {update : SequencePageUpdate} (emitted : updateOf map (id, next) = some update) :
    PageTableDelta.validateUpdate removed update = .ok () := by
  rw [getElem?_mirrorSequences, Option.map_eq_some_iff] at live
  obtain ⟨sequence, found, rfl⟩ := live
  have shape := valid.shape id sequence found
  have bound := shape.bound
  have nonzero : id ≠ 0 := by
    rintro rfl
    rw [valid.holding.nonzero] at found
    cases found
  have pending : reserved sequence ≤ 7 := by
    unfold reserved
    cases held : sequence.tentative with
    | none => exact Nat.zero_le 7
    | some transaction => exact (shape.tentative transaction held).2.2.2.2
  have first := firstChanged_le map[id]? (normalizedOf after sequence)
  unfold updateOf at emitted
  split at emitted
  · cases emitted
  cases emitted
  unfold PageTableDelta.validateUpdate
  dsimp only at first ⊢
  rw [if_neg]
  · refine validateChangedPages_ok ?_
    intro j page get
    rw [List.getElem?_drop] at get
    exact normalized_accepted shape (matched id sequence found) get
  · simp only [not_or, ne_eq, not_not, gt_iff_lt, Nat.not_lt, List.length_drop]
    refine ⟨nonzero, kept, pending, ?_, first, trivial⟩
    exact (Nat.le_add_right _ _).trans bound

/-- A delta that changes nothing is the one shape that `between` builds and refuses. -/
theorem deltaOf_nonempty {before after : ExtTreeMap Nat NormalizedSequence} (differ : before ≠ after) :
    ¬((deltaOf before after generation).updates.isEmpty ∧
      (deltaOf before after generation).removedSequenceIds.isEmpty) := by
  rintro ⟨updates, removed⟩
  simp only [deltaOf, List.isEmpty_iff, List.filterMap_eq_nil_iff, List.filter_eq_nil_iff] at updates removed
  refine differ (ExtTreeMap.ext_getElem? ?_)
  intro id
  cases found : after[id]? with
  | some next =>
    have same := updates (id, next) (mem_toList_iff.mpr found)
    unfold updateOf at same
    split at same
    · assumption
    · cases same
  | none =>
    by_contra live
    refine removed id (ExtTreeMap.mem_keys.mpr ?_) ?_
    · exact ExtTreeMap.mem_iff_isSome_getElem?.mpr (Option.isSome_iff_ne_none.mpr live)
    · rw [ExtTreeMap.contains_eq_isSome_getElem?, found]
      rfl

theorem validateShape_ok (validAfter : Valid after) (matchedAfter : Matched after)
    (fewBefore : before.sequences.size ≤ 64) (fewAfter : after.sequences.size ≤ 64)
    (positive : generation ≠ 0) (small : generation + 1 < 2 ^ 64)
    (differ : mirrorSequences before ≠ mirrorSequences after) :
    (deltaOf (mirrorSequences before) (mirrorSequences after) generation).validateShape = .ok () := by
  have updates := (List.length_filterMap_le (updateOf (mirrorSequences before))
    (mirrorSequences after).toList).trans_eq (ExtTreeMap.length_toList.trans size_mirrorSequences)
  have removals := (List.length_filter_le (fun id => !(mirrorSequences after).contains id)
    (mirrorSequences before).keys).trans_eq (ExtTreeMap.length_keys.trans size_mirrorSequences)
  unfold PageTableDelta.validateShape
  refine bind_eq_ok.mpr ⟨(), validateGenerations_ok positive small, ?_⟩
  rw [if_neg]
  · refine forM_ok_of_forall _ ?_
    intro update member
    obtain ⟨⟨id, next⟩, live, emitted⟩ := List.mem_filterMap.mp member
    have found := mem_toList_iff.mp live
    refine updateOf_accepted validAfter matchedAfter found ?_ emitted
    intro gone
    have absent := (List.mem_filter.mp gone).2
    rw [ExtTreeMap.contains_eq_isSome_getElem?, found] at absent
    cases absent
  · simp only [not_or, gt_iff_lt, Nat.not_lt, not_not]
    refine ⟨deltaOf_nonempty differ, updates.trans fewAfter, removals.trans fewBefore, ?_, ?_⟩
    · exact strictlyAscending_of_pairwise (updates_ascending _ _)
    · exact strictlyAscending_of_pairwise ((keys_ascending _).filter _)

end Shape

section Reachable

/-- No page of a target-only sequence holds a draft page, as it would after a drafting sequence shares it. -/
def TargetOnlyUndrafted (t : SequencePageTable) : Prop :=
  ∀ (id : Nat) (live : Cache.Sequence), t.sequences[id]? = some live → live.mtp = false →
    ∀ entry ∈ live.pages, ∀ page : PhysicalPage, t.physical[entry.physical]? = some page →
      page.draftLocalPageId = none

theorem matched_iff {t : SequencePageTable} (valid : Valid t) : Matched t ↔ TargetOnlyUndrafted t := by
  constructor
  · intro matched id live found mode entry member page foundPage
    have same := matched id live found entry member
    rw [pageOf, foundPage, mode, Option.getD_some, Option.isSome_eq_false_iff, Option.isNone_iff_eq_none] at same
    exact same
  · intro undrafted id live found entry member
    obtain ⟨i, get⟩ := List.mem_iff_getElem?.mp member
    obtain ⟨page, foundPage, fits⟩ := ((valid.shape id live found).entries i entry get).page
    rw [pageOf, foundPage, Option.getD_some]
    cases mode : live.mtp with
    | true => exact fits.draft mode
    | false =>
      rw [undrafted id live found mode entry member page foundPage]
      rfl

variable {before after : SequencePageTable} {generation : Nat} {sha256 : List UInt8 → Bytes32}

theorem matched_of_between {delta : PageTableDelta} (validBefore : Valid before) (validAfter : Valid after)
    (built : PageTableDelta.between sha256 before after generation (generation + 1) = .ok delta) :
    Matched before ∧ Matched after := by
  unfold PageTableDelta.between at built
  obtain ⟨_, _, built⟩ := bind_eq_ok.mp built
  split at built
  · cases built
  obtain ⟨_, normalizedBefore, built⟩ := bind_eq_ok.mp built
  obtain ⟨_, normalizedAfter, _⟩ := bind_eq_ok.mp built
  exact ⟨matched_of_normalized validBefore normalizedBefore, matched_of_normalized validAfter normalizedAfter⟩

theorem fromTable_eq {t : SequencePageTable} {mirror : PageTableMirror} (valid : Valid t) (matched : Matched t)
    (mirrored : PageTableMirror.fromTable t generation = .ok mirror) :
    mirror = ⟨t.config, generation, mirrorSequences t⟩ ∧
      PageTableMirror.validate ⟨t.config, generation, mirrorSequences t⟩ = .ok () := by
  unfold PageTableMirror.fromTable at mirrored
  split at mirrored
  · cases mirrored
  obtain ⟨_, normalized, mirrored⟩ := bind_eq_ok.mp mirrored
  rw [normalizedSnapshots_ok valid matched] at normalized
  cases normalized
  obtain ⟨_, accepted, same⟩ := bind_eq_ok.mp mirrored
  cases same
  exact ⟨rfl, accepted⟩

theorem between_iff (validBefore : Valid before) (validAfter : Valid after)
    (same : before.config = after.config) (fewBefore : before.sequences.size ≤ 64)
    (fewAfter : after.sequences.size ≤ 64) (positive : generation ≠ 0) (small : generation + 1 < 2 ^ 64)
    (differ : mirrorSequences before ≠ mirrorSequences after) :
    (∃ delta, PageTableDelta.between sha256 before after generation (generation + 1) = .ok delta) ↔
      Matched before ∧ Matched after := by
  constructor
  · rintro ⟨delta, built⟩
    exact matched_of_between validBefore validAfter built
  · rintro ⟨matchedBefore, matchedAfter⟩
    refine ⟨sealedDelta sha256 before after generation, ?_⟩
    rw [between_eq sha256 validBefore validAfter matchedBefore matchedAfter same positive small]
    exact bind_eq_ok.mpr ⟨(), validateShape_ok validAfter matchedAfter fewBefore fewAfter positive small differ, rfl⟩

/-- Tables that the allocator reaches are mirrored exactly when target-only sequences share no drafted page. -/
theorem run_mirrored_iff (config : PageTableConfig) (start : SequencePageTable)
    (accepted : SequencePageTable.new config = .ok start) (calls : List TableCall)
    (few : (start.run calls).sequences.size ≤ 64) (generation : Nat) (positive : 1 ≤ generation)
    (sha256 : List UInt8 → Bytes32) :
    ((∃ mirror, PageTableMirror.fromTable (start.run calls) generation = .ok mirror) ↔
      TargetOnlyUndrafted (start.run calls)) ∧
    ∀ others, (start.run others).sequences.size ≤ 64 → generation + 1 < 2 ^ 64 →
      mirrorSequences (start.run calls) ≠ mirrorSequences (start.run others) →
      ((∃ delta, PageTableDelta.between sha256 (start.run calls) (start.run others) generation
          (generation + 1) = .ok delta) ↔
        TargetOnlyUndrafted (start.run calls) ∧ TargetOnlyUndrafted (start.run others)) := by
  obtain ⟨valid, same⟩ := run_valid accepted calls
  have nonzero : generation ≠ 0 := Nat.one_le_iff_ne_zero.mp positive
  rw [← matched_iff valid]
  refine ⟨fromTable_iff valid few nonzero, ?_⟩
  intro others fewOthers small differ
  obtain ⟨validOthers, sameOthers⟩ := run_valid accepted others
  rw [← matched_iff validOthers]
  exact between_iff valid validOthers (same.trans sameOthers.symm) few fewOthers nonzero small differ

def digestOf (byte : UInt8) : Bytes32 := List.Vector.replicate 32 byte

def sharedPage (draft : Option Bytes32) : PrefixPageAttachment :=
  ⟨digestOf 9, digestOf 1, if draft.isSome then 2 else 1, digestOf 2, digestOf 3, draft⟩

theorem drafting_prefix_mirrored : ∃ start, SequencePageTable.new ⟨2, 2⟩ = .ok start ∧
    ((∃ mirror, PageTableMirror.fromTable (start.run [.admitWithPrefix 1 true [sharedPage (some (digestOf 4))]])
        7 = .ok mirror) ↔
      TargetOnlyUndrafted (start.run [.admitWithPrefix 1 true [sharedPage (some (digestOf 4))]])) ∧
    ((∃ delta, PageTableDelta.between (fun _ => Bytes32.zero)
        (start.run [.admitWithPrefix 1 true [sharedPage (some (digestOf 4))]]) (start.run []) 7 8 = .ok delta) ↔
      TargetOnlyUndrafted (start.run [.admitWithPrefix 1 true [sharedPage (some (digestOf 4))]]) ∧
        TargetOnlyUndrafted (start.run [])) := by
  refine ⟨_, rfl, ?_⟩
  have both := run_mirrored_iff ⟨2, 2⟩ _ rfl [.admitWithPrefix 1 true [sharedPage (some (digestOf 4))]]
    (by decide) 7 (by decide) fun _ => Bytes32.zero
  refine ⟨both.1, both.2 [] (by decide) (by decide) fun same => ?_⟩
  exact absurd (congrArg (fun map => map.size) same) (by decide)

theorem shared_draft_not_mirrored : ∃ start, SequencePageTable.new ⟨2, 2⟩ = .ok start ∧
    (start.run [.admitWithPrefix 1 false [sharedPage none],
      .admitWithPrefix 2 true [sharedPage (some (digestOf 4))]]).sequences.size = 2 ∧
    PageTableMirror.fromTable (start.run [.admitWithPrefix 1 false [sharedPage none],
      .admitWithPrefix 2 true [sharedPage (some (digestOf 4))]]) 7 = .error .page ∧
    PageTableDelta.between (fun _ => Bytes32.zero) (start.run [.admitWithPrefix 1 false [sharedPage none]])
      (start.run [.admitWithPrefix 1 false [sharedPage none],
        .admitWithPrefix 2 true [sharedPage (some (digestOf 4))]]) 7 8 = .error .page :=
  ⟨_, rfl, rfl, rfl, rfl⟩

/-- Applying the delta rebuilds the later mirror exactly when no id kept across it changed its mode. -/
theorem apply_rebuilds_iff (config : PageTableConfig) (start : SequencePageTable)
    (accepted : SequencePageTable.new config = .ok start) (calls more : List TableCall) (generation : Nat)
    (positive : 1 ≤ generation) (small : generation + 1 < 2 ^ 64) (sha256 : List UInt8 → Bytes32)
    (mirror next : PageTableMirror) (delta : PageTableDelta)
    (mirrored : PageTableMirror.fromTable (start.run calls) generation = .ok mirror)
    (nextMirrored : PageTableMirror.fromTable ((start.run calls).run more) (generation + 1) = .ok next)
    (built : PageTableDelta.between sha256 (start.run calls) ((start.run calls).run more) generation
      (generation + 1) = .ok delta) :
    mirror.apply sha256 delta = .ok next ↔ SameModes (start.run calls) ((start.run calls).run more) := by
  obtain ⟨valid, same⟩ := run_valid accepted calls
  obtain ⟨validNext, sameNext⟩ := run_valid accepted (calls ++ more)
  rw [SequencePageTable.run, List.foldl_append] at validNext sameNext
  change Valid ((start.run calls).run more) at validNext
  change ((start.run calls).run more).config = config at sameNext
  have nonzero : generation ≠ 0 := Nat.one_le_iff_ne_zero.mp positive
  obtain ⟨matched, matchedNext⟩ := matched_of_between valid validNext built
  obtain rfl := (fromTable_eq valid matched mirrored).1
  obtain ⟨rfl, accepted⟩ := fromTable_eq validNext matchedNext nextMirrored
  rw [between_eq sha256 valid validNext matched matchedNext (same.trans sameNext.symm) nonzero small] at built
  obtain ⟨_, shape, sealed⟩ := bind_eq_ok.mp built
  cases sealed
  rw [sameNext] at accepted ⊢
  rw [same]
  exact apply_sealedDelta shape accepted

theorem growing_sequence_rebuilt : ∃ start mirror next delta, SequencePageTable.new ⟨2, 2⟩ = .ok start ∧
    PageTableMirror.fromTable (start.run [.admitWithPrefix 1 true [], .appendCommitted 1 3]) 5 = .ok mirror ∧
    PageTableDelta.between (fun _ => Bytes32.zero) (start.run [.admitWithPrefix 1 true [], .appendCommitted 1 3])
      ((start.run [.admitWithPrefix 1 true [], .appendCommitted 1 3]).run
        [.appendCommitted 1 70, .beginTentative 1 2]) 5 6 = .ok delta ∧
    (mirror.apply (fun _ => Bytes32.zero) delta = .ok next ↔
      SameModes (start.run [.admitWithPrefix 1 true [], .appendCommitted 1 3])
        ((start.run [.admitWithPrefix 1 true [], .appendCommitted 1 3]).run
          [.appendCommitted 1 70, .beginTentative 1 2])) :=
  ⟨_, _, _, _, rfl, rfl, rfl,
    apply_rebuilds_iff ⟨2, 2⟩ _ rfl _ _ 5 (by decide) (by decide) _ _ _ _ rfl rfl rfl⟩

theorem changed_mode_not_rebuilt : ∃ start mirror delta, SequencePageTable.new ⟨2, 2⟩ = .ok start ∧
    PageTableMirror.fromTable (start.run [.admitWithPrefix 1 false [], .appendCommitted 1 3]) 5 = .ok mirror ∧
    (∃ next, PageTableMirror.fromTable ((start.run [.admitWithPrefix 1 false [], .appendCommitted 1 3]).run
      [.removeSequence 1, .admitWithPrefix 1 true [], .appendCommitted 1 3]) 6 = .ok next) ∧
    PageTableDelta.between (fun _ => Bytes32.zero)
      (start.run [.admitWithPrefix 1 false [], .appendCommitted 1 3])
      ((start.run [.admitWithPrefix 1 false [], .appendCommitted 1 3]).run
        [.removeSequence 1, .admitWithPrefix 1 true [], .appendCommitted 1 3]) 5 6 = .ok delta ∧
    mirror.apply (fun _ => Bytes32.zero) delta = .error .sequence :=
  ⟨_, _, _, rfl, rfl, ⟨_, rfl⟩, rfl, rfl⟩

end Reachable

section Replicas

/-- The mirror after `apply`, which leaves it as it was when it refuses the delta. -/
def receive (sha256 : List UInt8 → Bytes32) (mirror : PageTableMirror) (delta : PageTableDelta) : PageTableMirror :=
  match mirror.apply sha256 delta with
  | .ok next => next
  | .error _ => mirror

/-- The generation a mirror reaches when it takes each delta in its turn only. -/
def inTurn (reached delivered : Nat) : Nat := if delivered = reached then reached + 1 else reached

/-- The allocator's tables of `n` further generations, each with its mirror and the delta that leads to the next. -/
structure Publishes (sha256 : List UInt8 → Bytes32) (start : SequencePageTable) (tables : Nat → SequencePageTable)
    (mirrors : Nat → PageTableMirror) (deltas : Nat → PageTableDelta) (generation n : Nat) : Prop where
  run : ∀ k, ∃ calls, tables k = start.run calls
  mirrored : ∀ k ≤ n, PageTableMirror.fromTable (tables k) (generation + k) = .ok (mirrors k)
  built : ∀ k < n, PageTableDelta.between sha256 (tables k) (tables (k + 1)) (generation + k) (generation + k + 1) =
    .ok (deltas k)
  modes : ∀ k < n, SameModes (tables k) (tables (k + 1))

theorem fromTable_generation {t : SequencePageTable} {generation : Nat} {mirror : PageTableMirror}
    (mirrored : PageTableMirror.fromTable t generation = .ok mirror) : mirror.generation = generation := by
  unfold PageTableMirror.fromTable at mirrored
  split at mirrored
  · cases mirrored
  obtain ⟨_, _, mirrored⟩ := bind_eq_ok.mp mirrored
  obtain ⟨_, _, same⟩ := bind_eq_ok.mp mirrored
  cases same
  rfl

variable {sha256 : List UInt8 → Bytes32} {start : SequencePageTable} {tables : Nat → SequencePageTable}
  {mirrors : Nat → PageTableMirror} {deltas : Nat → PageTableDelta} {generation n : Nat} {config : PageTableConfig}

theorem Publishes.receive_eq (publishes : Publishes sha256 start tables mirrors deltas generation n)
    (accepted : SequencePageTable.new config = .ok start) (positive : 1 ≤ generation) (small : generation + n < 2 ^ 64)
    {k i : Nat} (within : k ≤ n) (inside : i < n) :
    receive sha256 (mirrors k) (deltas i) = mirrors (inTurn k i) := by
  have valid (k : Nat) : Valid (tables k) ∧ (tables k).config = config := by
    obtain ⟨calls, same⟩ := publishes.run k
    exact same ▸ run_valid accepted calls
  have built := publishes.built i inside
  obtain ⟨matched, matchedNext⟩ := matched_of_between (valid i).1 (valid (i + 1)).1 built
  rw [between_eq sha256 (valid i).1 (valid (i + 1)).1 matched matchedNext ((valid i).2.trans (valid (i + 1)).2.symm)
    (by omega) (by omega)] at built
  obtain ⟨_, shape, sealed⟩ := bind_eq_ok.mp built
  have isDelta : sealedDelta sha256 (tables i) (tables (i + 1)) (generation + i) = deltas i := Except.ok.inj sealed
  unfold receive
  by_cases turn : i = k
  · subst turn
    obtain ⟨isNext, accepts⟩ := fromTable_eq (valid (i + 1)).1 matchedNext (publishes.mirrored (i + 1) inside)
    have isMirror := (fromTable_eq (valid i).1 matched (publishes.mirrored i within)).1
    rw [(valid (i + 1)).2] at isNext accepts
    rw [(valid i).2] at isMirror
    rw [isMirror, ← isDelta, (apply_sealedDelta shape accepts).mpr (publishes.modes i inside), inTurn, if_pos rfl]
    exact isNext.symm
  · have stale : (mirrors k).generation ≠ (deltas i).generationBefore := by
      rw [fromTable_generation (publishes.mirrored k within), ← isDelta]
      exact fun same => turn (Nat.add_left_cancel same).symm
    rw [inTurn, if_neg turn]
    unfold PageTableMirror.apply
    cases (deltas i).verify sha256 with
    | error failure => rfl
    | ok =>
      simp only [bind, Except.bind, if_pos stale]
      rfl

/-- However the published deltas are applied to a mirror, out of order, repeated or not at all, it stays the allocator's
of the generation it has reached. -/
theorem replica_follows (publishes : Publishes sha256 start tables mirrors deltas generation n)
    (accepted : SequencePageTable.new config = .ok start) (positive : 1 ≤ generation) (small : generation + n < 2 ^ 64)
    (deliveries : List Nat) (published : ∀ i ∈ deliveries, i < n) :
    deliveries.foldl inTurn 0 ≤ n ∧
      (deliveries.map deltas).foldl (receive sha256) (mirrors 0) = mirrors (deliveries.foldl inTurn 0) := by
  suffices ∀ k ≤ n, deliveries.foldl inTurn k ≤ n ∧
      (deliveries.map deltas).foldl (receive sha256) (mirrors k) = mirrors (deliveries.foldl inTurn k) from
    this 0 (Nat.zero_le n)
  induction deliveries with
  | nil => exact fun k within => ⟨within, rfl⟩
  | cons i rest ih =>
    intro k within
    have inside := published i List.mem_cons_self
    rw [List.map_cons, List.foldl_cons, List.foldl_cons, publishes.receive_eq accepted positive small within inside]
    refine ih (fun j member => published j (List.mem_cons_of_mem _ member)) _ ?_
    unfold inTurn
    split <;> omega

/-- Two deltas that arrive in the wrong order, and then both once more. -/
theorem shuffled_deltas_followed : ∃ start, SequencePageTable.new ⟨2, 2⟩ = .ok start ∧
    let tables k := start.run ([.admitWithPrefix 1 true [], .appendCommitted 1 3].take k)
    let mirrors k : PageTableMirror := ⟨⟨2, 2⟩, 5 + k, mirrorSequences (tables k)⟩
    let deltas k := sealedDelta (fun _ => Bytes32.zero) (tables k) (tables (k + 1)) (5 + k)
    [deltas 1, deltas 0, deltas 1, deltas 0, deltas 1].foldl (receive fun _ => Bytes32.zero) (mirrors 0) = mirrors 2 := by
  refine ⟨_, rfl, ?_⟩
  intro tables mirrors deltas
  have publishes : Publishes (fun _ => Bytes32.zero) (tables 0) tables mirrors deltas 5 2 := by
    refine ⟨fun k => ⟨_, rfl⟩, fun k within => ?_, fun k inside => ?_, fun k inside => sameModes_iff.mpr ?_⟩
    · interval_cases k <;> rfl
    · interval_cases k <;> rfl
    · have modes : ∀ k < 2, ∀ entry ∈ (mirrorSequences (tables (k + 1))).toList,
          (mirrorSequences (tables k))[entry.1]?.all (·.mtp = entry.2.mtp) = true := by decide
      intro entry isIn prior found
      have same := modes k inside entry isIn
      rw [found] at same
      exact of_decide_eq_true same
  exact (replica_follows publishes (show SequencePageTable.new ⟨2, 2⟩ = _ from rfl) (by decide) (by decide)
    [1, 0, 1, 0, 1] (by decide)).2

end Replicas

end Glmaxx.Proof.Delta
