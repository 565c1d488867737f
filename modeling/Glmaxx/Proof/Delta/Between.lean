import Glmaxx.Proof.Delta.Mirror

namespace Glmaxx.Proof.Delta
open Std Library Cache Cache.SequencePageTable Sequence

variable {id : Nat} {entries : List (Nat × NormalizedSequence)} {current : ExtTreeMap Nat NormalizedSequence}

section Update
variable {next : NormalizedSequence}

theorem commonPrefix_spec (left right : List RankPageEntry) :
    commonPrefix left right ≤ left.length ∧ commonPrefix left right ≤ right.length ∧
      left.take (commonPrefix left right) = right.take (commonPrefix left right) := by
  induction left generalizing right with
  | nil => simp [commonPrefix]
  | cons a left ih =>
    cases right with
    | nil => simp [commonPrefix]
    | cons b right =>
      unfold commonPrefix
      split
      next same =>
        obtain ⟨boundLeft, boundRight, agree⟩ := ih right
        simp [same, agree, boundLeft, boundRight]
      next => simp

def firstChanged (prior : Option NormalizedSequence) (next : NormalizedSequence) : Nat :=
  prior.elim 0 fun prior => commonPrefix prior.pages next.pages

theorem firstChanged_le (prior : Option NormalizedSequence) (next : NormalizedSequence) :
    firstChanged prior next ≤ next.pages.length := by
  cases prior with
  | none => exact Nat.zero_le _
  | some prior => exact (commonPrefix_spec prior.pages next.pages).2.1

def updateOf (before : ExtTreeMap Nat NormalizedSequence) (entry : Nat × NormalizedSequence) :
    Option SequencePageUpdate :=
  if before[entry.1]? = some entry.2 then none
  else
    some { requestId := entry.1, mtp := entry.2.mtp, committedTokens := entry.2.committedTokens,
           tentativeTokens := entry.2.tentativeTokens, pageCountAfter := entry.2.pages.length,
           firstChangedOrdinal := firstChanged before[entry.1]? entry.2
           changedPages := entry.2.pages.drop (firstChanged before[entry.1]? entry.2) }

theorem sequenceUpdate_ok (before : ExtTreeMap Nat NormalizedSequence) (id : Nat)
    (short : next.pages.length < 2 ^ 32) :
    sequenceUpdate before (id, next) = .ok (updateOf before (id, next)) := by
  have bound := firstChanged_le before[id]? next
  have first : narrow 32 (firstChanged before[id]? next) = some (firstChanged before[id]? next) :=
    if_pos (by omega)
  have count : narrow 32 next.pages.length = some next.pages.length := if_pos short
  unfold sequenceUpdate updateOf
  dsimp only
  split
  · rfl
  · unfold firstChanged at first
    rw [first, count]
    rfl

theorem updatedSequence_updateOf {before : ExtTreeMap Nat NormalizedSequence}
    {update : SequencePageUpdate} (emitted : updateOf before (id, next) = some update) :
    update.requestId = id ∧ update.pageCountAfter = next.pages.length ∧
    ((∀ prior : NormalizedSequence, before[id]? = some prior → prior.mtp = next.mtp) →
      PageTableMirror.updatedSequence before[id]? update = .ok next) ∧
    ∀ (rebuilt prior : NormalizedSequence), PageTableMirror.updatedSequence before[id]? update = .ok rebuilt →
      before[id]? = some prior → prior.mtp = next.mtp := by
  unfold updateOf at emitted
  split at emitted
  · cases emitted
  cases emitted
  refine ⟨rfl, rfl, fun modes => ?_, fun rebuilt prior updated found => ?_⟩
  · cases found : before[id]? with
    | none => rfl
    | some prior =>
      obtain ⟨boundPrior, _, agree⟩ := commonPrefix_spec prior.pages next.pages
      have mode := modes prior found
      unfold PageTableMirror.updatedSequence
      refine (if_neg ?_).trans ?_
      · simp [mode, firstChanged, boundPrior]
      · simp only [firstChanged, Option.elim_some]
        rw [agree, List.take_append_drop, mode]
        rfl
  · rw [found] at updated
    by_contra other
    exact absurd ((if_pos (.inl other)).symm.trans updated) nofun

end Update

section Replay

theorem removeSequences_ok {removed : List Nat} {sequences : ExtTreeMap Nat NormalizedSequence}
    (present : ∀ id ∈ removed, id ∈ sequences) (distinct : removed.Nodup) :
    ∃ rest, PageTableMirror.removeSequences removed sequences = .ok rest ∧
      ∀ id, rest[id]? = if id ∈ removed then none else sequences[id]? := by
  induction removed generalizing sequences with
  | nil => exact ⟨sequences, rfl, by simp⟩
  | cons id removed ih =>
    obtain ⟨fresh, distinct⟩ := List.nodup_cons.mp distinct
    have left : ∀ other ∈ removed, other ∈ sequences.erase id := by
      intro other member
      have different : id ≠ other := fun same => fresh (same ▸ member)
      simpa [ExtTreeMap.mem_erase, different] using present other (List.mem_cons_of_mem _ member)
    obtain ⟨rest, ok, lookup⟩ := ih left distinct
    refine ⟨rest, ?_, ?_⟩
    · unfold PageTableMirror.removeSequences
      rw [if_pos (present id (List.mem_cons_self ..))]
      exact ok
    · intro other
      rw [lookup other]
      by_cases same : id = other
      · subst same
        simp
      · have different : ¬other = id := fun h => same h.symm
        simp [ExtTreeMap.getElem?_erase, same, different]

/-- The updates go through if no sequence changes its mode, and leave the map with the entries they were made from. -/
theorem updateSequences_iff {before result : ExtTreeMap Nat NormalizedSequence}
    (distinct : (entries.map (·.1)).Nodup) (same : ∀ entry ∈ entries, current[entry.1]? = before[entry.1]?) :
    PageTableMirror.updateSequences (entries.filterMap (updateOf before)) current = .ok result ↔
      (∀ entry ∈ entries, ∀ prior : NormalizedSequence, before[entry.1]? = some prior → prior.mtp = entry.2.mtp) ∧
        entries.foldl (fun m entry => m.insert entry.1 entry.2) current = result := by
  induction entries generalizing current with
  | nil => simp [PageTableMirror.updateSequences, pure, Except.pure]
  | cons entry entries ih =>
    obtain ⟨id, next⟩ := entry
    obtain ⟨fresh, distinct⟩ := List.nodup_cons.mp distinct
    have here : current[id]? = before[id]? := same (id, next) (List.mem_cons_self ..)
    have later : ∀ entry ∈ entries, (current.insert id next)[entry.1]? = before[entry.1]? := by
      intro entry member
      have different : entry.1 ≠ id := fun equal => fresh (equal ▸ List.mem_map_of_mem (f := (·.1)) member)
      rw [getElem?_insert_ne different]
      exact same entry (List.mem_cons_of_mem _ member)
    rw [List.forall_mem_cons, and_assoc, List.foldl_cons, ← ih distinct later]
    cases emitted : updateOf before (id, next) with
    | none =>
      have unchanged : before[id]? = some next := by
        unfold updateOf at emitted
        split at emitted
        next unchanged => exact unchanged
        next => cases emitted
      rw [List.filterMap_cons_none emitted, insert_of_getElem? (here.trans unchanged)]
      simp [unchanged]
    | some update =>
      obtain ⟨idEq, countEq, rebuilds, modeOf⟩ := updatedSequence_updateOf emitted
      rw [List.filterMap_cons_some emitted, PageTableMirror.updateSequences, idEq, here, bind_eq_ok]
      refine ⟨?_, fun ⟨modes, ok⟩ => ⟨next, rebuilds modes, ?_⟩⟩
      · rintro ⟨rebuilt, updated, ok⟩
        have modes := fun prior => modeOf rebuilt prior updated
        cases updated.symm.trans (rebuilds modes)
        rw [if_neg (by simp [countEq])] at ok
        exact ⟨modes, ok⟩
      · rw [if_neg (by simp [countEq])]
        exact ok

end Replay

section Tables
variable {before after : SequencePageTable} {generation : Nat}

def deltaOf (before after : ExtTreeMap Nat NormalizedSequence) (generation : Nat) : PageTableDelta where
  generationBefore := generation
  generationAfter := generation + 1
  updates := after.toList.filterMap (updateOf before)
  removedSequenceIds := before.keys.filter fun id => !after.contains id
  globalDigest := Bytes32.zero

theorem normalized_length {t : SequencePageTable} (valid : Valid t) {next : NormalizedSequence}
    (found : (mirrorSequences t)[id]? = some next) : next.pages.length < 2 ^ 32 := by
  rw [getElem?_mirrorSequences, Option.map_eq_some_iff] at found
  obtain ⟨live, found, rfl⟩ := found
  have shape := valid.shape id live found
  have bound := shape.bound
  simp only [normalizedOf, List.length_map, shape.length_eq]
  simp only [maximumContextTokens, pageTokens, pageCount] at *
  omega

theorem validateGenerations_ok (positive : generation ≠ 0) (small : generation + 1 < 2 ^ 64) :
    validateGenerations generation (generation + 1) = .ok () := by
  have added : checkedAdd 64 generation 1 = some (generation + 1) := if_pos small
  exact if_neg (by simp [positive, added])

theorem between_eq (sha256 : List UInt8 → Bytes32) (validBefore : Valid before) (validAfter : Valid after)
    (matchedBefore : Matched before) (matchedAfter : Matched after) (same : before.config = after.config)
    (positive : generation ≠ 0) (small : generation + 1 < 2 ^ 64) :
    PageTableDelta.between sha256 before after generation (generation + 1) =
      (do
        let delta := deltaOf (mirrorSequences before) (mirrorSequences after) generation
        delta.validateShape
        pure { delta with globalDigest := delta.computeGlobalDigest sha256 }) := by
  have generations := validateGenerations_ok positive small
  have updates : (mirrorSequences after).toList.mapM (sequenceUpdate (mirrorSequences before)) =
      .ok ((mirrorSequences after).toList.map (updateOf (mirrorSequences before))) := by
    refine mapM_ok_of_forall _ ?_
    rintro ⟨id, next⟩ member
    exact sequenceUpdate_ok _ id (normalized_length validAfter (mem_toList_iff.mp member))
  have collected : ((mirrorSequences after).toList.map (updateOf (mirrorSequences before))).reduceOption =
      (mirrorSequences after).toList.filterMap (updateOf (mirrorSequences before)) := by
    rw [List.reduceOption, List.filterMap_map]
    rfl
  unfold PageTableDelta.between
  rw [generations, if_neg (by simp [same]), normalizedSnapshots_ok validBefore matchedBefore,
    normalizedSnapshots_ok validAfter matchedAfter]
  show (do
    let updates ← (mirrorSequences after).toList.mapM (sequenceUpdate (mirrorSequences before))
    _) = _
  rw [updates]
  show (do
    PageTableDelta.validateShape ⟨_, _, List.reduceOption _, _, _⟩
    _) = _
  rw [collected]
  rfl

def SameModes (before after : SequencePageTable) : Prop :=
  ∀ (id : Nat) (prior next : Cache.Sequence), before.sequences[id]? = some prior →
    after.sequences[id]? = some next → prior.mtp = next.mtp

theorem sameModes_iff : SameModes before after ↔
    ∀ entry ∈ (mirrorSequences after).toList, ∀ prior : NormalizedSequence,
      (mirrorSequences before)[entry.1]? = some prior → prior.mtp = entry.2.mtp := by
  constructor
  · rintro modes ⟨id, next⟩ member prior found
    have foundNext := mem_toList_iff.mp member
    rw [getElem?_mirrorSequences, Option.map_eq_some_iff] at found foundNext
    obtain ⟨first, foundFirst, rfl⟩ := found
    obtain ⟨second, foundSecond, rfl⟩ := foundNext
    exact modes id first second foundFirst foundSecond
  · intro modes id prior next foundPrior foundNext
    refine modes (id, normalizedOf after next) ?_ (normalizedOf before prior) ?_
    · rw [mem_toList_iff, getElem?_mirrorSequences, foundNext]
      rfl
    · rw [getElem?_mirrorSequences, foundPrior]
      rfl

variable {sha256 : List UInt8 → Bytes32} {config : PageTableConfig}

def sealedDelta (sha256 : List UInt8 → Bytes32) (before after : SequencePageTable) (generation : Nat) :
    PageTableDelta :=
  let delta := deltaOf (mirrorSequences before) (mirrorSequences after) generation
  { delta with globalDigest := delta.computeGlobalDigest sha256 }

theorem apply_sealedDelta
    (shape : (deltaOf (mirrorSequences before) (mirrorSequences after) generation).validateShape = .ok ())
    (accepted : PageTableMirror.validate ⟨config, generation + 1, mirrorSequences after⟩ = .ok ()) :
    PageTableMirror.apply sha256 ⟨config, generation, mirrorSequences before⟩
      (sealedDelta sha256 before after generation) = .ok ⟨config, generation + 1, mirrorSequences after⟩ ↔
    SameModes before after := by
  have verified : (sealedDelta sha256 before after generation).verify sha256 = .ok () := by
    refine bind_eq_ok.mpr ⟨(), shape, ?_⟩
    exact if_neg (fun differs => differs rfl)
  have kept : ∀ id ∈ (mirrorSequences before).keys.filter (fun id => !(mirrorSequences after).contains id),
      id ∈ mirrorSequences before := fun id member =>
    ExtTreeMap.mem_keys.mp (List.mem_of_mem_filter member)
  have distinct : (mirrorSequences before).keys.Nodup := by
    rw [← ExtTreeMap.map_fst_toList_eq_keys]
    exact keys_nodup _
  obtain ⟨rest, removed, lookup⟩ := removeSequences_ok kept (distinct.filter _)
  have untouched : ∀ entry ∈ (mirrorSequences after).toList,
      rest[entry.1]? = (mirrorSequences before)[entry.1]? := by
    rintro ⟨id, next⟩ member
    rw [lookup, if_neg]
    intro gone
    have absent := (List.mem_filter.mp gone).2
    rw [ExtTreeMap.contains_eq_isSome_getElem?, mem_toList_iff.mp member] at absent
    cases absent
  unfold PageTableMirror.apply
  rw [sameModes_iff]
  constructor
  · intro applied
    obtain ⟨_, _, applied⟩ := bind_eq_ok.mp applied
    split at applied
    · cases applied
    obtain ⟨middle, removedOk, applied⟩ := bind_eq_ok.mp applied
    obtain ⟨result, updatedOk, _⟩ := bind_eq_ok.mp applied
    obtain rfl : rest = middle := Except.ok.inj (removed.symm.trans removedOk)
    exact ((updateSequences_iff (keys_nodup _) untouched).mp updatedOk).1
  · intro modes
    have restored : (mirrorSequences after).toList.foldl (fun m entry => m.insert entry.1 entry.2) rest =
        mirrorSequences after := by
      apply ExtTreeMap.ext_getElem?
      intro id
      apply Option.ext
      intro next
      rw [getElem?_foldl_insert _ _ (keys_nodup _), mem_toList_iff, lookup]
      refine ⟨?_, .inl⟩
      rintro (found | ⟨outside, left⟩)
      · exact found
      split at left
      next => cases left
      next kept =>
        refine absurd (List.mem_filter.mpr ⟨ExtTreeMap.mem_keys.mpr ?_, ?_⟩) kept
        · exact ExtTreeMap.mem_iff_isSome_getElem?.mpr (left ▸ rfl)
        · rw [ExtTreeMap.map_fst_toList_eq_keys, ExtTreeMap.mem_keys] at outside
          simpa [← ExtTreeMap.contains_iff_mem] using outside
    refine bind_eq_ok.mpr ⟨(), verified, ?_⟩
    rw [if_neg (fun differs => differs rfl)]
    refine bind_eq_ok.mpr ⟨rest, removed, ?_⟩
    refine bind_eq_ok.mpr ⟨_, (updateSequences_iff (keys_nodup _) untouched).mpr ⟨modes, restored⟩, ?_⟩
    exact bind_eq_ok.mpr ⟨(), accepted, rfl⟩

end Tables

end Glmaxx.Proof.Delta
