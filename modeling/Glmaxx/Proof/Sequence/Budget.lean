import Glmaxx.Proof.Sequence.Shape

namespace Glmaxx.Proof.Sequence
open Std Library Cache Cache.SequencePageTable

variable {t t' t₁ : SequencePageTable} {held pages : List SequencePage} {rank : Fin 4} {mtp : Bool} {id c r n : Nat}
  {failure : SequencePageError} {room : Prop}

section Budget

theorem entriesOn_eq (entries : Entries t mtp c r pages) : entriesOn rank pages = ordinalsOn rank pages.length := by
  have ranks : pages.map (·.physical.ownerRank) = (List.range pages.length).map ownerRank := by
    refine List.ext_getElem (by simp) fun i inside _ => ?_
    rw [List.length_map] at inside
    have fits := entries i pages[i] (List.getElem?_eq_getElem inside)
    simpa using fits.rank_eq
  have counted := congrArg (List.countP (· = rank)) ranks
  simpa only [List.countP_map, entriesOn, ordinalsOn, Function.comp_def] using counted

def othersOn (rank : Fin 4) (id : Nat) (t : SequencePageTable) : Nat :=
  total (t.sequences.erase id) fun _ sequence => entriesOn rank sequence.pages

theorem leaves_othersOn (leaves : Leaves id t t') : othersOn rank id t' = othersOn rank id t := by
  have same : t'.sequences.erase id = t.sequences.erase id := by
    apply ExtTreeMap.ext_getElem?
    intro j
    by_cases own : id = j
    · simp [own]
    · simpa [ExtTreeMap.getElem?_erase, own] using leaves.sequences_eq j fun back => own back.symm
  unfold othersOn
  rw [same]

def Allows (t : SequencePageTable) (id : Nat) (mtp : Bool) (n : Nat) : Prop :=
  ∀ rank, othersOn rank id t + ordinalsOn rank n ≤ t.config.targetPagesPerRank ∧
    (mtp = true → othersOn rank id t + ordinalsOn rank n ≤ t.config.draftPagesPerRank)

/-- A table with the pages for `n` of sequence `id`, next to what the other sequences name. -/
structure Spare (t : SequencePageTable) (id : Nat) (mtp : Bool) (n : Nat) : Prop where
  clear : Unquarantined t
  allows : Allows t id mtp n

theorem Spare.of_leaves (spare : Spare t id mtp n) (kept : KeepsQuarantine t t') (leaves : Leaves id t t') :
    Spare t' id mtp n := by
  refine ⟨kept.clear spare.clear, fun rank => ?_⟩
  rw [leaves_othersOn leaves, leaves.moves.config_eq]
  exact spare.allows rank

theorem Spare.mono {m : Nat} (spare : Spare t id mtp n) (less : m ≤ n) : Spare t id mtp m := by
  refine ⟨spare.clear, fun rank => ?_⟩
  have smaller := ordinalsOn_mono rank less
  obtain ⟨target, draft⟩ := spare.allows rank
  refine ⟨by omega, fun drafts => ?_⟩
  have := draft drafts
  omega

/-- What is allowed for `n` pages leaves room for the one at each ordinal below `n`. -/
theorem Spare.roomy {m : Nat} (spare : Spare t id mtp n) (kept : KeepsQuarantine t t₁) (config : t₁.config = t.config)
    (below : m < n)
    (named : namedOn (ownerRank m) t₁ held = othersOn (ownerRank m) id t + ordinalsOn (ownerRank m) m) :
    Unquarantined t₁ ∧ Roomy (ownerRank m) mtp t₁ held := by
  have grows := ordinalsOn_mono (ownerRank m) (Nat.succ_le_of_lt below)
  rw [ordinalsOn_succ, if_pos rfl] at grows
  obtain ⟨target, draft⟩ := spare.allows (ownerRank m)
  refine ⟨kept.clear spare.clear, ?_⟩
  unfold Roomy
  rw [config]
  refine ⟨by omega, fun drafts => ?_⟩
  have := draft drafts
  omega

end Budget

section Loads

structure Load where
  mtp : Bool
  committedTokens : Nat
  reservedTokens : Nat
deriving DecidableEq

def loadOf (sequence : Cache.Sequence) : Load := ⟨sequence.mtp, sequence.committedTokens, reserved sequence⟩

def loads (t : SequencePageTable) : ExtTreeMap Nat Load := t.sequences.map fun _ => loadOf

def written (t : SequencePageTable) : TableCall → Option (Nat × Load)
  | .admitWithPrefix id mtp prefixPages => some (id, ⟨mtp, pageTokens * prefixPages.length, 0⟩)
  | .appendCommitted id tokenCount =>
    t.sequences[id]?.map fun sequence =>
      (id, ⟨sequence.mtp, sequence.committedTokens + tokenCount, reserved sequence⟩)
  | .forkSequence sourceId destinationId =>
    t.sequences[sourceId]?.map fun source => (destinationId, ⟨source.mtp, source.committedTokens, 0⟩)
  | .beginTentative id requestedTokens =>
    t.sequences[id]?.map fun sequence => (id, ⟨sequence.mtp, sequence.committedTokens, requestedTokens⟩)
  | _ => none

def loadsAfter (t : SequencePageTable) (call : TableCall) : ExtTreeMap Nat Load :=
  match written t call with
  | some (id, load) => (loads t).insert id load
  | none => loads t

def Grows : TableCall → Prop
  | .admitWithPrefix .. | .appendCommitted .. | .forkSequence .. | .beginTentative .. => True
  | _ => False

def Affords (t : SequencePageTable) (call : TableCall) : Prop :=
  ∀ id load, written t call = some (id, load) →
    Spare t id load.mtp (pageCount (load.committedTokens + load.reservedTokens))

theorem getElem?_loads (j : Nat) : (loads t)[j]? = t.sequences[j]?.map loadOf :=
  ExtTreeMap.getElem?_map

theorem loads_setSequence (leaves : Leaves id t t') (sequence : Cache.Sequence) :
    loads { t' with sequences := t'.sequences.insert id sequence } = (loads t).insert id (loadOf sequence) := by
  apply ExtTreeMap.ext_getElem?
  intro j
  rw [getElem?_loads]
  by_cases same : id = j
  · subst same
    simp
  · have other := leaves.sequences_eq j fun back => same back.symm
    simp [ExtTreeMap.getElem?_insert, same, other, getElem?_loads]

/-- A call that fails only in a `bad` way, and leaves the loads `after` when it succeeds. -/
structure Leads (bad : SequencePageError → Prop) (after : ExtTreeMap Nat Load)
    (served : Except SequencePageError Unit × SequencePageTable) : Prop where
  failure : ∀ failure, served.1 = .error failure → bad failure
  success : served.1 = .ok () → loads served.2 = after

variable {after : ExtTreeMap Nat Load}

theorem Leads.reject (valid : Valid t) (refusal : Refusal room failure) :
    Served t (.error failure, t) ∧ Leads (Refusal room) after (.error failure, t) :=
  ⟨Served.reject valid refusal.external, fun _ same => by cases same; exact refusal, nofun⟩

theorem transact_leads {body : SequencePageTable → Except SequencePageError SequencePageTable} (valid : Valid t)
    (h : Yields (body t) (fun t' => (Valid t' ∧ Moves t t') ∧ loads t' = after) (Refusal room)) :
    Served t (transact t body) ∧ Leads (Refusal room) after (transact t body) := by
  refine ⟨transact_served valid (h.mono (fun _ both => both.1) fun _ refusal => refusal.external), ?_⟩
  unfold transact
  cases outcome : body t with
  | ok next => exact ⟨nofun, fun _ => (h.value outcome).2⟩
  | error failure => exact (Leads.reject valid (h.failure outcome)).2

end Loads

end Glmaxx.Proof.Sequence
