import Glmaxx.Proof.Prefix.Index
import Glmaxx.Proof.Prefix.Ledger
import Glmaxx.Serving.PrefixRestore

namespace Glmaxx.Proof.Prefix
open Std Library Cache Serving

variable {other : PendingPage} {rank : Fin 4} {key : Bytes32} {i : Nat} {its : Lease}
  {identity : PendingRestoreIdentity}

abbrev Leases := Fin 4 → Bytes32 → Option Lease

def put (leases : Leases) (rank : Fin 4) (key : Bytes32) (next : Lease) : Leases :=
  Function.update leases rank (Function.update (leases rank) key (some next))

theorem put_apply (leases : Leases) (rank r : Fin 4) (key k : Bytes32) (next : Lease) :
    put leases rank key next r k = if r = rank ∧ k = key then some next else leases r k := by
  unfold put
  by_cases sameRank : r = rank
  · subst sameRank
    rw [Function.update_self, Function.update_apply]
    simp
  · rw [Function.update_of_ne sameRank, if_neg (fun both => sameRank both.1)]

def waits : PendingPageState → Bool
  | .restoreReserved | .restoring _ => true
  | .pinned | .resident => false

def pinnedIn (pages : List PendingPage) (key : Bytes32) : Nat :=
  pages.countP fun page => page.state = .pinned ∧ page.key = key

def readyPins (ready : List (List UInt32 × RestoredPrefix)) (key : Bytes32) : Nat :=
  ready.countP fun result => result.2.pageKeys.contains key

def Attached (index : PrefixIndex) (key : PrefixPageKey) (attachment : PrefixPageAttachment) : Prop :=
  ∃ record, index.record key = some record ∧ PrefixPageAttachment.fromTierRecord record = .ok attachment

variable {sha256 : List UInt8 → Bytes32} {index : PrefixIndex} {leases leases' : Leases} {id matched : Nat}
  {ready : List (List UInt32 × RestoredPrefix)} {pending : ExtTreeMap Nat PendingRestore} {restore : PendingRestore}
  {page : PendingPage} {pages done rest : List PendingPage} {state : PendingPageState} {before after : Lease}

structure PageSound (index : PrefixIndex) (i : Nat) (page : PendingPage) : Prop where
  ordinal_eq : page.ordinal = i
  rank_eq : page.rank = ownerRank i
  indexed : IndexedAt index page.key i
  attached : Attached index page.key page.attachment

structure RestoreSound (index : PrefixIndex) (leases : Leases) (id : Nat) (restore : PendingRestore) : Prop where
  id_eq : restore.requestId = id
  each : ∀ i page, restore.pages[i]? = some page → PageSound index i page
  waiting : ∀ page ∈ restore.pages, waits page.state = true → ∃ its, leases page.rank page.key = some its ∧
    its.restore = some ⟨id, page.ordinal⟩
  handled : ∀ page ∈ restore.pages, ∀ handle, page.state = .restoring handle →
    handle.request.requestId = id ∧ handle.request.pageOrdinal = page.ordinal

structure ResultSound (sha256 : List UInt8 → Bytes32) (index : PrefixIndex) (tokens : List UInt32)
    (restored : RestoredPrefix) : Prop where
  keys_eq : restored.pageKeys = (index.deriveKeys sha256 tokens).take restored.pageKeys.length
  tokens_eq : restored.matchedTokens = restored.pageKeys.length * pageTokens
  indexed : ∀ (i : Nat) (key : PrefixPageKey), restored.pageKeys[i]? = some key → IndexedAt index key i
  attached : List.Forall₂ (Attached index) restored.pageKeys restored.pageAttachments

/-- The index, the four ledgers, the results in use and the restores under way agree. -/
structure Coherent (sha256 : List UInt8 → Bytes32) (index : PrefixIndex) (leases : Leases)
    (ready : List (List UInt32 × RestoredPrefix)) (pending : ExtTreeMap Nat PendingRestore) : Prop where
  indexSound : IndexSound index
  agrees : ∀ rank key record, (leases rank key).map (·.record) = some record ↔
    ∃ ordinal, IndexedAt index key ordinal ∧ rank = ownerRank ordinal ∧ index.record key = some record
  restores : ∀ (id : Nat) (restore : PendingRestore), pending[id]? = some restore → RestoreSound index leases id restore
  pins : ∀ rank key its, leases rank key = some its →
    its.pins = readyPins ready key + total pending fun _ restore => pinnedIn restore.pages key
  restoring : ∀ rank key its identity, leases rank key = some its → its.restore = some identity →
    ∃ restore page, pending[identity.requestId]? = some restore ∧ page ∈ restore.pages ∧ waits page.state = true ∧
      page.rank = rank ∧ page.key = key ∧ page.ordinal = identity.pageOrdinal
  results : ∀ result ∈ ready, ResultSound sha256 index result.1 result.2

section Pages

section
variable (sound : RestoreSound index leases id restore) (member : page ∈ restore.pages)
include sound member

theorem RestoreSound.at_ordinal : restore.pages[page.ordinal]? = some page := by
  obtain ⟨i, get⟩ := List.getElem?_of_mem member
  rwa [(sound.each i page get).ordinal_eq]

theorem RestoreSound.page_sound : PageSound index page.ordinal page :=
  sound.each _ _ (sound.at_ordinal member)

theorem RestoreSound.page_unique (otherMember : other ∈ restore.pages) (same : other.key = page.key) :
    other = page := by
  have ordinals : other.ordinal = page.ordinal :=
    (same ▸ (sound.page_sound otherMember).indexed).unique (sound.page_sound member).indexed
  have first := sound.at_ordinal otherMember
  rw [ordinals, sound.at_ordinal member] at first
  exact (Option.some.inj first).symm

end

theorem RestoreSound.keys_nodup (sound : RestoreSound index leases id restore) :
    (restore.pages.map (·.key)).Nodup := by
  rw [List.nodup_iff_injective_get]
  intro i j same
  simp only [List.get_eq_getElem, List.getElem_map] at same
  have inside (k : Fin (restore.pages.map (·.key)).length) : k.val < restore.pages.length := by
    simpa using k.isLt
  have first := (sound.each i.val _ (List.getElem?_eq_getElem (inside i))).indexed
  have second := (sound.each j.val _ (List.getElem?_eq_getElem (inside j))).indexed
  rw [same] at first
  exact Fin.ext (first.unique second)

theorem pinnedIn_append (pages more : List PendingPage) (key : Bytes32) :
    pinnedIn (pages ++ more) key = pinnedIn pages key + pinnedIn more key := List.countP_append

theorem pinnedIn_cons (page : PendingPage) (pages : List PendingPage) (key : Bytes32) :
    pinnedIn (page :: pages) key = pinnedIn pages key + if page.state = .pinned ∧ page.key = key then 1 else 0 := by
  unfold pinnedIn
  rw [List.countP_cons]
  simp

theorem pinnedIn_le_one (distinct : (pages.map (·.key)).Nodup) (key : Bytes32) : pinnedIn pages key ≤ 1 := by
  calc pinnedIn pages key ≤ (pages.map (·.key)).count key := by
        rw [List.count, List.countP_map]
        refine List.countP_mono_left fun page _ holds => ?_
        simp only [decide_eq_true_eq] at holds
        simp [holds.2]
    _ ≤ 1 := List.nodup_iff_count_le_one.mp distinct key

theorem pinnedIn_pos : 0 < pinnedIn pages key ↔ ∃ page ∈ pages, page.state = .pinned ∧ page.key = key := by
  unfold pinnedIn
  rw [List.countP_pos_iff]
  simp

end Pages

section Owners

section
variable (coherent : Coherent sha256 index leases ready pending)
include coherent

theorem Coherent.owner (indexed : IndexedAt index key i) (leased : leases rank key = some its) : rank = ownerRank i := by
  obtain ⟨j, other, rank_eq, _⟩ := (coherent.agrees rank key its.record).mp (by rw [leased]; rfl)
  rw [rank_eq, other.unique indexed]

theorem Coherent.leased (indexed : IndexedAt index key i) : ∃ its, leases (ownerRank i) key = some its := by
  obtain ⟨record, isRecord⟩ := record_of_indexedAt indexed
  have agrees := (coherent.agrees (ownerRank i) key record).mpr ⟨i, indexed, rfl, isRecord⟩
  obtain ⟨its, isLease, _⟩ := Option.map_eq_some_iff.mp agrees
  exact ⟨its, isLease⟩

theorem agrees_congr (same : ∀ rank key, (leases' rank key).map (·.record) = (leases rank key).map (·.record)) :
    ∀ rank key record, (leases' rank key).map (·.record) = some record ↔
      ∃ ordinal, IndexedAt index key ordinal ∧ rank = ownerRank ordinal ∧ index.record key = some record := by
  intro rank key record
  rw [same]
  exact coherent.agrees rank key record

end

end Owners

section Restate

structure Restates (id : Nat) (page : PendingPage) (state : PendingPageState) (before after : Lease) : Prop where
  record_eq : after.record = before.record
  pins_eq : after.pins + (if page.state = .pinned then 1 else 0) = before.pins + if state = .pinned then 1 else 0
  restore_eq : after.restore = if waits state then some ⟨id, page.ordinal⟩ else
    if waits page.state then none else before.restore
  free : waits state = true → waits page.state = false → before.restore = none
  handled : ∀ handle, state = .restoring handle →
    handle.request.requestId = id ∧ handle.request.pageOrdinal = page.ordinal

variable (coherent : Coherent sha256 index leases ready (pending.insert id ⟨id, matched, done ++ page :: rest⟩))

include coherent in
theorem Coherent.in_flight : RestoreSound index leases id ⟨id, matched, done ++ page :: rest⟩ :=
  coherent.restores id _ (by rw [getElem?_insert_ite, if_pos rfl])

include coherent in
theorem Coherent.apart (member : other ∈ done ∨ other ∈ rest) : other.key ≠ page.key := by
  intro same
  have distinct := coherent.in_flight.keys_nodup
  simp only [List.map_append, List.map_cons, List.nodup_append, List.nodup_cons] at distinct
  rcases member with early | late
  · exact distinct.2.2 _ (List.mem_map_of_mem early) _ (List.mem_cons_self ..) same
  · exact distinct.2.1.1 (same ▸ List.mem_map_of_mem late)

include coherent in
theorem Coherent.before_waits (leased : leases page.rank page.key = some before) (isWaiting : waits page.state = true) :
    before.restore = some ⟨id, page.ordinal⟩ := by
  obtain ⟨its, isLease, identity⟩ := coherent.in_flight.waiting page (by simp) isWaiting
  rw [leased] at isLease
  cases isLease
  exact identity

include coherent in
theorem Restates.keeps_wait (change : Restates id page state before after)
    (leased : leases page.rank page.key = some before)
    (waiting : before.restore = some identity) (foreign : identity.requestId ≠ id) : after.restore = some identity := by
  have pageFree : waits page.state = false := by
    by_contra isWaiting
    rw [Bool.not_eq_false] at isWaiting
    rw [coherent.before_waits leased isWaiting] at waiting
    cases waiting
    exact foreign rfl
  have stateFree : waits state = false := by
    by_contra isWaiting
    rw [Bool.not_eq_false] at isWaiting
    rw [change.free isWaiting pageFree] at waiting
    cases waiting
  rw [change.restore_eq, pageFree, stateFree]
  exact waiting

include coherent in
theorem Restates.restoreSound (change : Restates id page state before after) :
    RestoreSound index (put leases page.rank page.key after) id
      ⟨id, matched, done ++ { page with state := state } :: rest⟩ := by
  have sound := coherent.in_flight
  refine ⟨rfl, ?_, ?_, ?_⟩
  · intro i other get
    have inFlight := sound.each i
    dsimp only at get inFlight
    rw [List.getElem?_append] at get inFlight
    split at get
    next early =>
      rw [if_pos early] at inFlight
      exact inFlight other get
    next late =>
      rw [if_neg late] at inFlight
      cases place : i - done.length with
      | zero =>
        rw [place] at get inFlight
        cases get
        obtain ⟨ordinal_eq, rank_eq, indexed, attached⟩ := inFlight page rfl
        exact ⟨ordinal_eq, rank_eq, indexed, attached⟩
      | succ j =>
        rw [place] at get inFlight
        exact inFlight other get
  · intro other member isWaiting
    rw [List.mem_append, List.mem_cons] at member
    have elsewhere (inside : other ∈ done ∨ other ∈ rest) : ∃ its,
        put leases page.rank page.key after other.rank other.key = some its ∧ its.restore = some ⟨id, other.ordinal⟩ := by
      rw [put_apply, if_neg (fun both => coherent.apart inside both.2)]
      refine sound.waiting other ?_ isWaiting
      rcases inside with early | late
      · exact List.mem_append_left _ early
      · exact List.mem_append_right _ (List.mem_cons_of_mem _ late)
    rcases member with early | rfl | late
    · exact elsewhere (.inl early)
    · exact ⟨after, by rw [put_apply, if_pos ⟨rfl, rfl⟩], by rw [change.restore_eq, if_pos isWaiting]⟩
    · exact elsewhere (.inr late)
  · intro other member handle isHandle
    rw [List.mem_append, List.mem_cons] at member
    rcases member with early | rfl | late
    · exact sound.handled other (List.mem_append_left _ early) handle isHandle
    · exact change.handled handle isHandle
    · exact sound.handled other (List.mem_append_right _ (List.mem_cons_of_mem _ late)) handle isHandle

include coherent in
theorem Restates.others_sound (change : Restates id page state before after)
    (leased : leases page.rank page.key = some before) {other : Nat} (different : other ≠ id)
    (sound : RestoreSound index leases other restore) :
    RestoreSound index (put leases page.rank page.key after) other restore := by
  refine ⟨sound.id_eq, sound.each, fun its member isWaiting => ?_, sound.handled⟩
  obtain ⟨itsLease, isLease, identity⟩ := sound.waiting its member isWaiting
  rw [put_apply]
  split
  next same =>
    rw [same.1, same.2, leased] at isLease
    cases isLease
    exact ⟨after, rfl, change.keeps_wait coherent leased identity different⟩
  next => exact ⟨itsLease, isLease, identity⟩

include coherent in
theorem Restates.pins_sound (change : Restates id page state before after) (absent : pending[id]? = none)
    (leased : leases page.rank page.key = some before)
    (isLease : put leases page.rank page.key after rank key = some its) :
    its.pins = readyPins ready key + total (pending.insert id ⟨id, matched, done ++ { page with state := state } :: rest⟩)
      fun _ restore => pinnedIn restore.pages key := by
  have pins := coherent.pins
  simp only [total_insert_new _ _ absent, pinnedIn_append, pinnedIn_cons] at pins ⊢
  rw [put_apply] at isLease
  split at isLease
  next here =>
    cases isLease
    have old := pins page.rank page.key before leased
    have pins_eq := change.pins_eq
    rw [here.2]
    simp only [and_true] at old ⊢
    omega
  next elsewhere =>
    have old := pins rank key its isLease
    have apart : page.key ≠ key := by
      rintro rfl
      have indexed := (coherent.in_flight.page_sound (by simp : page ∈ done ++ page :: rest)).indexed
      exact elsewhere ⟨(coherent.owner indexed isLease).trans (coherent.owner indexed leased).symm, rfl⟩
    simp only [apart, and_false, if_false] at old ⊢
    exact old

include coherent in
theorem Restates.restoring_sound (change : Restates id page state before after)
    (leased : leases page.rank page.key = some before) (isLease : put leases page.rank page.key after rank key = some its)
    (waiting : its.restore = some identity) :
    ∃ restore other, (pending.insert id ⟨id, matched, done ++ { page with state := state } :: rest⟩)[identity.requestId]? =
      some restore ∧ other ∈ restore.pages ∧ waits other.state = true ∧ other.rank = rank ∧ other.key = key ∧
      other.ordinal = identity.pageOrdinal := by
  -- A wait that was there before is kept by the page that waits, unless that is the changed page itself.
  have old {its : Lease} (isLease : leases rank key = some its) (waiting : its.restore = some identity)
      (elsewhere : waits page.state = true → key ≠ page.key) :
      ∃ restore other, (pending.insert id ⟨id, matched, done ++ { page with state := state } :: rest⟩)[identity.requestId]? =
        some restore ∧ other ∈ restore.pages ∧ waits other.state = true ∧ other.rank = rank ∧ other.key = key ∧
        other.ordinal = identity.pageOrdinal := by
    obtain ⟨restore, other, found, member, isWaiting, rank_eq, key_eq, ordinal_eq⟩ :=
      coherent.restoring rank key its identity isLease waiting
    rw [getElem?_insert_ite] at found ⊢
    split at found
    next own =>
      cases found
      rw [if_pos own]
      refine ⟨_, other, rfl, ?_, isWaiting, rank_eq, key_eq, ordinal_eq⟩
      simp only [List.mem_append, List.mem_cons] at member ⊢
      rcases member with early | rfl | late
      · exact .inl early
      · exact absurd key_eq.symm (elsewhere isWaiting)
      · exact .inr (.inr late)
    next foreign =>
      rw [if_neg foreign]
      exact ⟨restore, other, found, member, isWaiting, rank_eq, key_eq, ordinal_eq⟩
  rw [put_apply] at isLease
  split at isLease
  next here =>
    cases isLease
    obtain ⟨rfl, rfl⟩ := here
    rw [change.restore_eq] at waiting
    split at waiting
    next isWaiting =>
      cases waiting
      refine ⟨_, { page with state := state }, by rw [getElem?_insert_ite, if_pos rfl], by simp, isWaiting, rfl, rfl, rfl⟩
    next =>
      split at waiting
      · cases waiting
      next free => exact old leased waiting fun isWaiting => absurd isWaiting free
  next elsewhere =>
    refine old isLease waiting fun _ same => elsewhere ?_
    subst same
    have indexed := (coherent.in_flight.page_sound (by simp : page ∈ done ++ page :: rest)).indexed
    exact ⟨(coherent.owner indexed isLease).trans (coherent.owner indexed leased).symm, rfl⟩

include coherent in
theorem Coherent.restate (change : Restates id page state before after) (absent : pending[id]? = none)
    (leased : leases page.rank page.key = some before) :
    Coherent sha256 index (put leases page.rank page.key after) ready
      (pending.insert id ⟨id, matched, done ++ { page with state := state } :: rest⟩) := by
  refine ⟨coherent.indexSound, agrees_congr coherent fun rank key => ?_, fun other restore found => ?_,
    fun rank key its => change.pins_sound coherent absent leased,
    fun rank key its identity => change.restoring_sound coherent leased, coherent.results⟩
  · rw [put_apply]
    split
    next here =>
      rw [here.1, here.2, leased]
      exact congrArg some change.record_eq
    next => rfl
  · rw [getElem?_insert_ite] at found
    split at found
    next own =>
      cases found
      rw [own]
      exact change.restoreSound coherent
    next foreign =>
      exact change.others_sound coherent leased foreign
        (coherent.restores other restore (by rw [getElem?_insert_ite, if_neg foreign]; exact found))

end Restate

end Glmaxx.Proof.Prefix
