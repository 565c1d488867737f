import Glmaxx.Proof.Prefix.Coherence

namespace Glmaxx.Proof.Prefix
open Std Library Cache Serving

variable {i n : Nat} {result : List UInt32 × RestoredPrefix} {its : Lease}

variable {sha256 : List UInt8 → Bytes32} {index index' : PrefixIndex} {leases leases' : Leases} {id matched : Nat}
  {ready ready' : List (List UInt32 × RestoredPrefix)} {pending : ExtTreeMap Nat PendingRestore}
  {restore : PendingRestore} {page : PendingPage} {pages : List PendingPage} {key : Bytes32} {rank : Fin 4}

def waitsFor (pages : List PendingPage) (key : Bytes32) : Bool :=
  pages.any fun page => waits page.state && decide (page.key = key)

theorem waitsFor_iff : waitsFor pages key = true ↔ ∃ page ∈ pages, waits page.state = true ∧ page.key = key := by
  simp [waitsFor]

section Opening

theorem Coherent.start (coherent : Coherent sha256 index leases ready pending) (absent : pending[id]? = none)
    (matched : Nat) : Coherent sha256 index leases ready (pending.insert id ⟨id, matched, []⟩) := by
  refine ⟨coherent.indexSound, coherent.agrees, fun other restore found => ?_, fun rank key its leased => ?_,
    fun rank key its identity leased waiting => ?_, coherent.results⟩
  · rw [getElem?_insert_ite] at found
    split at found
    next own =>
      cases found
      exact ⟨own.symm, fun i page get => by simp at get, by simp, by simp⟩
    next => exact coherent.restores other restore found
  · rw [coherent.pins rank key its leased, total_insert_new _ _ absent]
    simp [pinnedIn]
  · obtain ⟨restore, page, found, rest⟩ := coherent.restoring rank key its identity leased waiting
    refine ⟨restore, page, ?_, rest⟩
    rw [getElem?_insert_ite, if_neg (fun own => by rw [own, absent] at found; cases found)]
    exact found

theorem Coherent.append (coherent : Coherent sha256 index leases ready (pending.insert id ⟨id, matched, pages⟩))
    (absent : pending[id]? = none) (sound : PageSound index pages.length page) (idle : page.state = .resident) :
    Coherent sha256 index leases ready (pending.insert id ⟨id, matched, pages ++ [page]⟩) := by
  refine ⟨coherent.indexSound, coherent.agrees, fun other restore found => ?_, fun rank key its leased => ?_,
    fun rank key its identity leased waiting => ?_, coherent.results⟩
  · rw [getElem?_insert_ite] at found
    split at found
    next own =>
      cases found
      have old := coherent.restores id _ (by rw [getElem?_insert_ite, if_pos rfl])
      rw [own]
      refine ⟨rfl, fun i its get => ?_, fun its member isWaiting => ?_, fun its member handle isHandle => ?_⟩
      · dsimp only at get
        rw [List.getElem?_append] at get
        split at get
        next => exact old.each i its get
        next late =>
          rw [List.getElem?_singleton] at get
          split at get
          next last =>
            cases get
            obtain rfl : i = pages.length := by omega
            exact sound
          next => cases get
      · rcases List.mem_append.mp member with early | last
        · exact old.waiting its early isWaiting
        · rw [List.mem_singleton.mp last, idle] at isWaiting
          cases isWaiting
      · rcases List.mem_append.mp member with early | last
        · exact old.handled its early handle isHandle
        · rw [List.mem_singleton.mp last, idle] at isHandle
          cases isHandle
    next foreign => exact coherent.restores other restore (by rw [getElem?_insert_ite, if_neg foreign]; exact found)
  · rw [coherent.pins rank key its leased, total_insert_new _ _ absent, total_insert_new _ _ absent]
    simp [pinnedIn, idle]
  · obtain ⟨restore, page, found, member, rest⟩ := coherent.restoring rank key its identity leased waiting
    rw [getElem?_insert_ite] at found ⊢
    split at found
    next own =>
      cases found
      rw [if_pos own]
      exact ⟨_, page, rfl, List.mem_append_left _ member, rest⟩
    next foreign =>
      rw [if_neg foreign]
      exact ⟨restore, page, found, member, rest⟩

end Opening

section Closing

section
variable (coherent : Coherent sha256 index leases ready (pending.insert id restore))
  (absent : pending[id]? = none)
include coherent absent

theorem Coherent.close
    (records : ∀ rank key, (leases' rank key).map (·.record) = (leases rank key).map (·.record))
    (waitsLeft : ∀ rank key, (leases' rank key).map (·.restore) =
      (leases rank key).map fun its => if waitsFor restore.pages key then none else its.restore)
    (pins : ∀ rank key its, leases' rank key = some its →
      its.pins = readyPins ready' key + total pending fun _ restore => pinnedIn restore.pages key)
    (results : ∀ result ∈ ready', ResultSound sha256 index result.1 result.2) :
    Coherent sha256 index leases' ready' pending := by
  have own := coherent.restores id restore (by rw [getElem?_insert_ite, if_pos rfl])
  refine ⟨coherent.indexSound, agrees_congr coherent records, fun other its found => ?_, pins,
    fun rank key its identity leased waiting => ?_, results⟩
  · have different : other ≠ id := fun same => by
      rw [same, absent] at found
      cases found
    have sound := coherent.restores other its (by rw [getElem?_insert_ite, if_neg different]; exact found)
    refine ⟨sound.id_eq, sound.each, fun page member isWaiting => ?_, sound.handled⟩
    obtain ⟨itsLease, leased, identity⟩ := sound.waiting page member isWaiting
    have left := waitsLeft page.rank page.key
    rw [leased, Option.map_some] at left
    obtain ⟨new, isNew, restore_eq⟩ := Option.map_eq_some_iff.mp left
    refine ⟨new, isNew, ?_⟩
    rw [restore_eq, if_neg, identity]
    intro ownWait
    obtain ⟨ownPage, ownMember, ownWaiting, same⟩ := waitsFor_iff.mp ownWait
    obtain ⟨ownLease, isOwn, ownIdentity⟩ := own.waiting ownPage ownMember ownWaiting
    have indexed := (own.page_sound ownMember).indexed
    rw [same] at indexed isOwn
    rw [coherent.owner indexed isOwn, ← coherent.owner indexed leased, leased] at isOwn
    cases isOwn
    rw [identity, Option.some.injEq, PendingRestoreIdentity.mk.injEq] at ownIdentity
    exact different ownIdentity.1
  · have left := waitsLeft rank key
    rw [leased, Option.map_some] at left
    obtain ⟨old, isOld, restore_eq⟩ := Option.map_eq_some_iff.mp left.symm
    rw [waiting] at restore_eq
    split at restore_eq
    · cases restore_eq
    next free =>
    obtain ⟨other, page, found, member, isWaiting, rank_eq, key_eq, ordinal_eq⟩ :=
      coherent.restoring rank key old identity isOld restore_eq
    rw [getElem?_insert_ite] at found
    split at found
    next =>
      cases found
      exact absurd (waitsFor_iff.mpr ⟨page, member, isWaiting, key_eq⟩) free
    next => exact ⟨other, page, found, member, isWaiting, rank_eq, key_eq, ordinal_eq⟩

def undone (pages : List PendingPage) (key : Bytes32) (its : Lease) : Lease :=
  { its with
    pins := its.pins - pinnedIn pages key
    restore := if waitsFor pages key then none else its.restore }

theorem Coherent.drop (undo : ∀ rank key, leases' rank key = (leases rank key).map (undone restore.pages key)) :
    Coherent sha256 index leases' ready pending := by
  refine coherent.close absent (fun rank key => ?_) (fun rank key => ?_) (fun rank key its leased => ?_)
    coherent.results
  · rw [undo, Option.map_map]
    rfl
  · rw [undo, Option.map_map]
    rfl
  · rw [undo] at leased
    obtain ⟨old, isOld, rfl⟩ := Option.map_eq_some_iff.mp leased
    have pins := coherent.pins rank key old isOld
    rw [total_insert_new _ _ absent] at pins
    show old.pins - pinnedIn restore.pages key = _
    omega

end

theorem pinnedIn_of_all (sound : RestoreSound index leases id restore)
    (all : ∀ page ∈ restore.pages, page.state = .pinned) (key : Bytes32) :
    pinnedIn restore.pages key = if key ∈ restore.pages.map (·.key) then 1 else 0 := by
  have bound := pinnedIn_le_one sound.keys_nodup key
  split
  next member =>
    obtain ⟨page, isPage, same⟩ := List.mem_map.mp member
    have := pinnedIn_pos.mpr ⟨page, isPage, all page isPage, same⟩
    omega
  next absent =>
    by_contra positive
    obtain ⟨page, isPage, _, same⟩ := pinnedIn_pos.mp (Nat.pos_of_ne_zero positive)
    exact absent (List.mem_map.mpr ⟨page, isPage, same⟩)

theorem readyPins_append (ready : List (List UInt32 × RestoredPrefix)) (result : List UInt32 × RestoredPrefix)
    (key : Bytes32) :
    readyPins (ready ++ [result]) key = readyPins ready key + if key ∈ result.2.pageKeys then 1 else 0 := by
  unfold readyPins
  rw [List.countP_append, List.countP_singleton]
  simp

theorem Coherent.deliver {tokens : List UInt32}
    (coherent : Coherent sha256 index leases ready (pending.insert id restore)) (absent : pending[id]? = none)
    (all : ∀ page ∈ restore.pages, page.state = .pinned)
    (keys_eq : restore.pages.map (·.key) = (index.deriveKeys sha256 tokens).take restore.pages.length)
    (tokens_eq : restore.matchedTokens = restore.pages.length * pageTokens) :
    Coherent sha256 index leases (ready ++ [(tokens, ⟨restore.matchedTokens, restore.pages.map (·.key),
      restore.pages.map (·.attachment)⟩)]) pending := by
  have own := coherent.restores id restore (by rw [getElem?_insert_ite, if_pos rfl])
  refine coherent.close absent (fun _ _ => rfl) (fun rank key => ?_) (fun rank key its leased => ?_) ?_
  · have free : waitsFor restore.pages key = false := by
      rw [Bool.eq_false_iff]
      intro waiting
      obtain ⟨page, member, isWaiting, _⟩ := waitsFor_iff.mp waiting
      rw [all page member] at isWaiting
      cases isWaiting
    simp [free]
  · rw [coherent.pins rank key its leased, total_insert_new _ _ absent, readyPins_append, pinnedIn_of_all own all]
    dsimp only
    omega
  · intro result member
    rcases List.mem_append.mp member with old | new
    · exact coherent.results result old
    rw [List.mem_singleton.mp new]
    refine ⟨?_, ?_, fun i key get => ?_, ?_⟩
    · rw [List.length_map]
      exact keys_eq
    · rw [List.length_map]
      exact tokens_eq
    · rw [List.getElem?_map] at get
      obtain ⟨page, isPage, rfl⟩ := Option.map_eq_some_iff.mp get
      exact (own.each i page isPage).indexed
    · rw [List.forall₂_map_left_iff, List.forall₂_map_right_iff, List.forall₂_same]
      intro page isPage
      exact (own.page_sound isPage).attached

end Closing

section Releasing

theorem readyPins_eraseIdx (get : ready[i]? = some result) (key : Bytes32) :
    readyPins ready key = readyPins (ready.eraseIdx i) key + if key ∈ result.2.pageKeys then 1 else 0 := by
  obtain ⟨inside, rfl⟩ := List.getElem?_eq_some_iff.mp get
  have perm := List.getElem_cons_eraseIdx_perm inside
  unfold readyPins
  rw [← perm.countP_eq, List.countP_cons]
  simp

theorem Coherent.release (coherent : Coherent sha256 index leases ready pending) (get : ready[i]? = some result)
    (unpinned : ∀ rank key, leases' rank key = (leases rank key).map fun its =>
      { its with pins := its.pins - if key ∈ result.2.pageKeys then 1 else 0 }) :
    Coherent sha256 index leases' (ready.eraseIdx i) pending := by
  have same (rank : Fin 4) (key : Bytes32) : (leases' rank key).map (·.restore) = (leases rank key).map (·.restore) := by
    rw [unpinned, Option.map_map]
    rfl
  refine ⟨coherent.indexSound, agrees_congr coherent fun rank key => ?_, fun id restore found => ?_,
    fun rank key its leased => ?_, fun rank key its identity leased waiting => ?_,
    fun other member => coherent.results other (List.mem_of_mem_eraseIdx member)⟩
  · rw [unpinned, Option.map_map]
    rfl
  · have sound := coherent.restores id restore found
    refine ⟨sound.id_eq, sound.each, fun page member isWaiting => ?_, sound.handled⟩
    obtain ⟨its, leased, identity⟩ := sound.waiting page member isWaiting
    have kept := same page.rank page.key
    rw [leased, Option.map_some] at kept
    obtain ⟨new, isNew, restore_eq⟩ := Option.map_eq_some_iff.mp kept
    exact ⟨new, isNew, restore_eq.trans identity⟩
  · rw [unpinned] at leased
    obtain ⟨old, isOld, rfl⟩ := Option.map_eq_some_iff.mp leased
    have pins := coherent.pins rank key old isOld
    rw [readyPins_eraseIdx get] at pins
    show old.pins - (if key ∈ result.2.pageKeys then 1 else 0) = _
    omega
  · have kept := same rank key
    rw [leased, Option.map_some, waiting] at kept
    obtain ⟨old, isOld, restore_eq⟩ := Option.map_eq_some_iff.mp kept.symm
    exact coherent.restoring rank key old identity isOld restore_eq

end Releasing

section Registering

def Updates (index index' : PrefixIndex) (keys : List PrefixPageKey) (rank : Fin 4) (key : Bytes32) : Prop :=
  ∃ i, keys[i]? = some key ∧ rank = ownerRank i ∧ index'.record key ≠ index.record key

/-- The ledgers after the ranks have taken over the records that are new. -/
structure Registers (index index' : PrefixIndex) (keys : List PrefixPageKey) (leases leases' : Leases) : Prop where
  kept : ∀ rank key, ¬Updates index index' keys rank key → leases' rank key = leases rank key
  updated : ∀ rank key, Updates index index' keys rank key → ∃ next, index'.record key = some next ∧
    leases' rank key = some ⟨next, 0, none⟩ ∧ ∀ its, leases rank key = some its → its.pins = 0 ∧ its.restore = none

variable {keys : List PrefixPageKey} (inserts : Inserts index index' keys)
  (registers : Registers index index' keys leases leases') (coherent : Coherent sha256 index leases ready pending)

include inserts in
theorem Inserts.place (get : keys[i]? = some key) (indexed : IndexedAt index key n) : i = n :=
  (inserts.indexed i key get).unique (inserts.kept key n indexed)

include inserts in
theorem Inserts.record_eq (indexed : IndexedAt index key n)
    (kept : ¬Updates index index' keys (ownerRank n) key) : index'.record key = index.record key := by
  by_cases member : key ∈ keys
  · obtain ⟨i, get⟩ := List.getElem?_of_mem member
    by_contra changed
    exact kept ⟨i, get, by rw [inserts.place get indexed], changed⟩
  · rw [PrefixIndex.record, inserts.others key member, PrefixIndex.record]

include inserts registers in
theorem Registers.held_kept (indexed : IndexedAt index key n)
    (leased : leases (ownerRank n) key = some its) (held : 0 < its.pins ∨ its.restore ≠ none) :
    index'.record key = index.record key := by
  refine inserts.record_eq indexed fun updates => ?_
  obtain ⟨_, _, _, free⟩ := registers.updated _ _ updates
  obtain ⟨unpinned, idle⟩ := free its leased
  rcases held with pinned | waiting
  · omega
  · exact waiting idle

include inserts registers coherent in
theorem Registers.agrees (rank : Fin 4) (key : Bytes32) (record : TierRecord) :
    (leases' rank key).map (·.record) = some record ↔
      ∃ ordinal, IndexedAt index' key ordinal ∧ rank = ownerRank ordinal ∧ index'.record key = some record := by
  by_cases updates : Updates index index' keys rank key
  · obtain ⟨next, isNext, leased, _⟩ := registers.updated rank key updates
    obtain ⟨i, get, rank_eq, _⟩ := updates
    rw [leased, Option.map_some]
    refine ⟨fun same => ⟨i, inserts.indexed i key get, rank_eq, ?_⟩, ?_⟩
    · rw [isNext]
      exact same
    · rintro ⟨_, _, _, isRecord⟩
      rw [isNext] at isRecord
      exact isRecord
  · rw [registers.kept rank key updates, coherent.agrees rank key record]
    constructor
    · rintro ⟨n, indexed, rfl, isRecord⟩
      exact ⟨n, inserts.kept key n indexed, rfl, (inserts.record_eq indexed updates).trans isRecord⟩
    · rintro ⟨n, indexed, rfl, isRecord⟩
      have isOld : index.record key = some record := by
        by_cases member : key ∈ keys
        · obtain ⟨i, get⟩ := List.getElem?_of_mem member
          by_contra changed
          refine updates ⟨i, get, by rw [(inserts.indexed i key get).unique indexed], ?_⟩
          rw [isRecord]
          exact fun same => changed same.symm
        · rwa [PrefixIndex.record, inserts.others key member] at isRecord
      obtain ⟨page, found, _⟩ := page_of_record isOld
      obtain ⟨m, isIndexed⟩ := coherent.indexSound.placed key page found
      obtain rfl : m = n := (inserts.kept key m isIndexed).unique indexed
      exact ⟨m, isIndexed, rfl, isOld⟩

include inserts registers in
theorem Registers.attached {attachment : PrefixPageAttachment} (indexed : IndexedAt index key n)
    (leased : leases (ownerRank n) key = some its) (held : 0 < its.pins ∨ its.restore ≠ none)
    (attached : Attached index key attachment) : Attached index' key attachment := by
  obtain ⟨record, isRecord, isAttachment⟩ := attached
  exact ⟨record, (registers.held_kept inserts indexed leased held).trans isRecord, isAttachment⟩

include coherent in
theorem Coherent.pinned_pos (found : pending[id]? = some restore) (member : page ∈ restore.pages)
    (pinned : page.state = .pinned) (leased : leases rank page.key = some its) : 0 < its.pins := by
  rw [coherent.pins rank page.key its leased]
  have positive : 0 < pinnedIn restore.pages page.key := pinnedIn_pos.mpr ⟨page, member, pinned, rfl⟩
  have := le_total (fun _ restore => pinnedIn restore.pages page.key) found
  omega

include coherent in
theorem Coherent.ready_pos (member : result ∈ ready)
    (inside : key ∈ result.2.pageKeys) (leased : leases rank key = some its) : 0 < its.pins := by
  rw [coherent.pins rank key its leased]
  have positive : 0 < readyPins ready key := List.countP_pos_iff.mpr ⟨result, member, by simpa using inside⟩
  omega

include coherent in
theorem Coherent.unindexed_free (absent : ∀ n, ¬IndexedAt index key n) :
    readyPins ready key + total pending (fun _ restore => pinnedIn restore.pages key) = 0 := by
  have noReady : readyPins ready key = 0 := by
    by_contra positive
    obtain ⟨result, member, inside⟩ := List.countP_pos_iff.mp (Nat.pos_of_ne_zero positive)
    obtain ⟨i, get⟩ := List.getElem?_of_mem (List.contains_iff_mem.mp inside)
    exact absent i ((coherent.results result member).indexed i key get)
  have noPending : total pending (fun _ restore => pinnedIn restore.pages key) = 0 := by
    by_contra positive
    obtain ⟨id, restore, found, pinned⟩ := exists_of_total_pos _ (Nat.pos_of_ne_zero positive)
    obtain ⟨page, member, _, rfl⟩ := pinnedIn_pos.mp pinned
    exact absent _ ((coherent.restores id restore found).page_sound member).indexed
  omega

include inserts registers in
theorem Coherent.register (coherent : Coherent sha256 index leases ready pending)
    (held : ∀ (id : Nat) (restore : PendingRestore), pending[id]? = some restore →
      ∀ page ∈ restore.pages, page.state ≠ .resident) : Coherent sha256 index' leases' ready pending := by
  refine ⟨inserts.sound, registers.agrees inserts coherent, fun id restore found => ?_,
    fun rank key its leased => ?_, fun rank key its identity leased waiting => ?_, fun result member => ?_⟩
  · have sound := coherent.restores id restore found
    refine ⟨sound.id_eq, fun i page get => ?_, fun page member isWaiting => ?_, sound.handled⟩
    · obtain ⟨ordinal_eq, rank_eq, indexed, attached⟩ := sound.each i page get
      have member := List.mem_of_getElem? get
      obtain ⟨its, leased⟩ := coherent.leased indexed
      refine ⟨ordinal_eq, rank_eq, inserts.kept _ _ indexed, registers.attached inserts indexed leased ?_ attached⟩
      cases isState : page.state with
      | pinned => exact .inl (coherent.pinned_pos found member isState leased)
      | resident => exact absurd isState (held id restore found page member)
      | restoreReserved | restoring _ =>
        obtain ⟨same, isLease, identity⟩ := sound.waiting page member (by rw [isState]; rfl)
        rw [rank_eq, leased] at isLease
        cases isLease
        exact .inr (by rw [identity]; simp)
    · obtain ⟨its, leased, identity⟩ := sound.waiting page member isWaiting
      refine ⟨its, ?_, identity⟩
      rw [registers.kept, leased]
      intro updates
      obtain ⟨_, _, _, free⟩ := registers.updated _ _ updates
      rw [(free its leased).2] at identity
      cases identity
  · by_cases updates : Updates index index' keys rank key
    · obtain ⟨next, _, isLease, free⟩ := registers.updated rank key updates
      rw [leased] at isLease
      cases isLease
      symm
      cases old : leases rank key with
      | some its => rw [← coherent.pins rank key its old, (free its old).1]
      | none =>
        refine coherent.unindexed_free fun n indexed => ?_
        obtain ⟨i, get, rfl, _⟩ := updates
        obtain ⟨its, isLease⟩ := coherent.leased indexed
        rw [← inserts.place get indexed, old] at isLease
        cases isLease
    · rw [registers.kept rank key updates] at leased
      exact coherent.pins rank key its leased
  · refine coherent.restoring rank key its identity ?_ waiting
    rw [← leased, registers.kept]
    intro updates
    obtain ⟨next, _, isLease, _⟩ := registers.updated rank key updates
    rw [leased] at isLease
    cases isLease
    cases waiting
  · have sound := coherent.results result member
    refine ⟨?_, sound.tokens_eq, fun i key get => inserts.kept key i (sound.indexed i key get), ?_⟩
    · rw [PrefixIndex.deriveKeys, inserts.nameSpace_eq]
      exact sound.keys_eq
    · obtain ⟨lengths, each⟩ := List.forall₂_iff_zip.mp sound.attached
      refine List.forall₂_iff_zip.mpr ⟨lengths, fun {key attachment} inside => ?_⟩
      have isKey := (List.of_mem_zip inside).1
      obtain ⟨i, get⟩ := List.getElem?_of_mem isKey
      obtain ⟨its, leased⟩ := coherent.leased (sound.indexed i key get)
      exact registers.attached inserts (sound.indexed i key get) leased
        (.inl (coherent.ready_pos member isKey leased)) (each inside)

end Registering

end Glmaxx.Proof.Prefix
