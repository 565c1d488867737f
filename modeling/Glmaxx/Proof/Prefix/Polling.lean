import Glmaxx.Proof.Prefix.Restoring

namespace Glmaxx.Proof.Prefix
open Std Library Cache Serving Serving.PrefixRestoreCoordinator

variable {steps : Nat} {before : Lease} {handle : RestoreHandle} {result : RestoreResult}
  {original : List PendingPage}

variable {sha256 : List UInt8 → Bytes32} {ready : List (List UInt32 × RestoredPrefix)} {id matched bound : Nat}
  {s₀ s s' : PrefixRestoreCoordinator} {pages done rest : List PendingPage} {page : PendingPage} {counter : Counter}
  {answers : RestoreAnswers} {asked : Nat → List UInt32} {restore : PendingRestore}

section Receive

theorem onRank_complete_ends (counter : Counter) (sound : RanksSound s) (rank : Fin 4) (result : RestoreResult) :
    Action.Ends (onRank rank (ResidencyManager.completeRestore counter result)) s
      (fun _ s' => ∃ before, leasesOf s rank result.page.record.pageKey = some before ∧
        before.restore = some ⟨result.requestId, result.pageOrdinal⟩ ∧
        Acts 1 (put (leasesOf s) rank result.page.record.pageKey { before with restore := none }) s s')
      (fun failure s' => failure ≠ .panicked ∧ s' = s) := by
  refine (onRank_ends (completeRestore_shifts counter result (sound rank))).mono ?_ ?_
  · rintro _ s' ⟨m', ⟨before, leased, pending, shifts⟩, rfl⟩
    exact ⟨before, leased, pending, acts_of_shifts sound shifts⟩
  · rintro _ s' ⟨failure, m', rfl, rfl, rfl⟩
    exact ⟨by simp, setRank_same⟩

theorem Flying.restate {state : PendingPageState} {after : Lease}
    (flying : Flying sha256 ready id matched s (done ++ page :: rest))
    (change : Restates id page state before after) (leased : leasesOf s page.rank page.key = some before)
    (acts : Acts steps (put (leasesOf s) page.rank page.key after) s s') :
    Flying sha256 ready id matched s' (done ++ { page with state := state } :: rest) := by
  refine ⟨by rw [acts.pending_eq]; exact flying.absent, ?_⟩
  rw [acts.index_eq, acts.pending_eq, acts.leases_eq]
  exact flying.coherent.restate change flying.absent leased

theorem tryReceive_ok {answer : Option (Except RestoreError (Option RestoredPage))} (ok : handle.tryReceive answer = .ok (some result)) :
    result.requestId = handle.request.requestId ∧ result.pageOrdinal = handle.request.pageOrdinal := by
  unfold RestoreHandle.tryReceive at ok
  split at ok
  · cases ok
  · cases ok
  obtain ⟨same, restored, ok⟩ := bind_eq_ok.mp ok
  cases ok
  unfold restoreOne at restored
  split at restored
  · cases restored
  split at restored
  · cases restored
  · cases restored
    exact ⟨rfl, rfl⟩

theorem Flying.completed_key {key : Bytes32} (flying : Flying sha256 ready id matched s (done ++ page :: rest))
    (leased : leasesOf s page.rank key = some before) (waiting : before.restore = some ⟨id, page.ordinal⟩) :
    key = page.key := by
  obtain ⟨restore, other, found, member, _, _, rfl, ordinal_eq⟩ :=
    flying.coherent.restoring page.rank key before _ leased waiting
  rw [getElem?_insert_ite, if_pos rfl] at found
  cases found
  have own := flying.coherent.in_flight
  have first := own.at_ordinal member
  rw [ordinal_eq, own.at_ordinal (by simp : page ∈ done ++ page :: rest)] at first
  rw [Option.some.inj first]

theorem receivePage_ends
    (flying : Flying sha256 ready id matched s (done ++ page :: rest)) (since : Since s₀ steps s)
    (room : Room counter bound)
    (below : ∀ rank, (s.ranks rank).stateGeneration + 2 + 2 * (done ++ page :: rest).length ≤ bound)
    (isHandle : page.state = .restoring handle) (received : handle.tryReceive (answers.response page.ordinal) =
      .ok (some result)) :
    Action.Ends (receivePage counter ⟨id, matched, original⟩ done rest page result) s
      (fun _ s' => Flying sha256 ready id matched s' (done ++ { page with state := .pinned } :: rest) ∧ Since s 2 s')
      (Failed sha256 ready s₀) := by
  have identity : result.requestId = id ∧ result.pageOrdinal = page.ordinal := by
    obtain ⟨id_eq, ordinal_eq⟩ := tryReceive_ok received
    obtain ⟨handleId, handleOrdinal⟩ := flying.coherent.in_flight.handled page (by simp) handle isHandle
    exact ⟨id_eq.trans handleId, ordinal_eq.trans handleOrdinal⟩
  unfold receivePage
  have completing := onRank_complete_ends counter since.sound page.rank result
  cases outcome : onRank page.rank (ResidencyManager.completeRestore counter result) s with
  | mk first middle =>
    unfold Action.Ends at completing
    rw [outcome] at completing
    cases first with
    | error failure =>
      obtain ⟨calm, rfl⟩ := completing
      refine Action.Ends.step (Action.attempt_error outcome) ?_
      exact flying.rollbackOrKeep_fails since room (fun rank => by have := below rank; omega) calm
    | ok _ =>
      obtain ⟨before, leased, waiting, acts⟩ := completing
      refine Action.Ends.step (Action.attempt_ok outcome) ?_
      rw [identity.1, identity.2] at waiting
      have key_eq := flying.completed_key leased waiting
      rw [key_eq] at leased acts
      have change : Restates id page .resident before { before with restore := none } := by
        refine ⟨rfl, ?_, ?_, by simp [waits], by simp⟩
        · simp [isHandle]
        · simp [isHandle, waits]
      have resident := flying.restate change leased acts
      have pinning := onRank_pinHbm_ends counter acts.sound page.rank page.key
      cases pinned : onRank page.rank (ResidencyManager.pinHbm counter page.key) middle with
      | mk second last =>
        unfold Action.Ends at pinning
        rw [pinned] at pinning
        cases second with
        | error failure =>
          obtain ⟨calm, rfl⟩ := pinning
          refine Action.Ends.step (Action.attempt_error pinned) ?_
          refine resident.rollbackOrKeep_fails (since.trans acts.since) room (fun rank => ?_) calm
          have := below rank
          have := acts.generation_le rank
          simp only [List.length_append, List.length_cons] at *
          omega
        | ok _ =>
          obtain ⟨its, isLease, pinActs⟩ := pinning
          refine Action.Ends.step (Action.attempt_ok pinned) (Action.Ends.pure ⟨?_, ?_⟩)
          · exact resident.restate (restates_pinned page its) isLease pinActs
          · exact acts.since.trans pinActs.since

theorem pollPages_ends
    (flying : Flying sha256 ready id matched s (done ++ rest)) (since : Since s₀ steps s) (room : Room counter bound)
    (below : ∀ rank, (s.ranks rank).stateGeneration + 2 * rest.length + 2 * (done ++ rest).length ≤ bound)
    (held : ∀ page ∈ done ++ rest, Held page) :
    Action.Ends (pollPages counter answers ⟨id, matched, original⟩ done rest) s
      (fun pages s' => Flying sha256 ready id matched s' pages ∧ (∃ steps', Since s₀ steps' s') ∧
        (∀ page ∈ pages, Held page) ∧ pages.map (·.key) = (done ++ rest).map (·.key))
      (Failed sha256 ready s₀) := by
  induction rest generalizing s done steps with
  | nil =>
    rw [List.append_nil] at flying held ⊢
    exact Action.Ends.pure ⟨flying, ⟨steps, since⟩, held, rfl⟩
  | cons page rest ih =>
    have shape (page : PendingPage) : done ++ page :: rest = (done ++ [page]) ++ rest := by simp
    have skip : Action.Ends (pollPages counter answers ⟨id, matched, original⟩ (done ++ [page]) rest) s
        (fun pages s' => Flying sha256 ready id matched s' pages ∧ (∃ steps', Since s₀ steps' s') ∧
          (∀ page ∈ pages, Held page) ∧ pages.map (·.key) = (done ++ page :: rest).map (·.key))
        (Failed sha256 ready s₀) := by
      rw [shape page] at flying held below ⊢
      exact ih flying since (fun rank => by have := below rank; rw [List.length_cons] at this; omega) held
    unfold pollPages
    cases isState : page.state with
    | pinned | resident | restoreReserved => exact skip
    | restoring handle =>
      dsimp only
      cases received : handle.tryReceive (answers.response page.ordinal) with
      | error failure =>
        exact flying.rollbackOrKeep_fails since room (fun rank => by have := below rank; omega) (by simp)
      | ok answer =>
        cases answer with
        | none => exact skip
        | some result =>
          refine (receivePage_ends flying since room (fun rank => ?_) isState received).bind ?_
          · have := below rank
            rw [List.length_cons] at this
            omega
          rintro _ s' ⟨flies, moved⟩
          rw [shape] at flies
          refine (ih flies (since.trans moved) (fun rank => ?_) fun other member => ?_).mono ?_ fun _ _ failed => failed
          · have := below rank
            have := moved.generation_le rank
            simp only [List.length_append, List.length_cons, List.length_nil] at *
            omega
          · simp only [List.mem_append, List.mem_cons, List.not_mem_nil, or_false] at member held
            rcases member with (early | rfl) | late
            · exact held other (.inl early)
            · exact .inl rfl
            · exact held other (.inr (.inr late))
          · rintro pages s'' ⟨last, since', allHeld, keys_eq⟩
            refine ⟨last, since', allHeld, ?_⟩
            rw [keys_eq]
            simp

end Receive

section Poll

theorem Whole.flying (whole : Whole sha256 asked ready s) (found : s.pending[id]? = some restore) :
    Flying sha256 ready id restore.matchedTokens { s with pending := s.pending.erase id } restore.pages := by
  have same : (⟨id, restore.matchedTokens, restore.pages⟩ : PendingRestore) = restore := by
    rw [← (whole.coherent.restores id restore found).id_eq]
  refine ⟨by simp, ?_⟩
  show Coherent sha256 s.index (leasesOf s) ready ((s.pending.erase id).insert id _)
  rw [same, insert_erase_of_getElem? found]
  exact whole.coherent

theorem Whole.stored_erase {other : Nat} (whole : Whole sha256 asked ready s)
    (found : (s.pending.erase id)[other]? = some restore) : StoredSound sha256 s.index (asked other) restore := by
  rw [ExtTreeMap.getElem?_erase] at found
  split at found
  · cases found
  · exact whole.stored other restore found

theorem pollRestore_ends (answers : RestoreAnswers) (whole : Whole sha256 asked ready s) (room : Room counter bound)
    (below : ∀ restore, s.pending[id]? = some restore →
      ∀ rank, (s.ranks rank).stateGeneration + 4 * restore.pages.length ≤ bound) :
    Action.Ends (pollRestore counter answers id) s
      (fun status s' => Whole sha256 asked (noted (asked id) ready status) s')
      (fun failure s' => (s.pending[id]? = none ∧ failure = .unknownRequest ∧ s' = s) ∨
        Failed sha256 ready { s with pending := s.pending.erase id } failure s') := by
  unfold pollRestore
  cases found : s.pending[id]? with
  | none =>
    refine Action.Ends.of_error (Action.bind_error (Action.updates_error ?_)) (.inl ⟨rfl, rfl, rfl⟩)
    rw [found]
    rfl
  | some restore =>
    have taken : takePending id s = (.ok restore, { s with pending := s.pending.erase id }) := by
      apply Action.updates_ok
      rw [found]
      rfl
    refine Action.Ends.step taken ?_
    have flying := whole.flying found
    have stored := whole.stored id restore found
    have id_eq := (whole.coherent.restores id restore found).id_eq
    obtain ⟨requestId, matchedTokens, pages⟩ := restore
    obtain rfl : requestId = id := id_eq
    have since : Since { s with pending := s.pending.erase requestId } 0 { s with pending := s.pending.erase requestId } :=
      Since.refl whole.ranks
    have noReserved : pages.any (fun page => page.state = .restoreReserved) = false := by
      rw [List.any_eq_false]
      intro page member
      rcases stored.held page member with pinned | ⟨handle, restoring⟩
      · simp [pinned]
      · simp [restoring]
    rw [noReserved]
    have flying : Flying sha256 ready requestId matchedTokens { s with pending := s.pending.erase requestId } ([] ++ pages) :=
      flying
    refine ((pollPages_ends flying since room (fun rank => ?_) stored.held).mono
      (fun _ _ good => good) fun _ _ failed => .inr failed).bind ?_
    · have := below _ found rank
      simp only [List.nil_append] at *
      omega
    rintro pages' s' ⟨flies, ⟨steps, moved⟩, held, keys_eq⟩
    have lengths : pages'.length = pages.length := by
      have := congrArg List.length keys_eq
      simpa using this
    refine settle_ends flies moved.sound (fun other its isIts => ?_) ⟨?_, ?_, held⟩
    · rw [moved.pending_eq] at isIts
      rw [moved.index_eq]
      exact whole.stored_erase isIts
    · show pages'.map (·.key) = _
      rw [keys_eq, moved.index_eq, lengths]
      exact stored.keys_eq
    · show matchedTokens = pages'.length * _
      rw [lengths]
      exact stored.tokens_eq

theorem cancelRestore_ends (whole : Whole sha256 asked ready s) (room : Room counter bound)
    (below : ∀ restore, s.pending[id]? = some restore →
      ∀ rank, (s.ranks rank).stateGeneration + 4 * restore.pages.length ≤ bound) :
    Action.Ends (cancelRestore counter id) s
      (fun _ s' => Whole sha256 asked ready s' ∧ s'.index = s.index ∧ s'.pending = s.pending.erase id)
      (fun failure s' => s.pending[id]? = none ∧ failure = .unknownRequest ∧ s' = s) := by
  unfold cancelRestore
  refine Action.Ends.reads (fun restore isRestore => ?_) fun failure failed => ?_
  rotate_left
  · cases found : s.pending[id]? with
    | none =>
      rw [found] at failed
      cases failed
      exact ⟨rfl, rfl, rfl⟩
    | some restore =>
      rw [found] at failed
      cases failed
  have found := okOr_eq_ok.mp isRestore
  have flying := whole.flying found
  have id_eq := (whole.coherent.restores id restore found).id_eq
  obtain ⟨requestId, matchedTokens, pages⟩ := restore
  obtain rfl : requestId = id := id_eq
  obtain ⟨plan, isPlan, planned⟩ := flying.coherent.planRollback whole.ranks rfl
  have planned' : s.planPendingRollback ⟨requestId, matchedTokens, pages⟩ = .ok plan := isPlan
  refine Action.Ends.reads (fun same isSame => ?_) fun failure failed => ?_
  rotate_left
  · rw [planned'] at failed
    cases failed
  rw [planned'] at isSame
  cases isSame
  refine Action.Ends.step rfl ?_
  obtain ⟨s', ran, acts⟩ := flying.coherent.commitRollback whole.ranks room planned (fun rank => by
    have := below _ found rank
    show (s.ranks rank).stateGeneration + 2 * pages.length ≤ bound
    dsimp only at this
    omega)
  refine Action.Ends.of_ok ran ⟨⟨?_, acts.sound, fun other its isIts => ?_⟩, acts.index_eq, acts.pending_eq⟩
  · rw [acts.index_eq, acts.pending_eq, acts.leases_eq]
    exact flying.coherent.drop flying.absent fun _ _ => rfl
  · rw [acts.index_eq]
    rw [acts.pending_eq] at isIts
    exact whole.stored_erase isIts

end Poll

section Release

theorem tally_ok (xs : List RankPage) {counts : ExtTreeMap RankPage Nat}
    (bounded : ∀ page : RankPage, counts[page]?.getD 0 + xs.count page < 2 ^ 32) :
    ∃ counts', xs.foldlM countPin counts = .ok counts' ∧ ∀ page : RankPage, counts'[page]? =
      if page ∈ xs then some (counts[page]?.getD 0 + xs.count page) else counts[page]? := by
  induction xs generalizing counts with
  | nil => exact ⟨counts, rfl, by simp⟩
  | cons x xs ih =>
    have fits : checkedAdd 32 (counts[x]?.getD 0) 1 = some (counts[x]?.getD 0 + 1) := by
      have := bounded x
      rw [List.count_cons_self] at this
      exact if_pos (by omega)
    have first : countPin counts x = .ok (counts.insert x (counts[x]?.getD 0 + 1)) := by
      unfold countPin
      rw [fits]
      rfl
    have step (page : RankPage) : (counts.insert x (counts[x]?.getD 0 + 1))[page]?.getD 0 + xs.count page =
        counts[page]?.getD 0 + (x :: xs).count page := by
      rw [getElem?_insert_ite, List.count_cons]
      split
      next same =>
        rw [same]
        simp
        omega
      next different => simp [Ne.symm different]
    obtain ⟨counts', ran, get⟩ := @ih (counts.insert x (counts[x]?.getD 0 + 1)) fun page => by
      rw [step]
      exact bounded page
    refine ⟨counts', ?_, fun page => ?_⟩
    · rw [List.foldlM_cons, first]
      exact ran
    · rw [get, step]
      by_cases member : page ∈ xs
      · rw [if_pos member, if_pos (List.mem_cons_of_mem _ member)]
      · rw [if_neg member, getElem?_insert_ite]
        by_cases same : page = x
        · rw [if_pos same, if_pos (same ▸ List.mem_cons_self ..), List.count_cons, List.count_eq_zero.mpr member, same]
          simp
        · rw [if_neg same, if_neg (by simp [same, member])]

theorem mem_rankPages {keys : List PrefixPageKey} {its : RankPage} :
    its ∈ rankPages keys ↔ ∃ i, keys[i]? = some its.key ∧ its.rank = ownerRank i := by
  unfold rankPages
  simp only [List.mem_map, Prod.exists, List.mk_mem_zipIdx_iff_getElem?]
  constructor
  · rintro ⟨key, i, get, rfl⟩
    exact ⟨i, get, rfl⟩
  · rintro ⟨i, get, rank_eq⟩
    exact ⟨its.key, i, get, by rw [← rank_eq]⟩

theorem ResultSound.rankPages_nodup {index : PrefixIndex} {tokens : List UInt32} {restored : RestoredPrefix}
    (sound : ResultSound sha256 index tokens restored) : (rankPages restored.pageKeys).Nodup := by
  unfold rankPages
  have numbered : restored.pageKeys.zipIdx.Nodup := by
    refine List.Nodup.of_map (·.2) ?_
    rw [List.zipIdx_map_snd]
    exact List.nodup_range'
  refine List.Nodup.map_on ?_ numbered
  rintro ⟨key, i⟩ first ⟨other, j⟩ second same
  rw [List.mk_mem_zipIdx_iff_getElem?] at first second
  obtain rfl : key = other := (RankPage.mk.inj same).2
  rw [(sound.indexed i key first).unique (sound.indexed j key second)]

theorem release_ends {i : Nat} {result : List UInt32 × RestoredPrefix} (whole : Whole sha256 asked ready s)
    (get : ready[i]? = some result) (room : Room counter bound)
    (below : ∀ rank, (s.ranks rank).stateGeneration + result.2.pageKeys.length ≤ bound) :
    ∃ s', release counter result.2.pageKeys s = (.ok (), s') ∧ Whole sha256 asked (ready.eraseIdx i) s' := by
  have member := List.mem_of_getElem? get
  have sound := whole.coherent.results result member
  have distinct := sound.rankPages_nodup
  obtain ⟨entries, tallied, counts⟩ := @tally_ok (rankPages result.2.pageKeys) ∅ fun page => by
    have := List.nodup_iff_count_le_one.mp distinct page
    simp
    omega
  have isEntry {page : RankPage} {count : Nat} (found : entries[page]? = some count) :
      count = 1 ∧ page ∈ rankPages result.2.pageKeys := by
    rw [counts] at found
    split at found
    next inside =>
      cases found
      have := List.count_eq_one_of_mem distinct inside
      simp [this, inside]
    next => simp at found
  have each : ∀ entry ∈ entries.toList, ∃ before, leasesOf s entry.1.rank entry.1.key = some before ∧
      entry.2 ≠ 0 ∧ entry.2 ≤ before.pins := by
    rintro ⟨page, count⟩ listed
    obtain ⟨rfl, inside⟩ := isEntry (mem_toList_iff.mp listed)
    obtain ⟨j, isKey, rank_eq⟩ := mem_rankPages.mp inside
    obtain ⟨its, leased⟩ := whole.coherent.leased (sound.indexed j page.key isKey)
    rw [← rank_eq] at leased
    exact ⟨its, leased, by simp, whole.coherent.ready_pos member (List.mem_of_getElem? isKey) leased⟩
  have valid : entries.toList.forM s.validateUnpin = .ok () := by
    refine forM_ok_of_forall _ fun entry listed => ?_
    obtain ⟨before, leased, positive, enough⟩ := each entry listed
    unfold validateUnpin
    rw [validateUnpinCount_of_lease (whole.ranks _) leased positive enough]
    rfl
  have planned : s.planReleaseMany [result.2.pageKeys] = .ok ⟨entries⟩ := by
    unfold planReleaseMany
    rw [List.flatMap_singleton, tallied]
    show (entries.toList.forM s.validateUnpin >>= _) = _
    rw [valid]
    rfl
  have few : entries.toList.length ≤ result.2.pageKeys.length := by
    have subset : entries.toList.map (·.1) ⊆ rankPages result.2.pageKeys := by
      intro page inside
      obtain ⟨count, found⟩ := mem_keys.mp inside
      exact (isEntry found).2
    have := (List.subperm_of_subset (keys_nodup entries) subset).length_le
    simpa [rankPages] using this
  obtain ⟨s', leases', ran, acts, changed, kept⟩ := forM_acts (commitUnpin counter)
    (fun count before => { before with pins := before.pins - count })
    (fun count before => count ≠ 0 ∧ count ≤ before.pins) (commitUnpin_acts room) entries.toList (keys_nodup _)
    whole.ranks each (fun rank => by have := below rank; omega)
  have read : (Action.reads fun s => s.planReleaseMany [result.2.pageKeys] : Restores PrefixReleasePlan) s =
      (.ok ⟨entries⟩, s) := by
    show (s.planReleaseMany [result.2.pageKeys], s) = _
    rw [planned]
  refine ⟨s', ?_, ?_, acts.sound, fun other its isIts => ?_⟩
  · unfold release
    rw [Action.bind_ok read]
    exact ran
  · rw [acts.index_eq, acts.pending_eq, acts.leases_eq]
    refine whole.coherent.release get fun rank key => ?_
    by_cases inside : (⟨rank, key⟩ : RankPage) ∈ entries.toList.map (·.1)
    · obtain ⟨count, found⟩ := mem_keys.mp inside
      obtain ⟨rfl, isPage⟩ := isEntry found
      obtain ⟨j, isKey, _⟩ := mem_rankPages.mp isPage
      rw [changed (⟨rank, key⟩, 1) (mem_toList_iff.mpr found), if_pos (List.mem_of_getElem? isKey)]
    · rw [kept ⟨rank, key⟩ inside]
      cases leased : leasesOf s rank key with
      | none => rfl
      | some its =>
        rw [if_neg]
        · rfl
        intro isKey
        obtain ⟨j, isKey⟩ := List.getElem?_of_mem isKey
        have rank_eq := whole.coherent.owner (sound.indexed j key isKey) leased
        have listed := counts ⟨rank, key⟩
        rw [if_pos (mem_rankPages.mpr ⟨j, isKey, rank_eq⟩)] at listed
        exact inside (mem_keys.mpr ⟨_, listed⟩)
  · rw [acts.index_eq]
    rw [acts.pending_eq] at isIts
    exact whole.stored other its isIts

end Release

end Glmaxx.Proof.Prefix
