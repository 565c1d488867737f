import Glmaxx.Proof.Prefix.Rollback

namespace Glmaxx.Proof.Prefix
open Std Library Cache Serving Serving.PrefixRestoreCoordinator

variable {steps : Nat} {leases : Leases} {α : Type} {failure : PrefixRestoreError} {asked : Nat → List UInt32}

variable {sha256 : List UInt8 → Bytes32} {ready : List (List UInt32 × RestoredPrefix)} {id matched bound : Nat}
  {s₀ s s' : PrefixRestoreCoordinator} {pages done rest : List PendingPage} {page : PendingPage} {counter : Counter}
  {answers : RestoreAnswers}

structure Since (s₀ : PrefixRestoreCoordinator) (steps : Nat) (s : PrefixRestoreCoordinator) : Prop where
  index_eq : s.index = s₀.index
  pending_eq : s.pending = s₀.pending
  sound : RanksSound s
  generation_le : ∀ rank, (s.ranks rank).stateGeneration ≤ (s₀.ranks rank).stateGeneration + steps

theorem Since.refl (sound : RanksSound s) : Since s 0 s := ⟨rfl, rfl, sound, fun _ => Nat.le_refl _⟩

theorem Acts.since (acts : Acts steps leases s s') : Since s steps s' :=
  ⟨acts.index_eq, acts.pending_eq, acts.sound, acts.generation_le⟩

theorem Since.trans {i j : Nat} (first : Since s₀ i s) (second : Since s j s') : Since s₀ (i + j) s' :=
  ⟨second.index_eq.trans first.index_eq, second.pending_eq.trans first.pending_eq, second.sound, fun rank => by
    have := first.generation_le rank
    have := second.generation_le rank
    omega⟩

/-- The restore `id`, held outside the map while it is worked on, has these pages. -/
structure Flying (sha256 : List UInt8 → Bytes32) (ready : List (List UInt32 × RestoredPrefix)) (id matched : Nat)
    (s : PrefixRestoreCoordinator) (pages : List PendingPage) : Prop where
  absent : s.pending[id]? = none
  coherent : Coherent sha256 s.index (leasesOf s) ready (s.pending.insert id ⟨id, matched, pages⟩)

theorem Flying.acts (flying : Flying sha256 ready id matched s pages) (acts : Acts steps leases s s')
    (coherent : Coherent sha256 s.index leases ready (s.pending.insert id ⟨id, matched, pages⟩)) :
    Flying sha256 ready id matched s' pages :=
  ⟨by rw [acts.pending_eq]; exact flying.absent, by rw [acts.index_eq, acts.pending_eq, acts.leases_eq]; exact coherent⟩

/-- The restore is given up: all that is left of it are pages that moved between the tiers. -/
structure Failed (sha256 : List UInt8 → Bytes32) (ready : List (List UInt32 × RestoredPrefix))
    (s₀ : PrefixRestoreCoordinator) (failure : PrefixRestoreError) (s : PrefixRestoreCoordinator) : Prop where
  calm : failure ≠ .panicked
  index_eq : s.index = s₀.index
  pending_eq : s.pending = s₀.pending
  sound : RanksSound s
  coherent : Coherent sha256 s.index (leasesOf s) ready s.pending

section Failure

theorem Flying.rollback (flying : Flying sha256 ready id matched s pages) (since : Since s₀ steps s)
    (room : Room counter bound) (below : ∀ rank, (s.ranks rank).stateGeneration + 2 * pages.length ≤ bound) :
    ∃ s', rollbackPending counter ⟨id, matched, pages⟩ s = (.ok (), s') ∧
      ∀ failure, failure ≠ .panicked → Failed sha256 ready s₀ failure s' := by
  obtain ⟨s', ran, acts⟩ := flying.coherent.rollback since.sound room below
  refine ⟨s', ran, fun failure calm => ⟨calm, acts.index_eq.trans since.index_eq,
    acts.pending_eq.trans since.pending_eq, acts.sound, ?_⟩⟩
  rw [acts.index_eq, acts.pending_eq, acts.leases_eq]
  exact flying.coherent.drop flying.absent fun _ _ => rfl

theorem Flying.rollback_fails {good : α → PrefixRestoreCoordinator → Prop} (flying : Flying sha256 ready id matched s pages) (since : Since s₀ steps s)
    (room : Room counter bound) (below : ∀ rank, (s.ranks rank).stateGeneration + 2 * pages.length ≤ bound)
    (calm : failure ≠ .panicked) :
    Action.Ends (do rollbackPending counter ⟨id, matched, pages⟩; Action.fail failure : Restores α) s good
      (Failed sha256 ready s₀) := by
  obtain ⟨s', ran, failed⟩ := flying.rollback since room below
  exact Action.Ends.step ran (Action.Ends.fail (failed failure calm))

theorem Flying.rollbackOrKeep_fails {good : α → PrefixRestoreCoordinator → Prop} (flying : Flying sha256 ready id matched s pages)
    (since : Since s₀ steps s) (room : Room counter bound)
    (below : ∀ rank, (s.ranks rank).stateGeneration + 2 * pages.length ≤ bound) (calm : failure ≠ .panicked) :
    Action.Ends (do rollbackOrKeep counter ⟨id, matched, pages⟩; Action.fail failure : Restores α) s good
      (Failed sha256 ready s₀) := by
  obtain ⟨s', ran, failed⟩ := flying.rollback since room below
  have kept : rollbackOrKeep counter ⟨id, matched, pages⟩ s = (.ok (), s') := by
    unfold rollbackOrKeep
    rw [ran]
  exact Action.Ends.step kept (Action.Ends.fail (failed failure calm))

theorem orRollback_ends {action : Restores α} {good : α → PrefixRestoreCoordinator → Prop}
    (flying : Flying sha256 ready id matched s pages) (since : Since s₀ steps s) (room : Room counter bound)
    (below : ∀ rank, (s.ranks rank).stateGeneration + 1 + 2 * pages.length ≤ bound)
    (ends : Action.Ends action s good
      (fun failure s' => failure ≠ .panicked ∧ Acts 1 (leasesOf s) s s')) :
    Action.Ends (orRollback counter ⟨id, matched, pages⟩ action) s good (Failed sha256 ready s₀) := by
  unfold orRollback
  cases outcome : action s with
  | mk result s' =>
    unfold Action.Ends at ends
    rw [outcome] at ends
    cases result with
    | ok value => exact Action.Ends.step (Action.attempt_ok outcome) (Action.Ends.pure ends)
    | error failure =>
      obtain ⟨calm, acts⟩ := ends
      refine Action.Ends.step (Action.attempt_error outcome) ?_
      refine (flying.acts acts flying.coherent).rollback_fails (since.trans acts.since) room (fun rank => ?_) calm
      have := below rank
      have := acts.generation_le rank
      omega

end Failure

section Take

def Held (page : PendingPage) : Prop := page.state = .pinned ∨ ∃ handle, page.state = .restoring handle

theorem onRank_pinHbm_ends (counter : Counter) (sound : RanksSound s) (rank : Fin 4) (key : Bytes32) :
    Action.Ends (onRank rank (ResidencyManager.pinHbm counter key)) s
      (fun _ s' => ∃ before, leasesOf s rank key = some before ∧
        Acts 1 (put (leasesOf s) rank key { before with pins := before.pins + 1 }) s s')
      (fun failure s' => failure ≠ .panicked ∧ s' = s) := by
  refine (onRank_ends (pinHbm_shifts counter key (sound rank))).mono ?_ ?_
  · rintro _ s' ⟨m', ⟨before, leased, shifts⟩, rfl⟩
    exact ⟨before, leased, acts_of_shifts sound shifts⟩
  · rintro _ s' ⟨failure, m', rfl, rfl, rfl⟩
    exact ⟨by simp, setRank_same⟩

theorem Acts.idle (sound : RanksSound s) : Acts 1 (leasesOf s) s s := (Acts.refl sound).mono (by omega)

theorem onRank_promote_ends (counter : Counter) (sound : RanksSound s) (rank : Fin 4) (key : Bytes32) :
    Action.Ends (onRank rank do
        ResidencyManager.promoteDram counter key
        ResidencyManager.pinHbm counter key) s
      (fun _ s' => ∃ before, leasesOf s rank key = some before ∧
        Acts 2 (put (leasesOf s) rank key { before with pins := before.pins + 1 }) s s')
      (fun failure s' => failure ≠ .panicked ∧ Acts 1 (leasesOf s) s s') := by
  refine (onRank_ends (promoteDram_pinHbm_shifts counter key (sound rank))).mono ?_ ?_
  · rintro _ s' ⟨m', ⟨before, leased, shifts⟩, rfl⟩
    exact ⟨before, leased, acts_of_shifts sound shifts⟩
  · rintro _ s' ⟨failure, m', rfl, shifts, rfl⟩
    refine ⟨by simp, ?_⟩
    have acts := acts_of_shifts sound shifts
    rwa [show Function.update (leasesOf s) rank (lease (s.ranks rank)) = leasesOf s from Function.update_eq_self _ _] at acts

theorem onRank_begin_ends (counter : Counter) (sound : RanksSound s) (rank : Fin 4) (key : Bytes32)
    (requestId ordinal workerRank : Nat) :
    Action.Ends (onRank rank (ResidencyManager.beginRestore counter requestId key ordinal workerRank)) s
      (fun request s' => ∃ before, leasesOf s rank key = some before ∧ before.restore = none ∧
        Acts 1 (put (leasesOf s) rank key { before with restore := some ⟨requestId, ordinal⟩ }) s s' ∧
        request.requestId = requestId ∧ request.pageOrdinal = ordinal)
      (fun failure s' => failure ≠ .panicked ∧ Acts 1 (leasesOf s) s s') := by
  refine (onRank_ends (beginRestore_shifts counter requestId key ordinal workerRank (sound rank))).mono ?_ ?_
  · rintro request s' ⟨m', ⟨before, leased, free, shifts, rfl⟩, rfl⟩
    exact ⟨before, leased, free, acts_of_shifts sound shifts, rfl, rfl⟩
  · rintro _ s' ⟨failure, m', rfl, rfl, rfl⟩
    refine ⟨by simp, ?_⟩
    rw [setRank_same]
    exact Acts.idle sound

theorem Flying.add {state : PendingPageState} {before after : Lease}
    (flying : Flying sha256 ready id matched s pages) (sound : PageSound s.index pages.length page)
    (change : Restates id { page with state := .resident } state before after)
    (leased : leasesOf s page.rank page.key = some before)
    (acts : Acts steps (put (leasesOf s) page.rank page.key after) s s') :
    Flying sha256 ready id matched s' (pages ++ [{ page with state := state }]) := by
  have idle : PageSound s.index pages.length { page with state := .resident } := { sound with }
  have appended := flying.coherent.append flying.absent idle rfl
  have restated := appended.restate change flying.absent leased
  exact ⟨by rw [acts.pending_eq]; exact flying.absent, by
    rw [acts.index_eq, acts.pending_eq, acts.leases_eq]
    exact restated⟩

theorem restates_pinned (page : PendingPage) (before : Lease) :
    Restates id { page with state := .resident } .pinned before { before with pins := before.pins + 1 } :=
  ⟨rfl, by simp, by simp [waits], by simp [waits], by simp⟩

def Taken (sha256 : List UInt8 → Bytes32) (ready : List (List UInt32 × RestoredPrefix)) (id matched : Nat)
    (pages : List PendingPage) (page : PendingPage) (s : PrefixRestoreCoordinator) (state : PendingPageState)
    (s' : PrefixRestoreCoordinator) : Prop :=
  Flying sha256 ready id matched s' (pages ++ [{ page with state := state }]) ∧ Since s 2 s' ∧
    Held { page with state := state }

section
variable (flying : Flying sha256 ready id matched s pages) (since : Since s₀ steps s)
  (room : Room counter bound)
  (below : ∀ rank, (s.ranks rank).stateGeneration + 2 + 2 * (pages.length + 1) ≤ bound)
  (sound : PageSound s.index pages.length page) (reserved : page.state = .restoreReserved)
include flying since room below sound reserved

theorem submitPage_ends :
    Action.Ends (submitPage counter answers ⟨id, matched, pages⟩ page) s (Taken sha256 ready id matched pages page s)
      (Failed sha256 ready s₀) := by
  unfold submitPage
  refine (orRollback_ends flying since room (fun rank => by have := below rank; omega)
    (onRank_begin_ends counter since.sound page.rank page.key id page.ordinal page.rank)).bind ?_
  rintro request s' ⟨before, leased, free, acts, id_eq, ordinal_eq⟩
  have change (state : PendingPageState) (waiting : waits state = true)
      (handled : ∀ handle, state = .restoring handle →
        handle.request.requestId = id ∧ handle.request.pageOrdinal = page.ordinal) :
      Restates id { page with state := .resident } state before { before with restore := some ⟨id, page.ordinal⟩ } := by
    refine ⟨rfl, ?_, by rw [if_pos waiting], fun _ _ => free, handled⟩
    cases state with
    | pinned | resident => cases waiting
    | restoreReserved | restoring _ => simp
  cases submitted : trySubmit (answers.submission page.ordinal) request with
  | ok handle =>
    have isHandle : handle.request = request := by
      unfold trySubmit at submitted
      split at submitted
      · cases submitted
      split at submitted
      · cases submitted
      · cases submitted
        rfl
    refine Action.Ends.pure ⟨flying.add sound (change _ rfl ?_) leased acts, ?_, .inr ⟨handle, rfl⟩⟩
    · rintro _ ⟨⟩
      rw [isHandle]
      exact ⟨id_eq, ordinal_eq⟩
    · exact ⟨acts.index_eq, acts.pending_eq, acts.sound, fun rank => by have := acts.generation_le rank; omega⟩
  | error failure =>
    have kept := flying.add sound (change .restoreReserved rfl (by simp)) leased acts
    rw [← reserved] at kept
    refine kept.rollbackOrKeep_fails (since.trans acts.since) room (fun rank => ?_) (by simp)
    have := below rank
    have := acts.generation_le rank
    rw [List.length_append, List.length_singleton]
    omega

theorem takePage_ends (location : Option Residency) :
    Action.Ends (takePage counter answers ⟨id, matched, pages⟩ page location) s
      (Taken sha256 ready id matched pages page s) (Failed sha256 ready s₀) := by
  have below' : ∀ rank, (s.ranks rank).stateGeneration + 1 + 2 * pages.length ≤ bound := fun rank => by
    have := below rank
    omega
  have pinned {steps : Nat} {before : Lease} {s' : PrefixRestoreCoordinator} (few : steps ≤ 2)
      (leased : leasesOf s page.rank page.key = some before)
      (acts : Acts steps (put (leasesOf s) page.rank page.key { before with pins := before.pins + 1 }) s s') :
      Taken sha256 ready id matched pages page s .pinned s' :=
    ⟨flying.add sound (restates_pinned page before) leased acts, (acts.mono few).since, .inl rfl⟩
  match location with
  | some .hbm =>
    refine (orRollback_ends flying since room below'
      ((onRank_pinHbm_ends counter since.sound page.rank page.key).mono (fun _ _ holds => holds) ?_)).bind ?_
    · rintro failure s' ⟨calm, rfl⟩
      exact ⟨calm, Acts.idle since.sound⟩
    · rintro _ s' ⟨before, leased, acts⟩
      exact Action.Ends.pure (pinned (by omega) leased acts)
  | some .dram =>
    refine (orRollback_ends flying since room below'
      (onRank_promote_ends counter since.sound page.rank page.key)).bind ?_
    rintro _ s' ⟨before, leased, acts⟩
    exact Action.Ends.pure (pinned (by omega) leased acts)
  | some .nvme => exact submitPage_ends flying since room below sound reserved
  | some .restoring => exact flying.rollback_fails since room (fun rank => by have := below rank; omega) (by simp)
  | none => exact flying.rollback_fails since room (fun rank => by have := below rank; omega) (by simp)

end

end Take

section Begin

theorem beginPages_ends {keys : List PrefixPageKey} (flying : Flying sha256 ready id matched s pages)
    (since : Since s₀ steps s) (room : Room counter bound)
    (below : ∀ rank, (s.ranks rank).stateGeneration + 2 * (pages.length + keys.length) + 2 * keys.length ≤ bound)
    (held : ∀ page ∈ pages, Held page)
    (indexed : ∀ (i : Nat) (key : PrefixPageKey), keys[i]? = some key → IndexedAt s.index key (pages.length + i)) :
    Action.Ends (beginPages counter answers keys ⟨id, matched, pages⟩) s
      (fun restore s' => ∃ pages' steps', restore = ⟨id, matched, pages'⟩ ∧ Flying sha256 ready id matched s' pages' ∧
        Since s₀ steps' s' ∧ (∀ page ∈ pages', Held page) ∧ pages'.map (·.key) = pages.map (·.key) ++ keys)
      (Failed sha256 ready s₀) := by
  induction keys generalizing s pages steps with
  | nil => exact Action.Ends.pure ⟨pages, steps, rfl, flying, since, held, by simp⟩
  | cons key rest ih =>
    have here := indexed 0 key rfl
    obtain ⟨record, isRecord⟩ := record_of_indexedAt here
    obtain ⟨itsPage, found, rfl⟩ := page_of_record isRecord
    obtain ⟨attachment, isAttachment⟩ := fromTierRecord_of_valid (flying.coherent.indexSound.valid key itsPage found).1
    unfold beginPages
    refine Action.Ends.reads (fun same isSame => ?_) fun failure failed => ?_
    rotate_left
    · rw [isRecord] at failed
      cases failed
    rw [isRecord] at isSame
    cases isSame
    refine Action.Ends.reads (fun same isSame => ?_) fun failure failed => ?_
    rotate_left
    · rw [isAttachment] at failed
      cases failed
    rw [isAttachment] at isSame
    cases isSame
    refine Action.Ends.reads (fun location _ => ?_) fun failure failed => by cases failed
    dsimp only
    have pageSound : PageSound s.index pages.length
        ⟨key, pages.length, ownerRank pages.length, attachment, .restoreReserved⟩ :=
      ⟨rfl, rfl, here, itsPage.record, isRecord, isAttachment⟩
    rw [List.length_cons] at below
    refine (takePage_ends flying since room (fun rank => by have := below rank; omega) pageSound rfl location).bind ?_
    rintro state s' ⟨next, moved, isHeld⟩
    refine (ih next (since.trans moved) (fun rank => ?_) ?_ fun i other get => ?_).mono ?_ fun _ _ failed => failed
    · have := below rank
      have := moved.generation_le rank
      rw [List.length_append, List.length_singleton]
      omega
    · intro page member
      rcases List.mem_append.mp member with early | last
      · exact held page early
      · rw [List.mem_singleton.mp last]
        exact isHeld
    · have := indexed (i + 1) other get
      rw [moved.index_eq, List.length_append, List.length_singleton, Nat.add_assoc, Nat.add_comm 1 i]
      exact this
    · rintro restore s'' ⟨pages', steps', same, flies, moves, allHeld, keys_eq⟩
      refine ⟨pages', steps', same, flies, moves, allHeld, ?_⟩
      rw [keys_eq]
      simp

/-- A restore under way reads the first pages of the tokens it was asked for. -/
structure StoredSound (sha256 : List UInt8 → Bytes32) (index : PrefixIndex) (tokens : List UInt32)
    (restore : PendingRestore) : Prop where
  keys_eq : restore.pages.map (·.key) = (index.deriveKeys sha256 tokens).take restore.pages.length
  tokens_eq : restore.matchedTokens = restore.pages.length * pageTokens
  held : ∀ page ∈ restore.pages, Held page

structure Whole (sha256 : List UInt8 → Bytes32) (asked : Nat → List UInt32)
    (ready : List (List UInt32 × RestoredPrefix)) (s : PrefixRestoreCoordinator) : Prop where
  coherent : Coherent sha256 s.index (leasesOf s) ready s.pending
  ranks : RanksSound s
  stored : ∀ (id : Nat) (restore : PendingRestore), s.pending[id]? = some restore →
    StoredSound sha256 s.index (asked id) restore

def noted (tokens : List UInt32) (ready : List (List UInt32 × RestoredPrefix)) :
    PrefixRestoreStatus → List (List UInt32 × RestoredPrefix)
  | .pending => ready
  | .ready restored => ready ++ [(tokens, restored)]

theorem settle_ends {bad : PrefixRestoreError → PrefixRestoreCoordinator → Prop}
    (flying : Flying sha256 ready id matched s pages) (ranks : RanksSound s)
    (stored : ∀ (other : Nat) (restore : PendingRestore), s.pending[other]? = some restore →
      StoredSound sha256 s.index (asked other) restore)
    (own : StoredSound sha256 s.index (asked id) ⟨id, matched, pages⟩) :
    Action.Ends (settle ⟨id, matched, pages⟩) s
      (fun status s' => Whole sha256 asked (noted (asked id) ready status) s') bad := by
  unfold settle
  split
  next all =>
    have allPinned : ∀ page ∈ pages, page.state = .pinned := by simpa using all
    exact Action.Ends.pure
      ⟨flying.coherent.deliver flying.absent allPinned own.keys_eq own.tokens_eq, ranks, stored⟩
  next =>
    refine Action.Ends.of_ok rfl ⟨flying.coherent, ranks, fun other restore found => ?_⟩
    rw [getElem?_insert_ite] at found
    split at found
    next isOwn =>
      cases found
      rw [isOwn]
      exact own
    next => exact stored other restore found

theorem Coherent.deliver_empty {index : PrefixIndex} {pending : ExtTreeMap Nat PendingRestore}
    (coherent : Coherent sha256 index leases ready pending) (tokens : List UInt32) :
    Coherent sha256 index leases (ready ++ [(tokens, .empty)]) pending := by
  refine { coherent with pins := fun rank key its leased => ?_, results := fun result member => ?_ }
  · rw [readyPins_append, coherent.pins rank key its leased]
    simp [RestoredPrefix.empty]
  · rcases List.mem_append.mp member with old | new
    · exact coherent.results result old
    · rw [List.mem_singleton.mp new]
      exact ⟨rfl, rfl, fun i key get => by simp [RestoredPrefix.empty] at get, .nil⟩

theorem matchedPages_ok {found : Option PrefixMatch} {tokens : List UInt32} {requireDraft : Bool}
    (ok : s.matchedPages sha256 id tokens requireDraft = .ok found) :
    s.pending[id]? = none ∧ ∀ its, found = some its →
      s.index.longestMatchWithCapability sha256 tokens requireDraft = some its := by
  unfold matchedPages at ok
  split at ok
  · cases ok
  next fresh =>
  have absent : s.pending[id]? = none := by
    rw [not_or, Bool.not_eq_true, Option.isSome_eq_false_iff, Option.isNone_iff_eq_none] at fresh
    exact fresh.2
  refine ⟨absent, fun its isFound => ?_⟩
  split at ok
  · cases ok
    cases isFound
  next found isMatch =>
  obtain ⟨tokens, narrowed, ok⟩ := bind_eq_ok.mp ok
  cases ok
  cases isFound
  exact (narrow_eq_some.mp (okOr_eq_ok.mp narrowed)).2 ▸ isMatch

theorem Failed.of_same (whole : Whole sha256 asked ready s)
    (calm : failure ≠ .panicked) : Failed sha256 ready s failure s :=
  ⟨calm, rfl, rfl, whole.ranks, whole.coherent⟩

theorem beginRestore_ends (answers : RestoreAnswers) (id : Nat) (tokens : List UInt32) (requireDraft : Bool)
    (whole : Whole sha256 asked ready s) (room : Room counter bound)
    (below : ∀ rank, (s.ranks rank).stateGeneration + 4 * (tokens.length / pageTokens) ≤ bound) :
    Action.Ends (beginRestoreLongestWithCapability sha256 counter answers id tokens requireDraft) s
      (fun status s' => Whole sha256 (Function.update asked id tokens) (noted tokens ready status) s')
      (Failed sha256 ready s) := by
  unfold beginRestoreLongestWithCapability
  refine Action.Ends.reads (fun found isFound => ?_) fun failure failed => ?_
  rotate_left
  · refine Failed.of_same whole fun panicked => ?_
    subst panicked
    unfold matchedPages at failed
    split at failed
    · cases failed
    split at failed
    · cases failed
    next found _ =>
      cases narrowed : narrow 32 found.matchedTokens with
      | none | some count => rw [narrowed] at failed; cases failed
  obtain ⟨absent, isMatch⟩ := matchedPages_ok isFound
  have stored : ∀ (other : Nat) (restore : PendingRestore), s.pending[other]? = some restore →
      StoredSound sha256 s.index (Function.update asked id tokens other) restore := by
    intro other restore isRestore
    have different : other ≠ id := fun same => by
      rw [same, absent] at isRestore
      cases isRestore
    rw [Function.update_of_ne different]
    exact whole.stored other restore isRestore
  cases found with
  | none => exact Action.Ends.pure ⟨whole.coherent.deliver_empty tokens, whole.ranks, stored⟩
  | some its =>
    obtain ⟨keys_eq, tokens_eq, indexed⟩ := longestMatch_spec (isMatch its rfl)
    have few : its.pageKeys.length ≤ tokens.length / pageTokens := by
      have := congrArg List.length keys_eq
      rw [List.length_take, deriveKeys_length] at this
      omega
    have flying : Flying sha256 ready id its.matchedTokens s [] := ⟨absent, whole.coherent.start absent _⟩
    refine (beginPages_ends flying (Since.refl whole.ranks) room (fun rank => ?_) (by simp) fun i key get => ?_).bind ?_
    · have := below rank
      simp only [List.length_nil]
      omega
    · rw [List.length_nil, Nat.zero_add]
      exact indexed i key get
    · rintro restore s' ⟨pages, steps, rfl, flies, moved, held, pageKeys⟩
      rw [List.map_nil, List.nil_append] at pageKeys
      have lengths : pages.length = its.pageKeys.length := by rw [← pageKeys, List.length_map]
      have own : StoredSound sha256 s'.index (Function.update asked id tokens id) ⟨id, its.matchedTokens, pages⟩ := by
        rw [moved.index_eq, Function.update_self]
        refine ⟨?_, ?_, held⟩
        · show pages.map (·.key) = _
          rw [pageKeys, lengths]
          exact keys_eq
        · show its.matchedTokens = pages.length * _
          rw [lengths]
          exact tokens_eq
      refine (settle_ends flies moved.sound (fun other restore isRestore => ?_) own).mono (fun status s'' ended => ?_)
        fun _ _ failed => failed
      · rw [moved.pending_eq] at isRestore
        rw [moved.index_eq]
        exact stored other restore isRestore
      · rwa [Function.update_self] at ended

end Begin

end Glmaxx.Proof.Prefix
