import Glmaxx.Cache.Tier
import Glmaxx.Library.Run
import Glmaxx.Library.TreeMap

namespace Glmaxx.Proof.TierJournal
open Std Library Cache Cache.TierJournal

variable {next : TierJournal} {earlier later : TierRecord} {records : List TierRecord}
  {recovered : ExtTreeMap Bytes32 TierRecord}

variable {events : List JournalEvent} {event : JournalEvent} {journal : TierJournal} {record : TierRecord} {id : Nat}

section Replay

def stateOf (events : List JournalEvent) (id : Nat) : Option RecoveryState :=
  (begunRecord events id).map fun record => ⟨record, durablePieces events id, isPublished events id⟩

section
variable (events later : List JournalEvent) (id : Nat)

theorem begunRecord_append :
    begunRecord (events ++ later) id = (begunRecord events id).or (begunRecord later id) :=
  List.findSome?_append ..

theorem durablePieces_append :
    durablePieces (events ++ later) id = durablePieces events id ++ durablePieces later id :=
  List.filterMap_append ..

theorem isPublished_append : isPublished (events ++ later) id = (isPublished events id || isPublished later id) :=
  List.any_append ..

end

theorem isPublished_iff : isPublished events id = true ↔ .publish id ∈ events := by
  simp [isPublished]

theorem stateOf_other (other : event.transaction ≠ id) : stateOf (events ++ [event]) id = stateOf events id := by
  unfold stateOf
  rw [begunRecord_append, durablePieces_append, isPublished_append]
  cases event <;> simp_all [begunRecord, durablePieces, isPublished, JournalEvent.transaction]

theorem mem_of_begunRecord (begun : begunRecord events id = some record) : .begin id record ∈ events := by
  obtain ⟨event, member, found⟩ := List.exists_of_findSome?_eq_some begun
  cases event with
  | begin other old =>
    by_cases same : other = id
    · simp only [same, if_true, Option.some.injEq] at found
      exact same ▸ found ▸ member
    · simp [same] at found
  | pieceDurable | publish => cases found

theorem unknown (none : ∀ event ∈ events, event.transaction ≠ id) :
    begunRecord events id = .none ∧ durablePieces events id = [] ∧ isPublished events id = false := by
  induction events with
  | nil => exact ⟨rfl, rfl, rfl⟩
  | cons event rest ih =>
    obtain ⟨begun, durable, published⟩ := ih fun later member => none later (List.mem_cons_of_mem _ member)
    have other := none event (List.mem_cons_self ..)
    unfold begunRecord durablePieces isPublished at *
    cases event <;> simp_all [JournalEvent.transaction]

/-- Replaying the events meets no fault and finds what the live journal sees. -/
structure Replays (journal : TierJournal) : Prop where
  agrees : ∃ transactions, replay journal.events = .ok transactions ∧
    ∀ id : Nat, transactions[id]? = stateOf journal.events id
  numbered : ∀ event ∈ journal.events, event.transaction < journal.nextTransaction
  begun : ∀ id, 0 < id → id < journal.nextTransaction → ∃ record, .begin id record ∈ journal.events
  once : ∀ id record, .begin id record ∈ journal.events → begunRecord journal.events id = some record
  valid : ∀ id record, .begin id record ∈ journal.events → record.validate = .ok ()
  positive : 0 < journal.nextTransaction
  fits : journal.nextTransaction < 2 ^ 64

theorem replays_new : Replays new where
  agrees := ⟨∅, rfl, fun _ => ExtTreeMap.getElem?_empty⟩
  numbered := nofun
  begun id positive below := absurd positive (Nat.not_lt.mpr (Nat.lt_succ_iff.mp below))
  once := nofun
  valid := nofun
  positive := Nat.one_pos
  fits := by decide

theorem replay_append {transactions next : ExtTreeMap Nat RecoveryState} (replayed : replay events = .ok transactions)
    (replays : replayEvent transactions event = .ok next) : replay (events ++ [event]) = .ok next := by
  unfold replay at *
  rw [List.foldlM_append, replayed]
  exact bind_eq_ok.mpr ⟨transactions, rfl, bind_eq_ok.mpr ⟨next, replays, rfl⟩⟩

theorem agrees_insert {transactions : ExtTreeMap Nat RecoveryState} {state : RecoveryState}
    (agrees : ∀ id : Nat, transactions[id]? = stateOf events id)
    (here : stateOf (events ++ [event]) event.transaction = some state) (id : Nat) :
    (transactions.insert event.transaction state)[id]? = stateOf (events ++ [event]) id := by
  by_cases same : event.transaction = id
  · subst same
    rw [ExtTreeMap.getElem?_insert_self, here]
  · rw [getElem?_insert_ne (Ne.symm same), stateOf_other same, agrees]

theorem Replays.known (replays : Replays journal) (begun : begunRecord journal.events id = some record) :
    record.validate = .ok () ∧ id < journal.nextTransaction :=
  ⟨replays.valid id record (mem_of_begunRecord begun), replays.numbered _ (mem_of_begunRecord begun)⟩

theorem openRecord_ok (opened : journal.openRecord id = .ok record) :
    begunRecord journal.events id = some record ∧ isPublished journal.events id = false := by
  unfold openRecord at opened
  by_cases published : isPublished journal.events id = true
  · rw [if_pos published] at opened
    cases opened
  · rw [if_neg published] at opened
    exact ⟨okOr_eq_ok.mp opened, by simpa using published⟩

section
variable {transaction : Nat} {piece : TierPiece} {observed : Bytes32}

theorem begin_ok (begins : journal.begin record = .ok (transaction, next)) :
    ∃ number, record.validate = .ok () ∧ checkedAdd 64 journal.nextTransaction 1 = some number ∧
      transaction = journal.nextTransaction ∧
      next = ⟨journal.events ++ [.begin journal.nextTransaction record], number⟩ := by
  obtain ⟨⟨⟩, validated, begins⟩ := bind_eq_ok.mp begins
  obtain ⟨number, added, same⟩ := bind_eq_ok.mp begins
  cases same
  exact ⟨number, validated, okOr_eq_ok.mp added, rfl, rfl⟩

theorem pieceDurable_ok (durable : journal.pieceDurable id piece observed = .ok next) :
    ∃ record expected, begunRecord journal.events id = some record ∧ isPublished journal.events id = false ∧
      record.pieces.find? (·.piece = piece) = some expected ∧ expected.sha256 = observed ∧
      ¬(durablePieces journal.events id).any (·.1 = piece) = true ∧
      next = { journal with events := journal.events ++ [.pieceDurable id piece observed] } := by
  obtain ⟨record, opened, durable⟩ := bind_eq_ok.mp durable
  obtain ⟨expected, found, durable⟩ := bind_eq_ok.mp durable
  obtain ⟨begun, unpublished⟩ := openRecord_ok opened
  split at durable
  · cases durable
  next same =>
    split at durable
    · cases durable
    next fresh =>
      cases durable
      exact ⟨record, expected, begun, unpublished, okOr_eq_ok.mp found, (not_not.mp same).symm, fresh, rfl⟩

theorem publish_ok (published : journal.publish id = .ok next) :
    ∃ record, begunRecord journal.events id = some record ∧ isPublished journal.events id = false ∧
      ¬missesPiece record (durablePieces journal.events id) = true ∧
      next = { journal with events := journal.events ++ [.publish id] } := by
  obtain ⟨record, opened, published⟩ := bind_eq_ok.mp published
  obtain ⟨begun, unpublished⟩ := openRecord_ok opened
  split at published
  · cases published
  next complete =>
    cases published
    exact ⟨record, begun, unpublished, complete, rfl⟩

end

section
variable (replays : Replays journal)
include replays

theorem Replays.push (below : event.transaction < journal.nextTransaction)
    (plain : ∀ id record, event ≠ .begin id record)
    (agrees : ∃ transactions, replay (journal.events ++ [event]) = .ok transactions ∧
      ∀ id : Nat, transactions[id]? = stateOf (journal.events ++ [event]) id) :
    Replays { journal with events := journal.events ++ [event] } where
  agrees := agrees
  numbered later member := by
    rcases List.mem_append.mp member with old | new
    · exact replays.numbered later old
    · exact List.mem_singleton.mp new ▸ below
  begun id positive below := by
    obtain ⟨record, member⟩ := replays.begun id positive below
    exact ⟨record, List.mem_append_left _ member⟩
  once id record member := by
    rcases List.mem_append.mp member with old | new
    · rw [begunRecord_append, replays.once id record old]
      rfl
    · exact absurd (List.mem_singleton.mp new).symm (plain id record)
  valid id record member := by
    rcases List.mem_append.mp member with old | new
    · exact replays.valid id record old
    · exact absurd (List.mem_singleton.mp new).symm (plain id record)
  positive := replays.positive
  fits := replays.fits

theorem Replays.begin {transaction : Nat}
    (begins : journal.begin record = .ok (transaction, next)) : Replays next := by
  obtain ⟨number, validated, added, rfl, rfl⟩ := begin_ok begins
  have counted := checkedAdd_some added
  have unseen : ∀ event ∈ journal.events, event.transaction ≠ journal.nextTransaction :=
    fun event member => (replays.numbered event member).ne
  obtain ⟨begun, durable, published⟩ := unknown unseen
  obtain ⟨transactions, replayed, agrees⟩ := replays.agrees
  have here : stateOf (journal.events ++ [.begin journal.nextTransaction record]) journal.nextTransaction =
      some ⟨record, [], false⟩ := by
    unfold stateOf
    rw [begunRecord_append, durablePieces_append, isPublished_append, begun, durable, published]
    simp [begunRecord, durablePieces, isPublished]
  refine ⟨⟨_, replay_append replayed ?_, agrees_insert agrees here⟩, ?_, ?_, ?_, ?_, ?_, ?_⟩
  · refine bind_eq_ok.mpr ⟨(), validated, if_neg ?_⟩
    rw [ExtTreeMap.mem_iff_isSome_getElem?, agrees, stateOf, begun]
    simp
  · intro event member
    rcases List.mem_append.mp member with old | new
    · have below := replays.numbered event old
      show event.transaction < number
      omega
    · cases List.mem_singleton.mp new
      show journal.nextTransaction < number
      omega
  · intro id positive below
    change id < number at below
    by_cases last : id = journal.nextTransaction
    · exact ⟨record, last ▸ List.mem_append_right _ (List.mem_singleton_self _)⟩
    · obtain ⟨old, member⟩ := replays.begun id positive (by omega)
      exact ⟨old, List.mem_append_left _ member⟩
  · intro id other member
    show begunRecord (journal.events ++ [.begin journal.nextTransaction record]) id = some other
    rw [begunRecord_append]
    rcases List.mem_append.mp member with old | new
    · rw [replays.once id other old]
      rfl
    · cases List.mem_singleton.mp new
      rw [begun]
      simp [begunRecord]
  · intro id other member
    rcases List.mem_append.mp member with old | new
    · exact replays.valid id other old
    · cases List.mem_singleton.mp new
      exact validated
  · show 0 < number
    omega
  · unfold checkedAdd at added
    split at added
    next fits => exact counted ▸ fits
    next => cases added

theorem Replays.pieceDurable {piece : TierPiece} {observed : Bytes32}
    (durable : journal.pieceDurable id piece observed = .ok next) : Replays next := by
  obtain ⟨record, expected, begun, unpublished, found, same, fresh, rfl⟩ := pieceDurable_ok durable
  obtain ⟨transactions, replayed, agrees⟩ := replays.agrees
  have state : transactions[id]? = some ⟨record, durablePieces journal.events id, false⟩ := by
    rw [agrees, stateOf, begun, unpublished]
    rfl
  have here : stateOf (journal.events ++ [.pieceDurable id piece observed]) id =
      some ⟨record, durablePieces journal.events id ++ [(piece, observed)], false⟩ := by
    unfold stateOf
    rw [begunRecord_append, durablePieces_append, isPublished_append, begun, unpublished]
    simp [durablePieces, isPublished]
  refine replays.push (replays.known begun).2 nofun ⟨_, replay_append replayed ?_, agrees_insert agrees here⟩
  refine bind_eq_ok.mpr ⟨_, okOr_eq_ok.mpr state, bind_eq_ok.mpr ⟨expected, okOr_eq_ok.mpr found, if_neg ?_⟩⟩
  rw [not_or]
  exact ⟨not_not.mpr same, fresh⟩

theorem Replays.publish (published : journal.publish id = .ok next) : Replays next := by
  obtain ⟨record, begun, unpublished, complete, rfl⟩ := publish_ok published
  obtain ⟨transactions, replayed, agrees⟩ := replays.agrees
  have state : transactions[id]? = some ⟨record, durablePieces journal.events id, false⟩ := by
    rw [agrees, stateOf, begun, unpublished]
    rfl
  have here : stateOf (journal.events ++ [.publish id]) id = some ⟨record, durablePieces journal.events id, true⟩ := by
    unfold stateOf
    rw [begunRecord_append, durablePieces_append, isPublished_append, begun]
    simp [durablePieces, isPublished]
  refine replays.push (replays.known begun).2 nofun ⟨_, replay_append replayed ?_, agrees_insert agrees here⟩
  refine bind_eq_ok.mpr ⟨_, okOr_eq_ok.mpr state, if_neg ?_⟩
  rw [not_or]
  exact ⟨Bool.false_ne_true, complete⟩

theorem Replays.call (request : JournalCall) : Replays (journal.call request) := by
  unfold TierJournal.call
  cases request with
  | begin record =>
    dsimp only
    split
    next begins => exact replays.begin begins
    next => exact replays
  | pieceDurable id piece observed =>
    dsimp only
    split
    next durable => exact replays.pieceDurable durable
    next => exact replays
  | publish id =>
    dsimp only
    split
    next published => exact replays.publish published
    next => exact replays

end

theorem run_replays (calls : List JournalCall) : Replays (new.run calls) :=
  foldl_invariant Replays (fun _ request replays => replays.call request) calls new replays_new

end Replay

section Collect

def Conflicts (earlier later : TierRecord) : Prop :=
  earlier.pageKey = later.pageKey ∧
    (earlier.nameSpace ≠ later.nameSpace ∨
      logicalPieceIdentity earlier .targetKv ≠ logicalPieceIdentity later .targetKv ∨
      logicalPieceIdentity earlier .targetIndexer ≠ logicalPieceIdentity later .targetIndexer ∨
      (earlier.mtp = true ∧ later.mtp = true ∧
        logicalPieceIdentity earlier .draftSidecar ≠ logicalPieceIdentity later .draftSidecar) ∨
      (earlier.mtp = false ∧ later.mtp = true ∧ later.generation ≤ earlier.generation))

theorem relationTo_spec (valid : earlier.validate = .ok ()) (valid' : later.validate = .ok ())
    (page : earlier.pageKey = later.pageKey) :
    match earlier.relationTo later with
    | .error _ => Conflicts earlier later
    | .ok .exactDedup => earlier.mtp = later.mtp
    | .ok .retainMtp => earlier.mtp = true ∧ later.mtp = false
    | .ok .mtpUpgrade => earlier.mtp = false ∧ later.mtp = true := by
  unfold TierRecord.relationTo
  rw [valid, valid']
  show match (if _ then _ else _ : Except TierError TierRecordRelation) with
    | .error _ => _
    | .ok .exactDedup => _
    | .ok .retainMtp => _
    | .ok .mtpUpgrade => _
  by_cases differs : earlier.nameSpace ≠ later.nameSpace ∨ earlier.pageKey ≠ later.pageKey ∨
      logicalPieceIdentity earlier .targetKv ≠ logicalPieceIdentity later .targetKv ∨
      logicalPieceIdentity earlier .targetIndexer ≠ logicalPieceIdentity later .targetIndexer
  · rw [if_pos differs]
    refine ⟨page, ?_⟩
    rcases differs with space | key | kv | indexer
    · exact .inl space
    · exact absurd page key
    · exact .inr (.inl kv)
    · exact .inr (.inr (.inl indexer))
  · rw [if_neg differs]
    cases mtp : earlier.mtp <;> cases mtp' : later.mtp
    · exact rfl
    · exact ⟨rfl, rfl⟩
    · exact ⟨rfl, rfl⟩
    · by_cases draft : logicalPieceIdentity earlier .draftSidecar = logicalPieceIdentity later .draftSidecar
      · rw [if_pos draft]
        exact rfl
      · rw [if_neg draft]
        exact ⟨page, .inr (.inr (.inr (.inl ⟨mtp, mtp', draft⟩)))⟩

/-- The map holds one of the records for each page, with the draft if any of them has it. -/
structure Collected (records : List TierRecord) (recovered : ExtTreeMap Bytes32 TierRecord) : Prop where
  kept : ∀ (key : Bytes32) record, recovered[key]? = some record → record ∈ records ∧ record.pageKey = key ∧
    (record.mtp = true ↔ ∃ other ∈ records, other.pageKey = key ∧ other.mtp = true)
  found : ∀ record ∈ records, ∃ kept, recovered[record.pageKey]? = some kept

theorem collected_nil : Collected [] ∅ where
  kept _ _ kept := by simp at kept
  found := nofun

theorem Collected.put (collected : Collected records recovered)
    (draft : record.mtp = true ∨ ∀ other ∈ records, other.pageKey = record.pageKey → other.mtp = false) :
    Collected (records ++ [record]) (recovered.insert record.pageKey record) where
  kept key kept isKept := by
    rw [ExtTreeMap.getElem?_insert] at isKept
    split at isKept
    next same =>
      cases isKept
      obtain rfl : record.pageKey = key := by simpa using same
      refine ⟨by simp, rfl, fun mtp => ⟨record, by simp, rfl, mtp⟩, ?_⟩
      rintro ⟨other, member, page, mtp⟩
      rcases List.mem_append.mp member with old | new
      · rcases draft with has | none
        · exact has
        · rw [none other old page] at mtp
          cases mtp
      · exact List.mem_singleton.mp new ▸ mtp
    next differs =>
      obtain ⟨member, page, mtp⟩ := collected.kept key kept isKept
      refine ⟨List.mem_append_left _ member, page, mtp.trans ⟨?_, ?_⟩⟩
      · rintro ⟨other, member, rest⟩
        exact ⟨other, List.mem_append_left _ member, rest⟩
      · rintro ⟨other, member, page, mtp⟩
        rcases List.mem_append.mp member with old | new
        · exact ⟨other, old, page, mtp⟩
        · cases List.mem_singleton.mp new
          exact absurd (by simpa using page) differs
  found other member := by
    rw [ExtTreeMap.getElem?_insert]
    split
    · exact ⟨record, rfl⟩
    next differs =>
      rcases List.mem_append.mp member with old | new
      · exact collected.found other old
      · cases List.mem_singleton.mp new
        exact absurd (by simp) differs

theorem Collected.skip {existing : TierRecord}
    (collected : Collected records recovered) (there : recovered[record.pageKey]? = some existing)
    (draft : record.mtp = true → existing.mtp = true) : Collected (records ++ [record]) recovered where
  kept key kept isKept := by
    obtain ⟨member, page, mtp⟩ := collected.kept key kept isKept
    refine ⟨List.mem_append_left _ member, page, mtp.trans ⟨?_, ?_⟩⟩
    · rintro ⟨other, member, rest⟩
      exact ⟨other, List.mem_append_left _ member, rest⟩
    · rintro ⟨other, member, page', mtp'⟩
      rcases List.mem_append.mp member with old | new
      · exact ⟨other, old, page', mtp'⟩
      · cases List.mem_singleton.mp new
        cases (page' ▸ there).symm.trans isKept
        exact mtp.mp (draft mtp')
  found other member := by
    rcases List.mem_append.mp member with old | new
    · exact collected.found other old
    · cases List.mem_singleton.mp new
      exact ⟨existing, there⟩

theorem recoverRecord_spec
    (collected : Collected records recovered) (valid : ∀ other ∈ records ++ [record], other.validate = .ok ()) :
    match recoverRecord recovered record with
    | .error _ => ∃ earlier ∈ records, Conflicts earlier record
    | .ok next => Collected (records ++ [record]) next := by
  unfold recoverRecord
  cases there : recovered[record.pageKey]? with
  | none =>
    refine collected.put (.inr fun other member page => ?_)
    obtain ⟨kept, isKept⟩ := collected.found other member
    rw [page, there] at isKept
    cases isKept
  | some existing =>
    obtain ⟨member, page, mtp⟩ := collected.kept _ _ there
    have spec := relationTo_spec (valid existing (List.mem_append_left _ member)) (valid record (by simp)) page
    dsimp only
    cases relation : existing.relationTo record with
    | error failure =>
      rw [relation] at spec
      exact ⟨existing, member, spec⟩
    | ok relation' =>
      rw [relation] at spec
      cases relation' with
      | exactDedup => exact collected.skip there fun draft => spec.trans draft
      | retainMtp => exact collected.skip there fun _ => spec.1
      | mtpUpgrade =>
        by_cases older : record.generation ≤ existing.generation
        · simp only [older, if_true]
          exact ⟨existing, member, page, .inr (.inr (.inr (.inr ⟨spec.1, spec.2, older⟩)))⟩
        · simp only [older, if_false]
          exact collected.put (.inl spec.2)

/-- The second loop of `recover`, from the records it has already seen. -/
theorem collect_spec (rest : List TierRecord)
    (collected : Collected records recovered) (valid : ∀ record ∈ records ++ rest, record.validate = .ok ()) :
    match rest.foldlM recoverRecord recovered with
    | .error _ => ∃ before later after earlier, records ++ rest = before ++ later :: after ∧ earlier ∈ before ∧
        Conflicts earlier later
    | .ok last => Collected (records ++ rest) last := by
  induction rest generalizing records recovered with
  | nil =>
    rw [List.append_nil]
    exact collected
  | cons record rest ih =>
    have split : records ++ record :: rest = (records ++ [record]) ++ rest := by simp
    have valid' : ∀ other ∈ records ++ [record], other.validate = .ok () :=
      fun other member => valid other (split ▸ List.mem_append_left _ member)
    have spec := recoverRecord_spec collected valid'
    rw [List.foldlM_cons]
    cases step : recoverRecord recovered record with
    | error failure =>
      rw [step] at spec
      obtain ⟨earlier, member, conflicts⟩ := spec
      exact ⟨records, record, rest, earlier, rfl, member, conflicts⟩
    | ok next =>
      rw [step] at spec
      rw [split]
      exact ih spec (split ▸ valid)

end Collect

section Accepted

/-- The event that a call is accepted for, told by what the call answers and not by the log. -/
def accepts (journal : TierJournal) : JournalCall → Option JournalEvent
  | .begin record => match journal.begin record with
    | .ok (transaction, _) => some (.begin transaction record)
    | .error _ => none
  | .pieceDurable transaction piece observedSha256 => match journal.pieceDurable transaction piece observedSha256 with
    | .ok _ => some (.pieceDurable transaction piece observedSha256)
    | .error _ => none
  | .publish transaction => match journal.publish transaction with
    | .ok _ => some (.publish transaction)
    | .error _ => none

/-- What the calls of a run are accepted for, in their order. -/
def accepted : TierJournal → List JournalCall → List JournalEvent
  | _, [] => []
  | journal, request :: rest => (accepts journal request).toList ++ accepted (journal.call request) rest

theorem call_events (journal : TierJournal) (request : JournalCall) :
    (journal.call request).events = journal.events ++ (accepts journal request).toList := by
  cases request with
  | begin record =>
    dsimp only [TierJournal.call, accepts]
    cases begins : journal.begin record with
    | error failure => exact (List.append_nil _).symm
    | ok answer =>
      obtain ⟨transaction, next⟩ := answer
      obtain ⟨_, -, -, rfl, rfl⟩ := begin_ok begins
      rfl
  | pieceDurable id piece observed =>
    dsimp only [TierJournal.call, accepts]
    cases durable : journal.pieceDurable id piece observed with
    | error failure => exact (List.append_nil _).symm
    | ok next =>
      obtain ⟨_, _, -, -, -, -, -, rfl⟩ := pieceDurable_ok durable
      rfl
  | publish id =>
    dsimp only [TierJournal.call, accepts]
    cases published : journal.publish id with
    | error failure => exact (List.append_nil _).symm
    | ok next =>
      obtain ⟨_, -, -, -, rfl⟩ := publish_ok published
      rfl

theorem run_events (calls : List JournalCall) (journal : TierJournal) :
    (journal.run calls).events = journal.events ++ accepted journal calls := by
  induction calls generalizing journal with
  | nil => exact (List.append_nil _).symm
  | cons request rest ih =>
    rw [accepted, ← List.append_assoc, ← call_events]
    exact ih _

end Accepted

section Recover

def Published (events : List JournalEvent) (id : Nat) (record : TierRecord) : Prop :=
  .begin id record ∈ events ∧ .publish id ∈ events

def publishedStates (transactions : ExtTreeMap Nat RecoveryState) : List (Nat × RecoveryState) :=
  transactions.toList.filter (·.2.published)

variable {transactions : ExtTreeMap Nat RecoveryState}

theorem published_of_mem (agrees : ∀ id : Nat, transactions[id]? = stateOf journal.events id) {entry : Nat × RecoveryState}
    (member : entry ∈ publishedStates transactions) : Published journal.events entry.1 entry.2.record := by
  obtain ⟨id, state⟩ := entry
  obtain ⟨member, published⟩ := List.mem_filter.mp member
  have state_eq := (agrees id).symm.trans (mem_toList_iff.mp member)
  obtain ⟨record, begun, rfl⟩ := Option.map_eq_some_iff.mp state_eq
  exact ⟨mem_of_begunRecord begun, isPublished_iff.mp published⟩

theorem Replays.mem_of_published (replays : Replays journal)
    (agrees : ∀ id : Nat, transactions[id]? = stateOf journal.events id) (published : Published journal.events id record) :
    record ∈ (publishedStates transactions).map (·.2.record) := by
  have found : transactions[id]? = some ⟨record, durablePieces journal.events id, true⟩ := by
    rw [agrees, stateOf, replays.once id record published.1, isPublished_iff.mpr published.2]
    rfl
  exact List.mem_map.mpr ⟨(id, _), List.mem_filter.mpr ⟨mem_toList_iff.mpr found, rfl⟩, rfl⟩

theorem publishedStates_ordered : (publishedStates transactions).Pairwise fun a b => a.1 < b.1 := by
  refine (ExtTreeMap.ordered_keys_toList.imp fun below => ?_).sublist List.filter_sublist
  exact Nat.compare_eq_lt.mp below

theorem published_before {before after : List TierRecord}
    (listed : (publishedStates transactions).map (·.2.record) = before ++ later :: after) (member : earlier ∈ before) :
    ∃ p ∈ publishedStates transactions, ∃ q ∈ publishedStates transactions,
      p.1 < q.1 ∧ p.2.record = earlier ∧ q.2.record = later := by
  obtain ⟨front, back, split, rfl, isBack⟩ := List.map_eq_append_iff.mp listed
  obtain ⟨q, rest, rfl, rfl, -⟩ := List.map_eq_cons_iff.mp isBack
  obtain ⟨p, inFront, rfl⟩ := List.mem_map.mp member
  have ordered : (publishedStates transactions).Pairwise _ := publishedStates_ordered
  rw [split] at ordered ⊢
  exact ⟨p, by simp [inFront], q, by simp, (List.pairwise_append.mp ordered).2.2 p inFront q (by simp), rfl, rfl⟩

theorem Replays.last (replays : Replays journal) :
    (journal.events.map (·.transaction)).max?.getD 0 + 1 = journal.nextTransaction := by
  have positive := replays.positive
  cases largest : (journal.events.map (·.transaction)).max? with
  | none =>
    have empty := List.map_eq_nil_iff.mp (List.max?_eq_none_iff.mp largest)
    by_contra more
    obtain ⟨record, member⟩ := replays.begun 1 Nat.one_pos (by simp at more; omega)
    rw [empty] at member
    cases member
  | some last =>
    obtain ⟨member, most⟩ := List.max?_eq_some_iff.mp largest
    obtain ⟨event, isEvent, rfl⟩ := List.mem_map.mp member
    have below := replays.numbered event isEvent
    show event.transaction + 1 = journal.nextTransaction
    by_contra gap
    obtain ⟨record, begun⟩ := replays.begun (journal.nextTransaction - 1) (by omega) (by omega)
    have atMost : journal.nextTransaction - 1 ≤ event.transaction := most _ (List.mem_map_of_mem begun)
    omega

theorem recover_eq (replayed : replay journal.events = .ok transactions) :
    journal.recover = ((publishedStates transactions).map (·.2.record)).foldlM recoverRecord ∅ := by
  unfold recover
  rw [replayed, List.foldlM_map]
  rfl

theorem Replays.fromEvents_eq (replays : Replays journal) :
    fromEvents journal.events = journal.recover.map fun _ => journal := by
  unfold fromEvents
  have next : checkedAdd 64 ((journal.events.map (·.transaction)).max?.getD 0) 1 = some journal.nextTransaction := by
    unfold checkedAdd
    rw [replays.last, if_pos replays.fits]
  rw [next]
  show (journal.recover >>= fun _ => pure journal) = _
  cases journal.recover <;> rfl

/-- The log holds what the calls were accepted for, and replaying it meets no fault. It fails only over two published
records of one page that conflict, and otherwise keeps one published record for each page, with the draft if any of
them had it. -/
theorem replay_agrees_with_live (calls : List JournalCall) :
    (new.run calls).events = accepted new calls ∧
    (∃ transactions, replay (new.run calls).events = .ok transactions) ∧
    (match (new.run calls).recover with
      | .error _ => ∃ i j earlier later, i < j ∧ Published (accepted new calls) i earlier ∧
          Published (accepted new calls) j later ∧ Conflicts earlier later
      | .ok recovered => ∀ key : Bytes32,
          (recovered[key]? = none ↔ ∀ id record, Published (accepted new calls) id record → record.pageKey ≠ key) ∧
          ∀ record, recovered[key]? = some record →
            record.pageKey = key ∧ (∃ id, Published (accepted new calls) id record) ∧
            (record.mtp = true ↔ ∃ id other, Published (accepted new calls) id other ∧ other.pageKey = key ∧
              other.mtp = true)) ∧
    fromEvents (new.run calls).events = (new.run calls).recover.map fun _ => new.run calls := by
  have replays := run_replays calls
  have logged : (new.run calls).events = accepted new calls := run_events calls new
  obtain ⟨transactions, replayed, agrees⟩ := replays.agrees
  refine ⟨logged, ⟨transactions, replayed⟩, ?_, replays.fromEvents_eq⟩
  rw [← logged]
  have published {record : TierRecord} (member : record ∈ (publishedStates transactions).map (·.2.record)) :
      ∃ id, Published (new.run calls).events id record := by
    obtain ⟨entry, inside, rfl⟩ := List.mem_map.mp member
    exact ⟨entry.1, published_of_mem agrees inside⟩
  have valid : ∀ record ∈ [] ++ (publishedStates transactions).map (·.2.record), record.validate = .ok () := by
    intro record member
    obtain ⟨id, begun, -⟩ := published member
    exact replays.valid id record begun
  have spec := collect_spec _ collected_nil valid
  rw [← recover_eq replayed, List.nil_append] at spec
  split
  next failed =>
    rw [failed] at spec
    obtain ⟨before, later, after, earlier, listed, member, conflicts⟩ := spec
    obtain ⟨p, isP, q, isQ, below, rfl, rfl⟩ := published_before listed member
    exact ⟨p.1, q.1, _, _, below, published_of_mem agrees isP, published_of_mem agrees isQ, conflicts⟩
  next recovered ran =>
    rw [ran] at spec
    intro key
    refine ⟨⟨fun absent id record isPublished page => ?_, fun none => ?_⟩, fun record isKept => ?_⟩
    · obtain ⟨kept, isKept⟩ := spec.found record (replays.mem_of_published agrees isPublished)
      rw [page, absent] at isKept
      cases isKept
    · cases kept : recovered[key]? with
      | none => rfl
      | some record =>
        obtain ⟨member, page, -⟩ := spec.kept key record kept
        obtain ⟨id, isPublished⟩ := published member
        exact absurd page (none id record isPublished)
    · obtain ⟨member, page, mtp⟩ := spec.kept key record isKept
      refine ⟨page, published member, mtp.trans ⟨?_, ?_⟩⟩
      · rintro ⟨other, member, rest⟩
        obtain ⟨id, isPublished⟩ := published member
        exact ⟨id, other, isPublished, rest⟩
      · rintro ⟨id, other, isPublished, rest⟩
        exact ⟨other, replays.mem_of_published agrees isPublished, rest⟩

def journalled (byte : UInt8) : TierRecord where
  nameSpace := List.Vector.replicate 32 1
  pageKey := List.Vector.replicate 32 byte
  generation := 1
  tier := .nvme
  mtp := false
  pieces := [⟨.targetKv, 1837056, 0, List.Vector.replicate 32 1⟩,
    ⟨.targetIndexer, 177408, 1839104, List.Vector.replicate 32 2⟩]

example : (new.run [.begin (journalled 1), .begin (journalled 2), .pieceDurable 1 .targetKv (List.Vector.replicate 32 1),
    .publish 1, .pieceDurable 1 .targetIndexer (List.Vector.replicate 32 2), .publish 1]).recover.map (·.toList) =
      .ok [((journalled 1).pageKey, journalled 1)] := by rfl

end Recover

section Crashes

/-- Journals that live through crashes: the log is cut after any event, and the journal reopened from what is left. -/
inductive Survives : TierJournal → Prop where
  | new : Survives new
  | call {journal : TierJournal} (request : JournalCall) : Survives journal → Survives (journal.call request)
  | reopened {journal next : TierJournal} (n : Nat) : Survives journal →
      fromEvents (journal.events.take n) = .ok next → Survives next

theorem run_events_take (calls : List JournalCall) (n : Nat) :
    ∃ before, (new.run before).events = (new.run calls).events.take n := by
  induction calls using List.reverseRecOn with
  | nil => exact ⟨[], by simp [run, new]⟩
  | append_singleton calls request ih =>
    obtain ⟨before, same⟩ := ih
    have step : new.run (calls ++ [request]) = (new.run calls).call request := List.foldl_concat ..
    by_cases whole : (new.run (calls ++ [request])).events.length ≤ n
    · exact ⟨calls ++ [request], (List.take_of_length_le whole).symm⟩
    · refine ⟨before, same.trans ?_⟩
      rw [step] at whole ⊢
      rw [call_events, List.length_append] at whole
      rw [call_events, List.take_append_of_le_length]
      have short := Option.length_toList_le (o := accepts (new.run calls) request)
      omega

/-- However often a journal crashes, it is one that some run without a crash leaves. -/
theorem survives_is_run (survives : Survives journal) : ∃ calls, journal = new.run calls := by
  induction survives with
  | new => exact ⟨[], rfl⟩
  | call request _ ih =>
    obtain ⟨calls, rfl⟩ := ih
    exact ⟨calls ++ [request], (List.foldl_concat ..).symm⟩
  | reopened n _ opened ih =>
    obtain ⟨calls, rfl⟩ := ih
    obtain ⟨before, same⟩ := run_events_take calls n
    rw [← same, (run_replays before).fromEvents_eq] at opened
    cases recovered : (new.run before).recover with
    | error failure =>
      rw [recovered] at opened
      cases opened
    | ok pages =>
      rw [recovered] at opened
      cases opened
      exact ⟨before, rfl⟩

theorem cut_journal_is_run : ∃ calls, (⟨[.begin 1 (journalled 1)], 2⟩ : TierJournal) = new.run calls :=
  survives_is_run (.reopened 1 (.call (.begin (journalled 2)) (.call (.begin (journalled 1)) .new)) rfl)

end Crashes

end Glmaxx.Proof.TierJournal
