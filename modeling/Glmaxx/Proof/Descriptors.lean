import Glmaxx.Library.Run
import Glmaxx.Proof.Restore.Leases

namespace Glmaxx.Proof.Descriptors
open Library Cache Restore

variable {slot slot' : DirectDescriptorSlot} {call : DescriptorCall} {reply : DescriptorReply}
  {kept : Option DirectDescriptorEntry} {event : Event} {word : UInt64}

variable {table table' : DirectDescriptorTable} {binding : DirectDescriptorBinding} {entry : DirectDescriptorEntry}
  {token : DirectCompletionToken} {kind : DirectCompletionKind} {i g : Nat}

section Words

section
variable (token : DirectCompletionToken)

theorem kind_role : DirectCompletionToken.role token.kind = token.userData % 2 := by
  unfold DirectCompletionToken.kind
  rw [DirectCompletionToken.cancelBit, Nat.and_one_is_mod]
  split
  next even => rw [even]; rfl
  next odd =>
    have : token.userData % 2 = 1 := by omega
    rw [this]
    rfl

theorem slot_eq : token.slot = token.userData / 2 % 2 ^ 31 := by
  have mask : DirectCompletionToken.slotMask = 2 ^ 31 - 1 := rfl
  unfold DirectCompletionToken.slot
  rw [mask, Nat.and_two_pow_sub_one_eq_mod, Nat.shiftRight_eq_div_pow]

theorem generation_eq : token.generation = token.userData / 2 ^ 32 % 2 ^ 32 := by
  unfold DirectCompletionToken.generation
  rw [Nat.shiftRight_eq_div_pow]

theorem slot_lt : token.slot < 2 ^ 31 := by
  rw [slot_eq]
  exact Nat.mod_lt _ (by decide)

theorem generation_lt : token.generation < 2 ^ 32 := by
  rw [generation_eq]
  exact Nat.mod_lt _ (by decide)

end

theorem eq_new (inWord : token.userData < 2 ^ 64) : token = .new token.slot token.generation token.kind := by
  have fields : (DirectCompletionToken.new token.slot token.generation token.kind).userData = _ :=
    token_userData token.kind (slot_lt token)
  rw [slot_eq, generation_eq, kind_role] at fields
  have same : token.userData = (DirectCompletionToken.new token.slot token.generation token.kind).userData := by
    rw [slot_eq, generation_eq, fields]
    omega
  exact congrArg DirectCompletionToken.mk same

theorem new_lt (inSlot : i < 2 ^ 31) (inGeneration : g < 2 ^ 32) :
    (DirectCompletionToken.new i g kind).userData < 2 ^ 64 := by
  have role : DirectCompletionToken.role kind < 2 := by cases kind <;> decide
  rw [token_userData kind inSlot]
  omega

theorem eq_iff {token' : DirectCompletionToken} (inWord : token.userData < 2 ^ 64) (inWord' : token'.userData < 2 ^ 64) :
    token = token' ↔ token.slot = token'.slot ∧ token.generation = token'.generation ∧ token.kind = token'.kind := by
  constructor
  · rintro rfl
    exact ⟨rfl, rfl, rfl⟩
  · rintro ⟨slots, generations, kinds⟩
    rw [eq_new inWord, eq_new inWord', slots, generations, kinds]

theorem eq_new_iff (inWord : token.userData < 2 ^ 64) (inSlot : i < 2 ^ 31) (inGeneration : g < 2 ^ 32) :
    token = .new i g kind ↔ token.slot = i ∧ token.generation = g ∧ token.kind = kind := by
  rw [eq_iff inWord (new_lt inSlot inGeneration), token_slot kind inSlot, token_generation kind inSlot inGeneration,
    token_kind kind inSlot]

theorem ofWord_lt (word : UInt64) : (DirectCompletionToken.ofWord word).userData < 2 ^ 64 := word.toNat_lt

theorem fromUserData_userData (inWord : token.userData < 2 ^ 64) (positive : token.generation ≠ 0) :
    DirectCompletionToken.fromUserData (.ofNat token.userData) = .ok token := by
  have word : DirectCompletionToken.ofWord (.ofNat token.userData) = token := by
    unfold DirectCompletionToken.ofWord
    rw [UInt64.toNat_ofNat_of_lt' inWord]
  unfold DirectCompletionToken.fromUserData
  dsimp only
  rw [word, if_neg positive]

end Words

section Effects

abbrev View := Nat → Option (Nat × Option DirectDescriptorEntry)

def view (table : DirectDescriptorTable) : View := fun i => table.slots[i]?.map fun slot => (slot.generation, slot.entry)

structure Holds (shown : View) (token : DirectCompletionToken) (entry : DirectDescriptorEntry) : Prop where
  inWord : token.userData < 2 ^ 64
  positive : token.generation ≠ 0
  held : shown token.slot = some (token.generation, some entry)

inductive Effect (shown : View) : DescriptorCall → DescriptorReply → View → Prop where
  | refusedToken (call : DescriptorCall) (failure : DirectDescriptorError) :
      Effect shown call (.token (.error failure)) shown
  | refusedBinding (call : DescriptorCall) (failure : DirectDescriptorError) :
      Effect shown call (.binding (.error failure)) shown
  | allocated {i g : Nat} (binding : DirectDescriptorBinding) (inSlot : i < 2 ^ 31) (room : g + 1 < 2 ^ 32)
      (vacant : shown i = some (g, none)) :
      Effect shown (.allocate binding) (.token (.ok (.new i (g + 1) .original)))
        (Function.update shown i (some (g + 1, some ⟨binding, true, false⟩)))
  | cancelled {word : UInt64} {entry : DirectDescriptorEntry} (holds : Holds shown (.ofWord word) entry)
      (original : (DirectCompletionToken.ofWord word).kind = .original) (pending : entry.originalPending = true)
      (once : entry.cancelPending = false) :
      Effect shown (.issueCancel word)
        (.token (.ok (.new (DirectCompletionToken.ofWord word).slot
          (DirectCompletionToken.ofWord word).generation .asyncCancel)))
        (Function.update shown (DirectCompletionToken.ofWord word).slot
          (some ((DirectCompletionToken.ofWord word).generation, some { entry with cancelPending := true })))
  | resolved {word : UInt64} {entry : DirectDescriptorEntry} (holds : Holds shown (.ofWord word) entry)
      (pending : entry.pending (DirectCompletionToken.ofWord word).kind = true) :
      Effect shown (.resolve word) (.binding (.ok entry.binding)) shown
  | completed {word : UInt64} {entry : DirectDescriptorEntry} (holds : Holds shown (.ofWord word) entry)
      (pending : entry.pending (DirectCompletionToken.ofWord word).kind = true) :
      Effect shown (.complete word) (.binding (.ok entry.binding))
        (Function.update shown (DirectCompletionToken.ofWord word).slot
          (some ((DirectCompletionToken.ofWord word).generation,
            reaped entry (DirectCompletionToken.ofWord word).kind)))

def Marked (slot slot' : DirectDescriptorSlot) : Prop := slot'.generation = slot.generation ∧ slot'.entry = slot.entry

theorem visit_skip (skipped : DirectDescriptorTable.visit binding i slot = .skip slot') : Marked slot slot' := by
  unfold DirectDescriptorTable.visit at skipped
  split at skipped
  · cases skipped
    exact ⟨rfl, rfl⟩
  · split at skipped
    · cases skipped
      exact ⟨rfl, rfl⟩
    · split at skipped
      · cases skipped
        exact ⟨rfl, rfl⟩
      · cases skipped

theorem visit_take (taken : DirectDescriptorTable.visit binding i slot = .take slot' g) :
    slot.entry = none ∧ slot' = ⟨g, slot.retired, some ⟨binding, true, false⟩⟩ ∧ g = slot.generation + 1 ∧
      g < 2 ^ 32 := by
  obtain ⟨vacant, isSlot, -, inGeneration⟩ := descriptor_take taken
  refine ⟨vacant, isSlot, ?_, inGeneration⟩
  unfold DirectDescriptorTable.visit at taken
  split at taken
  · cases taken
  · split at taken
    · cases taken
    next next counted =>
      split at taken
      · cases taken
      · cases taken
        exact checkedAdd_some counted

theorem view_marked {slots : List DirectDescriptorSlot} (next : Nat) (marked : List.Forall₂ Marked table.slots slots) :
    view ⟨slots, next⟩ = view table := by
  funext i
  unfold view
  cases get : table.slots[i]? with
  | none =>
    have outside : slots[i]? = none := by
      rw [List.getElem?_eq_none_iff] at get ⊢
      rwa [← marked.length_eq]
    rw [outside]
  | some slot =>
    obtain ⟨slot', get', sameGeneration, sameEntry⟩ := forall₂_getElem? marked get
    simp [get', sameGeneration, sameEntry]

theorem view_set (table : DirectDescriptorTable) (slot : DirectDescriptorSlot) (inside : i < table.slots.length) :
    view { table with slots := table.slots.set i slot } =
      Function.update (view table) i (some (slot.generation, slot.entry)) := by
  funext j
  unfold view
  by_cases here : j = i
  · subst here
    simp [inside]
  · rw [Function.update_of_ne here, List.getElem?_set_ne (Ne.symm here)]

theorem slot_holds (inWord : token.userData < 2 ^ 64) (found : table.slot token = .ok slot)
    (some_ : slot.entry = some entry) :
    Holds (view table) token entry ∧ table.slots[token.slot]? = some slot ∧ slot.generation = token.generation := by
  unfold DirectDescriptorTable.slot at found
  by_cases zero : token.generation = 0
  · rw [if_pos zero] at found
    cases found
  rw [if_neg zero] at found
  obtain ⟨slot', get, found⟩ := bind_eq_ok.mp found
  have get := okOr_eq_ok.mp get
  by_cases stale : slot'.generation ≠ token.generation
  · rw [if_pos stale] at found
    cases found
  rw [if_neg stale] at found
  cases found
  have same := not_not.mp stale
  refine ⟨⟨inWord, zero, ?_⟩, get, same⟩
  unfold view
  rw [get]
  simp [same, some_]

structure Acts (table : DirectDescriptorTable) (call : DescriptorCall) (reply : DescriptorReply)
    (table' : DirectDescriptorTable) : Prop where
  effect : Effect (view table) call reply (view table')
  length_eq : table'.slots.length = table.slots.length

theorem Acts.setSlot (get : table.slots[token.slot]? = some slot) (same : slot.generation = token.generation)
    (effect : Effect (view table) call reply
      (Function.update (view table) token.slot (some (token.generation, kept)))) :
    Acts table call reply (table.setSlot token { slot with entry := kept }) := by
  have inside := (List.getElem?_eq_some_iff.mp get).1
  refine ⟨?_, List.length_set⟩
  unfold DirectDescriptorTable.setSlot
  rw [view_set _ _ inside, same]
  exact effect

theorem allocate_acts (small : table.slots.length ≤ 2 ^ 31) (binding : DirectDescriptorBinding) :
    Acts table (.allocate binding) (.token (DirectDescriptorTable.allocate binding table).1)
      (DirectDescriptorTable.allocate binding table).2 := by
  obtain ⟨passed, marked, outcome⟩ := scanRing_spec (R := Marked) (fun _ => ⟨rfl, rfl⟩)
    (fun _ _ _ first second => ⟨second.1.trans first.1, second.2.trans first.2⟩)
    (fun _ _ _ (skipped : DirectDescriptorTable.visit binding _ _ = _) => visit_skip skipped)
    table.nextSearch table.slots.length 0 table.slots
  have length_eq := marked.length_eq
  unfold DirectDescriptorTable.allocate
  by_cases identity : binding.buffer.isValid = false ∨ binding.operationGeneration = 0
  · rw [if_pos identity]
    exact ⟨.refusedToken _ _, rfl⟩
  rw [if_neg identity]
  split at outcome
  next slots scanned =>
    subst outcome
    rw [scanned]
    refine ⟨?_, length_eq.symm⟩
    rw [view_marked _ marked]
    exact .refusedToken _ _
  next index generation slots scanned =>
    obtain ⟨slot, slot', get, taken, rfl⟩ := outcome
    obtain ⟨vacant, rfl, rfl, inGeneration⟩ := visit_take taken
    have inside := (List.getElem?_eq_some_iff.mp get).1
    have fits : narrow 32 index = some index := if_pos (by omega)
    rw [scanned]
    dsimp only
    rw [fits]
    refine ⟨?_, by rw [List.length_set]; exact length_eq.symm⟩
    rw [view_set ⟨passed, _⟩ _ inside, view_marked _ marked]
    refine .allocated binding (by omega) inGeneration ?_
    rw [← view_marked 0 marked]
    unfold view
    simp [get, vacant]

theorem issueCancel_acts (word : UInt64) :
    Acts table (.issueCancel word) (.token (DirectDescriptorTable.issueCancel (.ofWord word) table).1)
      (DirectDescriptorTable.issueCancel (.ofWord word) table).2 := by
  apply Action.Ends.relates (R := fun result table' => Acts table (.issueCancel word) (.token result) table')
  apply Action.Ends.updates
  · intro cancel table' changed
    by_cases original : (DirectCompletionToken.ofWord word).kind ≠ .original
    · rw [if_pos original] at changed
      cases changed
    rw [if_neg original] at changed
    obtain ⟨slot, found, changed⟩ := bind_eq_ok.mp changed
    obtain ⟨entry, filled, changed⟩ := bind_eq_ok.mp changed
    obtain ⟨holds, get, same⟩ := slot_holds (ofWord_lt word) found (okOr_eq_ok.mp filled)
    by_cases busy : entry.originalPending = false ∨ entry.cancelPending
    · rw [if_pos busy] at changed
      cases changed
    rw [if_neg busy] at changed
    cases changed
    obtain ⟨pending, once⟩ := not_or.mp busy
    exact .setSlot get same (.cancelled holds (not_not.mp original) (by simpa using pending) (by simpa using once))
  · intro failure _
    exact ⟨.refusedToken _ _, rfl⟩

theorem resolve_acts (word : UInt64) :
    Acts table (.resolve word) (.binding (table.resolve (.ofWord word))) table := by
  refine ⟨?_, rfl⟩
  cases ran : table.resolve (.ofWord word) with
  | error failure => exact .refusedBinding _ _
  | ok binding =>
    obtain ⟨slot, found, ran⟩ := bind_eq_ok.mp ran
    obtain ⟨entry, filled, ran⟩ := bind_eq_ok.mp ran
    obtain ⟨holds, -, -⟩ := slot_holds (ofWord_lt word) found (okOr_eq_ok.mp filled)
    by_cases done : entry.pending (DirectCompletionToken.ofWord word).kind = false
    · rw [if_pos done] at ran
      cases ran
    rw [if_neg done] at ran
    cases ran
    exact .resolved holds (by simpa using done)

theorem complete_acts (word : UInt64) :
    Acts table (.complete word) (.binding (DirectDescriptorTable.complete (.ofWord word) table).1)
      (DirectDescriptorTable.complete (.ofWord word) table).2 := by
  apply Action.Ends.relates (R := fun result table' => Acts table (.complete word) (.binding result) table')
  apply Action.Ends.updates
  · intro binding table' changed
    obtain ⟨slot, found, changed⟩ := bind_eq_ok.mp changed
    obtain ⟨entry, filled, changed⟩ := bind_eq_ok.mp changed
    obtain ⟨holds, get, same⟩ := slot_holds (ofWord_lt word) found (okOr_eq_ok.mp filled)
    by_cases done : entry.pending (DirectCompletionToken.ofWord word).kind = false
    · rw [if_pos done] at changed
      cases changed
    rw [if_neg done] at changed
    cases changed
    exact .setSlot get same (.completed holds (by simpa using done))
  · intro failure _
    exact ⟨.refusedBinding _ _, rfl⟩

theorem call_acts (small : table.slots.length ≤ 2 ^ 31) (call : DescriptorCall) :
    Acts table call (table.call call).1 (table.call call).2 := by
  cases call with
  | allocate binding => exact allocate_acts small binding
  | issueCancel word => exact issueCancel_acts word
  | resolve word => exact resolve_acts word
  | complete word => exact complete_acts word

end Effects

section Histories

abbrev Event := DescriptorCall × DescriptorReply

def allocates (token : DirectCompletionToken) : Event → Bool
  | (.allocate _, .token (.ok allocated)) => decide (allocated = token)
  | _ => false

def issues (token : DirectCompletionToken) : Event → Bool
  | (.allocate _, .token (.ok issued)) | (.issueCancel _, .token (.ok issued)) => decide (issued = token)
  | _ => false

def completes (token : DirectCompletionToken) : Event → Bool
  | (.complete word, .binding (.ok _)) => decide (DirectCompletionToken.ofWord word = token)
  | _ => false

def run (table : DirectDescriptorTable) (calls : List DescriptorCall) : List Event × DirectDescriptorTable :=
  calls.foldl (fun (history, table) call => ((call, (table.call call).1) :: history, (table.call call).2)) ([], table)

inductive Issuance (binding : DirectDescriptorBinding) (token : DirectCompletionToken) :
    Event → List Event → Prop where
  | original {earlier : List Event} (role : token.kind = .original) :
      Issuance binding token (.allocate binding, .token (.ok token)) earlier
  | cancel {earlier : List Event} {word : UInt64} (role : token.kind = .asyncCancel)
      (allocated : (.allocate binding, .token (.ok (.ofWord word))) ∈ earlier) :
      Issuance binding token (.issueCancel word, .token (.ok token)) earlier

def Outstanding (history : List Event) (token : DirectCompletionToken) (binding : DirectDescriptorBinding) : Prop :=
  ∃ later issuance earlier, history = later ++ issuance :: earlier ∧ Issuance binding token issuance earlier ∧
    ∀ event ∈ later, completes token event = false

theorem Outstanding.cons {history : List Event} {event : Event} (outstanding : Outstanding history token binding)
    (other : completes token event = false) : Outstanding (event :: history) token binding := by
  obtain ⟨later, issuance, earlier, rfl, issued, none⟩ := outstanding
  exact ⟨event :: later, issuance, earlier, rfl, issued, List.forall_mem_cons.mpr ⟨other, none⟩⟩

theorem Issuance.outstanding {history : List Event}
    (issuance : Issuance binding token event history) : Outstanding (event :: history) token binding :=
  ⟨[], event, history, rfl, issuance, List.forall_mem_nil _⟩

def live (shown : View) (token : DirectCompletionToken) : Bool :=
  match shown token.slot with
  | some (generation, kept) => decide (generation = token.generation) && kept.any (·.pending token.kind)
  | none => false

theorem live_update (shown : View) (i g : Nat) (kept : Option DirectDescriptorEntry) (token : DirectCompletionToken) :
    live (Function.update shown i (some (g, kept))) token =
      if token.slot = i then decide (g = token.generation) && kept.any (·.pending token.kind)
      else live shown token := by
  unfold live
  by_cases here : token.slot = i
  · rw [if_pos here, here, Function.update_self]
  · rw [if_neg here, Function.update_of_ne here]

theorem live_of_shown {shown : View} (get : shown token.slot = some (g, kept)) :
    live shown token = (decide (g = token.generation) && kept.any (·.pending token.kind)) := by
  unfold live
  rw [get]

theorem reaped_pending (entry : DirectDescriptorEntry) (kind kind' : DirectCompletionKind) :
    (reaped entry kind).any (·.pending kind') = (decide (kind' ≠ kind) && entry.pending kind') := by
  obtain ⟨binding, original, cancel⟩ := entry
  cases kind <;> cases kind' <;> cases original <;> cases cancel <;> rfl

theorem reaped_some {entry' : DirectDescriptorEntry} (kept : reaped entry kind = some entry') :
    entry'.binding = entry.binding ∧ (entry'.originalPending ∨ entry'.cancelPending) := by
  unfold reaped at kept
  by_cases freed : (entry.clear kind).originalPending = false ∧ (entry.clear kind).cancelPending = false
  · rw [if_pos freed] at kept
    cases kept
  rw [if_neg freed] at kept
  cases kept
  refine ⟨by cases kind <;> rfl, ?_⟩
  by_contra neither
  exact freed (by simpa using neither)

structure Ledger (history : List Event) (shown : View) : Prop where
  bounded : ∀ i g kept, shown i = some (g, kept) → i < 2 ^ 31 ∧ g < 2 ^ 32
  busy : ∀ i g entry, shown i = some (g, some entry) → entry.originalPending ∨ entry.cancelPending
  allocated : ∀ i g entry, shown i = some (g, some entry) →
    (.allocate entry.binding, .token (.ok (.new i g .original))) ∈ history
  outstanding : ∀ i g entry kind, shown i = some (g, some entry) → entry.pending kind = true →
    Outstanding history (.new i g kind) entry.binding
  balance : ∀ token : DirectCompletionToken, token.userData < 2 ^ 64 →
    history.countP (issues token) = history.countP (completes token) + (live shown token).toNat
  unreached : ∀ i g kept, shown i = some (g, kept) → ∀ h, g < h → h < 2 ^ 32 →
    history.countP (allocates (.new i h .original)) = 0
  once : ∀ token, history.countP (allocates token) ≤ 1

variable {history : List Event} {shown shown' : View}

theorem countP_event (counted : Event → Bool) (event : Event) :
    (event :: history).countP counted = history.countP counted + (counted event).toNat := by
  rw [List.countP_cons]
  cases counted event <;> rfl

theorem Ledger.quiet (ledger : Ledger history shown)
    (quiet : ∀ token, allocates token event = false ∧ issues token event = false ∧ completes token event = false) :
    Ledger (event :: history) shown where
  bounded := ledger.bounded
  busy := ledger.busy
  allocated i g entry get := List.mem_cons_of_mem _ (ledger.allocated i g entry get)
  outstanding i g entry kind get pending := (ledger.outstanding i g entry kind get pending).cons (quiet _).2.2
  balance token inWord := by simpa [quiet token] using ledger.balance token inWord
  unreached i g kept get h later inGeneration := by
    simpa [quiet] using ledger.unreached i g kept get h later inGeneration
  once token := by simpa [quiet] using ledger.once token

theorem update_some {j : Nat} {slot slot' : Nat × Option DirectDescriptorEntry}
    (get : Function.update shown i (some slot) j = some slot') : j = i ∧ slot = slot' ∨ j ≠ i ∧ shown j = some slot' := by
  by_cases here : j = i
  · subst here
    rw [Function.update_self] at get
    exact .inl ⟨rfl, Option.some.inj get⟩
  · rw [Function.update_of_ne here] at get
    exact .inr ⟨here, get⟩

section
variable (ledger : Ledger history shown)
include ledger

theorem Ledger.change {kept' : Option DirectDescriptorEntry}
    {g' : Nat} (get : shown i = some (g, kept)) (inGeneration : g' < 2 ^ 32)
    (busy : ∀ entry, kept' = some entry → entry.originalPending ∨ entry.cancelPending)
    (allocated : ∀ entry, kept' = some entry →
      (.allocate entry.binding, .token (.ok (.new i g' .original))) ∈ event :: history)
    (outstanding : ∀ entry kind, kept' = some entry → entry.pending kind = true →
      Outstanding (event :: history) (.new i g' kind) entry.binding)
    (elsewhere : ∀ token : DirectCompletionToken, token.slot ≠ i →
      issues token event = false ∧ completes token event = false)
    (balance : ∀ token : DirectCompletionToken, token.userData < 2 ^ 64 → token.slot = i →
      (issues token event).toNat + (live shown token).toNat = (completes token event).toNat +
        (decide (g' = token.generation) && kept'.any (·.pending token.kind)).toNat)
    (grows : g' = g ∧ (∀ token, allocates token event = false) ∨
      g < g' ∧ ∀ token, allocates token event = true → token = .new i g' .original) :
    Ledger (event :: history) (Function.update shown i (some (g', kept'))) := by
  have inSlot := (ledger.bounded i g kept get).1
  constructor
  case bounded =>
    intro j h kept get
    rcases update_some get with ⟨rfl, same⟩ | ⟨-, get⟩
    · cases same
      exact ⟨inSlot, inGeneration⟩
    · exact ledger.bounded j h kept get
  case busy =>
    intro j h entry get
    rcases update_some get with ⟨rfl, same⟩ | ⟨-, get⟩
    · cases same
      exact busy entry rfl
    · exact ledger.busy j h entry get
  case allocated =>
    intro j h entry get
    rcases update_some get with ⟨rfl, same⟩ | ⟨-, get⟩
    · cases same
      exact allocated entry rfl
    · exact List.mem_cons_of_mem _ (ledger.allocated j h entry get)
  case outstanding =>
    intro j h entry kind get pending
    rcases update_some get with ⟨rfl, same⟩ | ⟨other, get⟩
    · cases same
      exact outstanding entry kind rfl pending
    · apply (ledger.outstanding j h entry kind get pending).cons
      apply (elsewhere _ _).2
      rwa [token_slot kind (ledger.bounded j h _ get).1]
  case balance =>
    intro token inWord
    have before := ledger.balance token inWord
    rw [countP_event, countP_event, live_update]
    by_cases here : token.slot = i
    · have now := balance token inWord here
      rw [if_pos here]
      omega
    · obtain ⟨unissued, uncompleted⟩ := elsewhere token here
      rw [if_neg here, unissued, uncompleted, before]
      simp
  case unreached =>
    intro j h kept get' later past inWord
    have unheard : allocates (.new j later .original) event = false := by
      by_contra heard
      rcases grows with ⟨-, none⟩ | ⟨-, only⟩
      · exact heard (none _)
      · have same := only _ (by simpa using heard)
        rcases update_some get' with ⟨rfl, shows⟩ | ⟨other, get'⟩
        · cases shows
          have := congrArg DirectCompletionToken.generation same
          rw [token_generation _ inSlot inWord, token_generation _ inSlot inGeneration] at this
          omega
        · have := congrArg DirectCompletionToken.slot same
          rw [token_slot _ (ledger.bounded j h _ get').1, token_slot _ inSlot] at this
          exact other this
    rw [countP_event, unheard]
    rcases update_some get' with ⟨rfl, shows⟩ | ⟨other, get'⟩
    · cases shows
      exact ledger.unreached j g _ get later (by omega) inWord
    · exact ledger.unreached j h _ get' later past inWord
  case once =>
    intro token
    rw [countP_event]
    cases heard : allocates token event with
    | false => exact ledger.once token
    | true =>
      rcases grows with ⟨-, none⟩ | ⟨later, only⟩
      · cases heard.symm.trans (none token)
      · rw [only token heard, ledger.unreached i g kept get g' later inGeneration]
        decide

theorem Ledger.allocate (vacant : shown i = some (g, none)) (room : g + 1 < 2 ^ 32) :
    Ledger ((.allocate binding, .token (.ok (.new i (g + 1) .original))) :: history)
      (Function.update shown i (some (g + 1, some ⟨binding, true, false⟩))) := by
  have inSlot := (ledger.bounded i g none vacant).1
  apply ledger.change vacant room
  case busy =>
    rintro entry ⟨⟩
    exact .inl rfl
  case allocated =>
    rintro entry ⟨⟩
    exact List.mem_cons_self
  case outstanding =>
    rintro entry kind ⟨⟩ pending
    cases kind with
    | original => exact (Issuance.original (token_kind _ inSlot)).outstanding
    | asyncCancel => cases pending
  case elsewhere =>
    intro token elsewhere
    refine ⟨decide_eq_false ?_, rfl⟩
    rintro rfl
    exact elsewhere (token_slot _ inSlot)
  case balance =>
    rintro token inWord rfl
    have isToken : issues token (.allocate binding, .token (.ok (.new token.slot (g + 1) .original))) =
        (decide (g + 1 = token.generation) && decide (token.kind = .original)) := by
      unfold issues
      rw [← Bool.decide_and, decide_eq_decide, eq_comm, eq_new_iff inWord inSlot room]
      simp [eq_comm]
    rw [isToken, live_of_shown vacant]
    cases token.kind <;> simp [DirectDescriptorEntry.pending, completes]
  case grows =>
    refine .inr ⟨by omega, fun token heard => ?_⟩
    exact (of_decide_eq_true heard).symm

theorem Ledger.cancel {word : UInt64} (holds : Holds shown (.ofWord word) entry)
    (original : (DirectCompletionToken.ofWord word).kind = .original) (pending : entry.originalPending = true)
    (once : entry.cancelPending = false) :
    Ledger ((.issueCancel word, .token (.ok (.new (DirectCompletionToken.ofWord word).slot
        (DirectCompletionToken.ofWord word).generation .asyncCancel))) :: history)
      (Function.update shown (DirectCompletionToken.ofWord word).slot
        (some ((DirectCompletionToken.ofWord word).generation, some { entry with cancelPending := true }))) := by
  have inSlot := slot_lt (.ofWord word)
  have inGeneration := generation_lt (.ofWord word)
  have isWord := eq_new holds.inWord
  rw [original] at isWord
  have allocated := ledger.allocated _ _ _ holds.held
  apply ledger.change holds.held inGeneration
  case busy =>
    rintro entry' ⟨⟩
    exact .inr rfl
  case allocated =>
    rintro entry' ⟨⟩
    exact List.mem_cons_of_mem _ allocated
  case outstanding =>
    rintro entry' kind ⟨⟩ pending'
    cases kind with
    | original => exact (ledger.outstanding _ _ _ .original holds.held pending).cons rfl
    | asyncCancel =>
      rw [← isWord] at allocated
      exact (Issuance.cancel (token_kind _ inSlot) allocated).outstanding
  case elsewhere =>
    intro token elsewhere
    refine ⟨decide_eq_false ?_, rfl⟩
    rintro rfl
    exact elsewhere (token_slot _ inSlot)
  case balance =>
    intro token inWord here
    have isToken : issues token (.issueCancel word, .token (.ok (.new (DirectCompletionToken.ofWord word).slot
        (DirectCompletionToken.ofWord word).generation .asyncCancel))) =
        (decide ((DirectCompletionToken.ofWord word).generation = token.generation) &&
          decide (token.kind = .asyncCancel)) := by
      unfold issues
      rw [← Bool.decide_and, decide_eq_decide, eq_comm, eq_new_iff inWord inSlot inGeneration]
      simp [here, eq_comm]
    rw [isToken, live_of_shown (here ▸ holds.held)]
    cases token.kind <;> simp [DirectDescriptorEntry.pending, completes, once]
  case grows => exact .inl ⟨rfl, fun _ => rfl⟩

theorem Ledger.complete (holds : Holds shown (.ofWord word) entry)
    (pending : entry.pending (DirectCompletionToken.ofWord word).kind = true) :
    Ledger ((.complete word, .binding (.ok entry.binding)) :: history)
      (Function.update shown (DirectCompletionToken.ofWord word).slot
        (some ((DirectCompletionToken.ofWord word).generation,
          reaped entry (DirectCompletionToken.ofWord word).kind))) := by
  have inSlot := slot_lt (.ofWord word)
  have inGeneration := generation_lt (.ofWord word)
  apply ledger.change holds.held inGeneration
  case busy =>
    intro entry' kept
    exact (reaped_some kept).2
  case allocated =>
    intro entry' kept
    rw [(reaped_some kept).1]
    exact List.mem_cons_of_mem _ (ledger.allocated _ _ _ holds.held)
  case outstanding =>
    intro entry' kind kept pending'
    have stays := reaped_pending entry (DirectCompletionToken.ofWord word).kind kind
    rw [kept, Option.any_some, pending'] at stays
    obtain ⟨other, before⟩ := Bool.and_eq_true_iff.mp stays.symm
    rw [(reaped_some kept).1]
    apply (ledger.outstanding _ _ _ kind holds.held before).cons
    apply decide_eq_false
    intro same
    have sameKind := congrArg DirectCompletionToken.kind same
    rw [token_kind kind inSlot] at sameKind
    exact of_decide_eq_true other sameKind.symm
  case elsewhere =>
    intro token elsewhere
    refine ⟨rfl, decide_eq_false ?_⟩
    rintro rfl
    exact elsewhere rfl
  case balance =>
    intro token inWord here
    have isToken : completes token (.complete word, .binding (.ok entry.binding)) =
        (decide ((DirectCompletionToken.ofWord word).generation = token.generation) &&
          decide (token.kind = (DirectCompletionToken.ofWord word).kind)) := by
      unfold completes
      rw [← Bool.decide_and, decide_eq_decide, eq_comm, eq_iff inWord holds.inWord]
      simp [here, eq_comm]
    rw [isToken, live_of_shown (here ▸ holds.held), reaped_pending]
    by_cases same : token.kind = (DirectCompletionToken.ofWord word).kind <;> simp [same, pending, issues]
  case grows => exact .inl ⟨rfl, fun _ => rfl⟩

theorem Ledger.step (effect : Effect shown call reply shown') : Ledger ((call, reply) :: history) shown' := by
  cases effect with
  | refusedToken failure => exact ledger.quiet fun _ => by cases call <;> exact ⟨rfl, rfl, rfl⟩
  | refusedBinding failure => exact ledger.quiet fun _ => by cases call <;> exact ⟨rfl, rfl, rfl⟩
  | allocated binding inSlot room vacant => exact ledger.allocate vacant room
  | cancelled holds original pending once => exact ledger.cancel holds original pending once
  | resolved holds pending => exact ledger.quiet fun _ => ⟨rfl, rfl, rfl⟩
  | completed holds pending => exact ledger.complete holds pending

end

theorem ledger_new {capacity : UInt32} (created : DirectDescriptorTable.new capacity.toNat = .ok table) :
    Ledger [] (view table) ∧ table.slots.length = capacity.toNat ∧ capacity.toNat ≤ 2 ^ 31 := by
  unfold DirectDescriptorTable.new at created
  by_cases rejected : capacity.toNat = 0 ∨ capacity.toNat > 0x80000000
  · rw [if_pos rejected] at created
    cases created
  rw [if_neg rejected] at created
  cases created
  have small : capacity.toNat ≤ 2 ^ 31 := by omega
  have shown : ∀ i slot, view ⟨List.replicate capacity.toNat ⟨0, false, none⟩, 0⟩ i = some slot →
      i < capacity.toNat ∧ slot = (0, none) := by
    intro i slot get
    unfold view at get
    rw [List.getElem?_replicate] at get
    by_cases inside : i < capacity.toNat
    · rw [if_pos inside] at get
      cases get
      exact ⟨inside, rfl⟩
    · rw [if_neg inside] at get
      cases get
  refine ⟨?_, List.length_replicate, small⟩
  constructor
  case bounded =>
    intro i g kept get
    obtain ⟨inside, ⟨⟩⟩ := shown i _ get
    exact ⟨by omega, by decide⟩
  case busy =>
    intro i g entry get
    cases (shown i _ get).2
  case allocated =>
    intro i g entry get
    cases (shown i _ get).2
  case outstanding =>
    intro i g entry kind get
    cases (shown i _ get).2
  case balance =>
    intro token inWord
    have dead : live (view ⟨List.replicate capacity.toNat ⟨0, false, none⟩, 0⟩) token = false := by
      unfold live
      split
      next g kept get =>
        obtain ⟨-, ⟨⟩⟩ := shown _ _ get
        exact Bool.and_false _
      next => rfl
    rw [dead]
    rfl
  case unreached => exact fun _ _ _ _ _ _ _ => rfl
  case once => exact fun _ => Nat.zero_le 1

theorem run_ledger (small : table.slots.length ≤ 2 ^ 31) (ledger : Ledger [] (view table)) (calls : List DescriptorCall) :
    Ledger (run table calls).1 (view (run table calls).2) ∧
      (run table calls).2.slots.length = table.slots.length := by
  apply foldl_invariant (fun state : List Event × DirectDescriptorTable =>
    Ledger state.1 (view state.2) ∧ state.2.slots.length = table.slots.length)
  · rintro ⟨history, reached⟩ call ⟨ledger, length_eq⟩
    have acts := call_acts (by rw [length_eq]; exact small) call
    exact ⟨ledger.step acts.effect, acts.length_eq.trans length_eq⟩
  · exact ⟨ledger, rfl⟩

theorem accepted_outstanding (ledger : Ledger history (view table)) (small : table.slots.length ≤ 2 ^ 31)
    (accepted : (table.call (.complete word)).1 = .binding (.ok binding) ∨
      (table.call (.resolve word)).1 = .binding (.ok binding)) :
    Outstanding history (.ofWord word) binding := by
  obtain ⟨entry, holds, pending, rfl⟩ : ∃ entry, Holds (view table) (.ofWord word) entry ∧
      entry.pending (DirectCompletionToken.ofWord word).kind = true ∧ entry.binding = binding := by
    rcases accepted with reply | reply
    · have effect := (call_acts small (.complete word)).effect
      rw [reply] at effect
      generalize view (table.call (.complete word)).2 = shown' at effect
      cases effect with
      | completed holds pending => exact ⟨_, holds, pending, rfl⟩
    · have effect := (call_acts small (.resolve word)).effect
      rw [reply] at effect
      generalize view (table.call (.resolve word)).2 = shown' at effect
      cases effect with
      | resolved holds pending => exact ⟨_, holds, pending, rfl⟩
  rw [eq_new holds.inWord]
  exact ledger.outstanding _ _ _ _ holds.held pending

theorem freed_iff (ledger : Ledger history (view table)) (get : table.slots[i]? = some slot) :
    slot.entry = none ↔ ∀ kind, history.countP (issues (.new i slot.generation kind)) =
      history.countP (completes (.new i slot.generation kind)) := by
  have shows : view table i = some (slot.generation, slot.entry) := by
    unfold view
    rw [get]
    rfl
  obtain ⟨inSlot, inGeneration⟩ := ledger.bounded _ _ _ shows
  have balance : ∀ kind, history.countP (issues (.new i slot.generation kind)) =
      history.countP (completes (.new i slot.generation kind)) + (slot.entry.any (·.pending kind)).toNat := by
    intro kind
    have isSlot : (DirectCompletionToken.new i slot.generation kind).slot = i := token_slot kind inSlot
    rw [ledger.balance _ (new_lt inSlot inGeneration), live_of_shown (by rw [isSlot]; exact shows),
      token_generation kind inSlot inGeneration, token_kind kind inSlot]
    simp
  constructor
  · intro vacant kind
    rw [balance kind, vacant]
    rfl
  · intro settled
    by_contra filled
    obtain ⟨entry, isEntry⟩ := Option.ne_none_iff_exists'.mp filled
    rw [isEntry] at shows balance
    have original := balance .original
    have cancel := balance .asyncCancel
    rw [settled, Option.any_some] at original cancel
    rcases ledger.busy _ _ _ shows with pending | pending
    · simp [DirectDescriptorEntry.pending, pending] at original
    · simp [DirectDescriptorEntry.pending, pending] at cancel

/-- Whatever the kernel delivers, and in whatever order, a completion is accepted only for a token that is out, and
gives the binding it was handed out for. -/
theorem completion_tokens_never_alias (capacity : UInt32)
    (created : DirectDescriptorTable.new capacity.toNat = .ok table) (calls : List DescriptorCall) :
    (∀ word binding, (((run table calls).2.call (.complete word)).1 = .binding (.ok binding) ∨
        ((run table calls).2.call (.resolve word)).1 = .binding (.ok binding)) →
      Outstanding (run table calls).1 (.ofWord word) binding) ∧
    (∀ word, (run table calls).1.countP (completes (.ofWord word)) ≤
      (run table calls).1.countP (issues (.ofWord word))) ∧
    (∀ token, (run table calls).1.countP (allocates token) ≤ 1) ∧
    (∀ i slot, (run table calls).2.slots[i]? = some slot → (slot.entry = none ↔
      ∀ kind, (run table calls).1.countP (issues (.new i slot.generation kind)) =
        (run table calls).1.countP (completes (.new i slot.generation kind)))) ∧
    ∀ slot < capacity.toNat, ∀ generation, generation ≠ 0 → generation < 2 ^ 32 → ∀ kind,
      DirectCompletionToken.fromUserData (.ofNat (DirectCompletionToken.new slot generation kind).userData) =
        .ok (.new slot generation kind) ∧
      (DirectCompletionToken.new slot generation kind).userData < 2 ^ 64 ∧
      (DirectCompletionToken.new slot generation kind).slot = slot ∧
      (DirectCompletionToken.new slot generation kind).generation = generation ∧
      (DirectCompletionToken.new slot generation kind).kind = kind := by
  obtain ⟨start, length_eq, small⟩ := ledger_new created
  obtain ⟨ledger, length_run⟩ := run_ledger (by omega) start calls
  refine ⟨?_, ?_, ledger.once, ?_, ?_⟩
  · intro word binding accepted
    exact accepted_outstanding ledger (by omega) accepted
  · intro word
    rw [ledger.balance _ (ofWord_lt word)]
    exact Nat.le_add_right _ _
  · intro i slot get
    exact freed_iff ledger get
  · intro slot inside generation positive inGeneration kind
    have inSlot : slot < 2 ^ 31 := by omega
    have isGeneration := token_generation kind inSlot inGeneration
    have inWord : (DirectCompletionToken.new slot generation kind).userData < 2 ^ 64 := new_lt inSlot inGeneration
    refine ⟨fromUserData_userData inWord ?_, inWord, token_slot kind inSlot, isGeneration, token_kind kind inSlot⟩
    rwa [isGeneration]

def sampleBinding : DirectDescriptorBinding := ⟨⟨0, 1⟩, 7, .read⟩

def sampleCalls : List DescriptorCall := [.allocate sampleBinding, .issueCancel 4294967296, .complete 4294967296]

theorem sampleCalls_cancel_outstanding :
    Outstanding (run ⟨[⟨0, false, none⟩], 0⟩ sampleCalls).1 (.ofWord 4294967297) sampleBinding :=
  (completion_tokens_never_alias 1 rfl sampleCalls).1 4294967297 sampleBinding (.inl (by rfl))

end Histories

end Glmaxx.Proof.Descriptors
