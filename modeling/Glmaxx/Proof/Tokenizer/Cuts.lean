import Glmaxx.Proof.Tokenizer.Stops

namespace Glmaxx.Proof.Tokenizer
open Library Glmaxx.Tokenizer Glmaxx.Tokenizer.IncrementalDecoder

variable {text more : List UInt8} {stops : List Utf8String} {offset index : Nat} {d : IncrementalDecoder} {s : Stream}
  {tokenizer : PinnedTokenizer} {tokens : List UInt32} {tokenId : UInt32}

def result (s : Stream) : List UInt8 × Option StreamFinish := (s.text, s.decoder.finish)

def outcome (d : IncrementalDecoder) (tokens : List UInt32) : List UInt8 × Option StreamFinish :=
  result ((Stream.pushAll ⟨d, []⟩ tokens).endWith .finish)

def Settled (stops : List Utf8String) : Prop :=
  ∀ stop ∈ stops, ∀ length ≤ stop.bytes.length, isCharBoundary stop.bytes length = true →
    firstStop stops (stop.bytes.take length) = none ∨
      firstStop stops (stop.bytes.take length) = firstStop stops stop.bytes

instance (stops : List Utf8String) : Decidable (Settled stops) :=
  inferInstanceAs (Decidable (∀ stop ∈ stops, ∀ length ≤ stop.bytes.length, isCharBoundary stop.bytes length = true →
    firstStop stops (stop.bytes.take length) = none ∨
      firstStop stops (stop.bytes.take length) = firstStop stops stop.bytes))

section Settled

theorem Settled.of_start {stop : Utf8String} {start : List UInt8} (settled : Settled stops) (member : stop ∈ stops)
    (isText : Text text) (begins : start <+: stop.bytes) (ends : start <:+ text)
    (some : Matches (patterns stops) start ≠ ∅) : firstStop stops start = firstStop stops stop.bytes := by
  have isStart : stop.bytes.take start.length = start := (List.prefix_iff_eq_take.mp begins).symm
  have cut := settled stop member start.length begins.length_le (boundary_of_start isText begins ends)
  rw [isStart] at cut
  rcases cut with none | same
  · exact absurd (firstStop_eq_none_iff.mp none) some
  · exact same

theorem Settled.append (settled : Settled stops) (nonempty : [] ∉ patterns stops) (isText : Text text)
    (found : firstStop stops text = some (offset, index)) : firstStop stops (text ++ more) = some (offset, index) := by
  have first := firstStop_eq_some.mp found
  have whole := Matches.mono (List.prefix_append text more) first.1
  cases later : firstStop stops (text ++ more) with
  | none =>
    rw [firstStop_eq_none_iff.mp later] at whole
    exact absurd whole (Set.notMem_empty _)
  | some place =>
    obtain ⟨place, number⟩ := place
    have least := firstStop_eq_some.mp later
    have early := least.2 whole
    rw [Prod.Lex.toLex_le_toLex] at early
    by_cases inside : toLex (place, number) ∈ Matches (patterns stops) text
    · exact congrArg some (toLex.injective (le_antisymm (least.2 whole) (first.2 inside)))
    · -- the later match begins in the text and ends behind it
      have within : offset < text.length := Matches.offset_lt nonempty first.1
      obtain ⟨pattern, numbered, starts⟩ := least.1
      have isPattern := List.mem_of_getElem? numbered
      obtain ⟨stop, member, rfl⟩ := List.mem_map.mp isPattern
      have outside : ¬stop.bytes <+: text.drop place := fun starts => inside ⟨_, numbered, starts⟩
      rw [ofLex_toLex, List.drop_append_of_le_length (by omega)] at starts
      have begins : text.drop place <+: stop.bytes :=
        (List.prefix_or_prefix_of_prefix starts (List.prefix_append _ more)).resolve_left outside
      have split : text.take place ++ text.drop place = text := List.take_append_drop _ _
      have length_eq : (text.take place).length = place := by
        rw [List.length_take]
        omega
      have seen : ∀ {a k : Nat}, toLex (place + a, k) ∈ Matches (patterns stops) text ↔
          toLex (a, k) ∈ Matches (patterns stops) (text.drop place) := by
        intro a k
        have shifted := @mem_matches_append _ (patterns stops) (text.drop place) a (text.take place) k
        rw [split, length_eq] at shifted
        exact shifted
      have some : Matches (patterns stops) (text.drop place) ≠ ∅ := by
        intro none
        have shifted : toLex (place + (offset - place), index) ∈ Matches (patterns stops) text := by
          rw [Nat.add_sub_cancel' (by omega)]
          exact first.1
        rw [seen, none] at shifted
        exact absurd shifted (Set.notMem_empty _)
      have same := settled.of_start member isText begins (List.drop_suffix _ _) some
      have itself : toLex (0, number) ∈ Matches (patterns stops) stop.bytes := ⟨_, numbered, List.prefix_refl _⟩
      cases shows : firstStop stops stop.bytes with
      | none =>
        rw [firstStop_eq_none_iff.mp shows] at itself
        exact absurd itself (Set.notMem_empty _)
      | some head =>
        obtain ⟨a, k⟩ := head
        rw [shows, firstStop_eq_some] at same
        have atHead := (firstStop_eq_some.mp shows).2 itself
        have sooner := first.2 (seen.mpr same.1)
        rw [Prod.Lex.toLex_le_toLex] at atHead sooner
        simp only [Option.some.injEq, Prod.mk.injEq]
        omega

end Settled

section Outcomes

def wholeOutcome (stops : List Utf8String) (text : List UInt8) : List UInt8 × Option StreamFinish :=
  match firstStop stops text with
  | some (offset, index) => (text.take offset, some (.stopString index))
  | none => (text, some .endOfStream)

theorem Stopped.result_eq (stopped : Stopped stops text s offset index) :
    result s = (text.take offset, some (.stopString index)) := by
  unfold result
  rw [stopped.text_eq, stopped.finish_eq]

theorem outcome_eq_whole (settled : Settled stops) (created : IncrementalDecoder.new tokenizer stops = .ok d)
    (others : ∀ tokenId ∈ tokens, tokenizer.isEos tokenId = false) :
    outcome d tokens = wholeOutcome stops (fromUtf8Lossy (bytesOf tokenizer tokens)) := by
  rcases pushAll_reading created others with
    reading | ⟨before, tokenId, after, out, rest, offset, index, split, -, -, decodes, stopped⟩
  · rcases reading.finish with ⟨text_eq, finish_eq, stopless⟩ | ⟨offset, index, stopped⟩
    · unfold outcome result wholeOutcome
      rw [firstStop_eq_none_iff.mpr stopless, text_eq, finish_eq]
    · unfold outcome wholeOutcome
      rw [firstStop_eq_some.mpr stopped.first, stopped.result_eq]
  · have split : tokens = before ++ [tokenId] ++ after := by
      rw [split, List.append_assoc]
      rfl
    obtain ⟨later, isLater⟩ := decoded_prefix decodes (bytesOf tokenizer after)
    rw [← bytesOf_append, ← split] at isLater
    have nonempty := nil_notMem_patterns created
    have found : firstStop stops (out ++ later) = some (offset, index) :=
      settled.append nonempty decodes.text (firstStop_eq_some.mpr stopped.first)
    have within : offset < out.length := Matches.offset_lt nonempty stopped.first.1
    unfold outcome wholeOutcome
    rw [endWith_finished (by rw [stopped.finish_eq]; rfl), stopped.result_eq, ← isLater, found]
    simp only [List.take_append_of_le_length (Nat.le_of_lt within)]

theorem pushAll_finished (finished : s.decoder.finish.isSome = true) : s.pushAll tokens = s := by
  induction tokens with
  | nil => rfl
  | cons tokenId tokens ih =>
    unfold Stream.pushAll at ih ⊢
    rw [List.foldl_cons, take_push_finished finished]
    exact ih

theorem outcome_of_first (created : IncrementalDecoder.new tokenizer stops = .ok d)
    (other : tokenizer.isEos tokenId = false)
    (isText : Text (bytesOf tokenizer [tokenId]))
    (found : firstStop stops (bytesOf tokenizer [tokenId]) = some (offset, index)) :
    outcome d (tokenId :: tokens) = ((bytesOf tokenizer [tokenId]).take offset, some (.stopString index)) := by
  have first := firstStop_eq_some.mp found
  rcases (new_reading created).push other with reading | ⟨text, rest, place, number, decodes, stopped⟩
  · have stopless := reading.stopless
    rw [(reading.decoded.unique isText.decodes).1] at stopless
    rw [stopless] at first
    exact absurd first.1 (Set.notMem_empty _)
  · obtain ⟨rfl, -⟩ := decodes.unique isText.decodes
    have same := toLex.injective (stopped.first.unique first)
    rw [Prod.mk.injEq] at same
    obtain ⟨rfl, rfl⟩ := same
    have finished : (Stream.take (push tokenId) ⟨d, []⟩).decoder.finish.isSome = true := by
      rw [stopped.finish_eq]
      rfl
    have ran : Stream.pushAll ⟨d, []⟩ (tokenId :: tokens) = Stream.take (push tokenId) ⟨d, []⟩ :=
      pushAll_finished finished
    unfold outcome
    rw [ran, endWith_finished finished, stopped.result_eq]

theorem new_any (created : IncrementalDecoder.new tokenizer stops = .ok d) (other : PinnedTokenizer) :
    IncrementalDecoder.new other stops = .ok ⟨other, stops, [], [], none⟩ := by
  unfold IncrementalDecoder.new at created ⊢
  split at created
  · cases created
  · rename_i accepted
    rw [if_neg accepted]

theorem firstStop_self {stop : Utf8String} (member : stop ∈ stops) : ∃ place, firstStop stops stop.bytes = some place := by
  cases shows : firstStop stops stop.bytes with
  | some place => exact ⟨place, rfl⟩
  | none =>
    rw [firstStop_eq_none_iff, matches_eq_empty_iff] at shows
    exact absurd (List.infix_refl _) (shows _ (List.mem_map_of_mem member))

theorem text_take {stop : Utf8String} {length : Nat} (boundary : isCharBoundary stop.bytes length = true) :
    Text (stop.bytes.take length) := by
  have all := Text.of_valid stop.valid
  rw [← List.take_append_drop length stop.bytes] at all
  apply (all.split _).1
  intro byte starts
  rw [List.head?_drop, Option.mem_def] at starts
  have within : length < stop.bytes.length := (List.getElem?_eq_some_iff.mp starts).1
  unfold isCharBoundary at boundary
  rw [starts] at boundary
  rcases Nat.eq_zero_or_pos length with rfl | positive
  · rw [← List.head?_eq_getElem?] at starts
    exact (Text.of_valid stop.valid).head byte starts
  · simpa [within.ne, positive.ne'] using boundary

/-- How the bytes are cut into tokens never matters exactly when the stop strings are settled. -/
theorem outcome_independent_iff (created : IncrementalDecoder.new tokenizer stops = .ok d) :
    (∀ tokenizer d, IncrementalDecoder.new tokenizer stops = .ok d → ∀ first second : List UInt32,
      (∀ tokenId ∈ first, tokenizer.isEos tokenId = false) → (∀ tokenId ∈ second, tokenizer.isEos tokenId = false) →
      bytesOf tokenizer first = bytesOf tokenizer second → outcome d first = outcome d second) ↔ Settled stops := by
  constructor
  · intro independent stop member length within boundary
    cases found : firstStop stops (stop.bytes.take length) with
    | none => exact .inl rfl
    | some place =>
      apply Or.inr
      obtain ⟨offset, index⟩ := place
      obtain ⟨⟨place, number⟩, shows⟩ := firstStop_self member
      -- one token for the start of the stop string, one for the rest, and one for the whole
      let cutting : PinnedTokenizer :=
        ⟨[.bytes (stop.bytes.take length), .bytes (stop.bytes.drop length), .bytes stop.bytes], []⟩
      have created := new_any created cutting
      have start : bytesOf cutting [0] = stop.bytes.take length := by
        simp [cutting, bytesOf, PinnedTokenizer.tokenBytes]
      have all : bytesOf cutting [2] = stop.bytes := by simp [cutting, bytesOf, PinnedTokenizer.tokenBytes]
      have same := independent cutting _ created [0, 1] [2] (by simp [cutting, PinnedTokenizer.isEos])
        (by simp [cutting, PinnedTokenizer.isEos]) (by simp [cutting, bytesOf, PinnedTokenizer.tokenBytes])
      have cut : outcome ⟨cutting, stops, [], [], none⟩ [0, 1] = _ :=
        outcome_of_first created rfl (start ▸ text_take boundary) (start ▸ found)
      have whole : outcome ⟨cutting, stops, [], [], none⟩ [2] = _ :=
        outcome_of_first created rfl (all ▸ Text.of_valid stop.valid) (all ▸ shows)
      rw [cut, whole, start, all, Prod.mk.injEq, Option.some.injEq, StreamFinish.stopString.injEq] at same
      have nonempty := nil_notMem_patterns created
      have early := Matches.offset_lt nonempty (firstStop_eq_some.mp found).1
      have early' := Matches.offset_lt nonempty (firstStop_eq_some.mp shows).1
      have lengths := congrArg List.length same.1
      simp only [List.length_take, ofLex_toLex] at lengths early early'
      rw [shows, same.2, show offset = place by omega]
  · intro settled tokenizer d created first second firstOthers secondOthers same
    rw [outcome_eq_whole settled created firstOthers, outcome_eq_whole settled created secondOthers, same]

def nestedStops : List Utf8String := [⟨[0x61, 0x62, 0x63, 0x64], by decide⟩, ⟨[0x62, 0x63], by decide⟩]

def nestedTokenizer : PinnedTokenizer :=
  ⟨[.bytes [0x61, 0x62, 0x63], .bytes [0x64], .bytes [0x61, 0x62, 0x63, 0x64]], []⟩

/-- The inner stop string ends the stream if the outer one has not come as a whole. -/
theorem nestedStops_depend_on_cut :
    IncrementalDecoder.new nestedTokenizer nestedStops = .ok ⟨nestedTokenizer, nestedStops, [], [], none⟩ ∧
    (∀ tokenId ∈ [0, 1, 2], nestedTokenizer.isEos tokenId = false) ∧
    bytesOf nestedTokenizer [0, 1] = bytesOf nestedTokenizer [2] ∧
    outcome ⟨nestedTokenizer, nestedStops, [], [], none⟩ [0, 1] = ([0x61], some (.stopString 1)) ∧
    outcome ⟨nestedTokenizer, nestedStops, [], [], none⟩ [2] = ([], some (.stopString 0)) := by
  refine ⟨rfl, ?_, by rfl, by rfl, by rfl⟩
  simp [nestedTokenizer, PinnedTokenizer.isEos]

theorem nestedStops_not_settled :
    ¬Settled nestedStops ∧ ¬∀ tokenizer d, IncrementalDecoder.new tokenizer nestedStops = .ok d →
      ∀ first second : List UInt32, (∀ tokenId ∈ first, tokenizer.isEos tokenId = false) →
        (∀ tokenId ∈ second, tokenizer.isEos tokenId = false) →
        bytesOf tokenizer first = bytesOf tokenizer second → outcome d first = outcome d second := by
  have created : IncrementalDecoder.new nestedTokenizer nestedStops = .ok ⟨nestedTokenizer, nestedStops, [], [], none⟩ := rfl
  have not_settled : ¬Settled nestedStops := by decide
  exact ⟨not_settled, fun independent => not_settled ((outcome_independent_iff created).mp independent)⟩

end Outcomes

end Glmaxx.Proof.Tokenizer
