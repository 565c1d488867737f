import Glmaxx.Library.Matching
import Glmaxx.Proof.Tokenizer.Stream

namespace Glmaxx.Proof.Tokenizer
open Library Glmaxx.Tokenizer Glmaxx.Tokenizer.IncrementalDecoder

variable {text rest out held seen : List UInt8} {stop : List UInt8} {stops : List Utf8String} {offset index : Nat}
  {d : IncrementalDecoder} {s : Stream} {tokenizer : PinnedTokenizer} {tokens : List UInt32} {tokenId : UInt32}

def patterns (stops : List Utf8String) : List (List UInt8) := stops.map Utf8String.bytes

section Search

theorem find_spec (stop text : List UInt8) : match find stop text with
    | some offset => IsLeast {offset | stop <+: text.drop offset} offset
    | none => ∀ offset, ¬stop <+: text.drop offset := by
  induction text with
  | nil =>
    unfold find
    by_cases empty : stop = []
    · rw [if_pos empty]
      exact ⟨by simp [empty], fun offset _ => Nat.zero_le offset⟩
    · rw [if_neg empty]
      intro offset starts
      rw [List.drop_nil, List.prefix_nil] at starts
      exact empty starts
  | cons byte text ih =>
    unfold find
    by_cases starts : stop <+: byte :: text
    · rw [if_pos starts]
      exact ⟨starts, fun offset _ => Nat.zero_le offset⟩
    · rw [if_neg starts]
      cases found : find stop text with
      | none =>
        rw [found] at ih
        intro offset
        cases offset with
        | zero => exact starts
        | succ offset => exact ih offset
      | some first =>
        rw [found] at ih
        refine ⟨ih.1, fun offset other => ?_⟩
        cases offset with
        | zero => exact absurd other starts
        | succ offset => exact Nat.succ_le_succ (ih.2 other)

theorem mem_matches_concat {stop : Utf8String} {m : ℕ ×ₗ ℕ} : m ∈ Matches (patterns (stops ++ [stop])) text ↔
      m ∈ Matches (patterns stops) text ∨ (ofLex m).2 = stops.length ∧ stop.bytes <+: text.drop (ofLex m).1 := by
  simp only [Matches, Set.mem_ofPred_eq, patterns, List.map_append, List.map_cons, List.map_nil]
  rcases Nat.lt_trichotomy (ofLex m).2 stops.length with less | same | more
  · rw [List.getElem?_append_left (by simpa using less)]
    simp [less.ne]
  · rw [List.getElem?_append_right (by simp [same])]
    simp [same]
  · rw [List.getElem?_eq_none (by simpa using more)]
    simp [more.ne', Nat.le_of_lt more]

theorem index_lt {m : ℕ ×ₗ ℕ} (found : m ∈ Matches (patterns stops) text) : (ofLex m).2 < stops.length := by
  obtain ⟨pattern, numbered, -⟩ := found
  obtain ⟨within, -⟩ := List.getElem?_eq_some_iff.mp numbered
  simpa [patterns] using within

theorem firstStop_concat (stops : List Utf8String) (stop : Utf8String) (text : List UInt8) :
    firstStop (stops ++ [stop]) text = match firstStop stops text, find stop.bytes text with
      | some (offset, _), some other => if other < offset then some (other, stops.length) else firstStop stops text
      | none, some other => some (other, stops.length)
      | _, none => firstStop stops text := by
  unfold firstStop
  rw [List.zipIdx_append, List.foldl_append, Nat.zero_add, List.zipIdx_singleton]
  generalize stops.zipIdx.foldl _ none = best
  cases best <;> cases searched : find stop.bytes text <;>
    simp only [List.foldl_cons, List.foldl_nil, searched]

theorem firstStop_spec (stops : List Utf8String) (text : List UInt8) : match firstStop stops text with
    | some (offset, index) => IsLeast (Matches (patterns stops) text) (toLex (offset, index))
    | none => Matches (patterns stops) text = ∅ := by
  induction stops using List.reverseRecOn with
  | nil => simp [firstStop, patterns, Matches]
  | append_singleton stops stop ih =>
    have found := find_spec stop.bytes text
    rw [firstStop_concat]
    cases best : firstStop stops text with
    | none =>
      rw [best] at ih
      cases other : find stop.bytes text with
      | none =>
        rw [other] at found
        rw [Set.eq_empty_iff_forall_notMem] at ih ⊢
        intro m inside
        rcases mem_matches_concat.mp inside with before | ⟨-, starts⟩
        · exact ih m before
        · exact found _ starts
      | some first =>
        rw [other] at found
        refine ⟨mem_matches_concat.mpr (.inr ⟨rfl, found.1⟩), fun m inside => ?_⟩
        rcases mem_matches_concat.mp inside with before | ⟨last, starts⟩
        · rw [ih] at before
          exact absurd before (Set.notMem_empty m)
        · have least := found.2 starts
          rw [Prod.Lex.le_iff]
          simp only [ofLex_toLex, last]
          omega
    | some place =>
      obtain ⟨offset, index⟩ := place
      rw [best] at ih
      have earlier := index_lt ih.1
      simp only [ofLex_toLex] at earlier
      cases other : find stop.bytes text with
      | none =>
        rw [other] at found
        refine ⟨mem_matches_concat.mpr (.inl ih.1), fun m inside => ?_⟩
        rcases mem_matches_concat.mp inside with before | ⟨-, starts⟩
        · exact ih.2 before
        · exact absurd starts (found _)
      | some first =>
        rw [other] at found
        by_cases sooner : first < offset
        · simp only [if_pos sooner]
          refine ⟨mem_matches_concat.mpr (.inr ⟨rfl, found.1⟩), fun m inside => ?_⟩
          rcases mem_matches_concat.mp inside with before | ⟨last, starts⟩
          · have least := ih.2 before
            rw [Prod.Lex.le_iff] at least ⊢
            simp only [ofLex_toLex] at least ⊢
            omega
          · have least := found.2 starts
            rw [Prod.Lex.le_iff]
            simp only [ofLex_toLex, last]
            omega
        · simp only [if_neg sooner]
          refine ⟨mem_matches_concat.mpr (.inl ih.1), fun m inside => ?_⟩
          rcases mem_matches_concat.mp inside with before | ⟨last, starts⟩
          · exact ih.2 before
          · have least := found.2 starts
            rw [Prod.Lex.le_iff]
            simp only [ofLex_toLex, last]
            omega

theorem firstStop_eq_some : firstStop stops text = some (offset, index) ↔
    IsLeast (Matches (patterns stops) text) (toLex (offset, index)) := by
  have spec := firstStop_spec stops text
  constructor
  · intro found
    rw [found] at spec
    exact spec
  · intro least
    cases found : firstStop stops text with
    | none =>
      rw [found] at spec
      rw [spec] at least
      exact absurd least.1 (Set.notMem_empty _)
    | some place =>
      rw [found] at spec
      exact congrArg some (toLex.injective (spec.unique least))

theorem firstStop_eq_none_iff : firstStop stops text = none ↔ Matches (patterns stops) text = ∅ := by
  have spec := firstStop_spec stops text
  cases found : firstStop stops text with
  | none =>
    rw [found] at spec
    exact ⟨fun _ => spec, fun _ => rfl⟩
  | some place =>
    rw [found] at spec
    refine ⟨nofun, fun none => ?_⟩
    rw [none] at spec
    exact absurd spec.1 (Set.notMem_empty _)

end Search

section Holding

theorem stopPrefixSuffix_longest {length : Nat} (positive : 0 < length) (within : length ≤ text.length)
    (reaches : length ≤ stop.length) (boundary : isCharBoundary stop length = true) (ends : stop.take length <:+ text) :
    length ≤ stopPrefixSuffix text stop := by
  have value : stopPrefixSuffix text stop = ((List.range' 1 (min text.length stop.length)).reverse.find? fun length =>
      isCharBoundary stop length && decide (stop.take length <:+ text)).getD 0 := rfl
  have member : length ∈ (List.range' 1 (min text.length stop.length)).reverse := by
    rw [List.mem_reverse, List.mem_range'_1]
    omega
  have holds : (isCharBoundary stop length && decide (stop.take length <:+ text)) = true := by
    rw [boundary, decide_eq_true ends]
    rfl
  cases found : (List.range' 1 (min text.length stop.length)).reverse.find? fun length =>
      isCharBoundary stop length && decide (stop.take length <:+ text) with
  | none => exact absurd holds (List.find?_eq_none.mp found length member)
  | some first =>
    obtain ⟨-, larger, smaller, split, none⟩ := List.find?_eq_some_iff_append.mp found
    rw [value, found]
    have ordered : (List.range' 1 (min text.length stop.length)).reverse.Pairwise (· > ·) :=
      List.pairwise_reverse.mpr List.pairwise_lt_range'
    rw [split] at ordered member
    rcases List.mem_append.mp member with before | after
    · have refused := none length before
      rw [holds] at refused
      cases refused
    · rcases List.mem_cons.mp after with same | later
      · exact Nat.le_of_eq same
      · exact Nat.le_of_lt ((List.pairwise_cons.mp (List.pairwise_append.mp ordered).2.1).1 length later)

theorem le_foldl_max (values : List Nat) (start : Nat) :
    start ≤ values.foldl max start ∧ ∀ value ∈ values, value ≤ values.foldl max start := by
  induction values generalizing start with
  | nil => exact ⟨Nat.le_refl _, nofun⟩
  | cons first values ih =>
    rw [List.foldl_cons, List.forall_mem_cons]
    obtain ⟨most, all⟩ := ih (max start first)
    exact ⟨(le_max_left _ _).trans most, (le_max_right _ _).trans most, all⟩

theorem boundary_of_start {stop : Utf8String} {start : List UInt8} (isText : Text text) (begins : start <+: stop.bytes)
    (ends : start <:+ text) : isCharBoundary stop.bytes start.length = true := by
  obtain ⟨later, whole⟩ := begins
  obtain ⟨front, same⟩ := ends
  have all := Text.of_valid stop.valid
  rw [← whole] at all ⊢
  unfold isCharBoundary
  cases later with
  | nil => simp
  | cons next later =>
    have startText : Text start := by
      cases start with
      | nil => exact .nil
      | cons first start =>
        have leads := all.head first rfl
        rw [← same] at isText
        exact (isText.split (by rintro byte ⟨⟩; exact leads)).2
    have leads := (startText.of_append all).head next rfl
    simp [leads]

theorem held_longest (isText : Text d.heldText) (none : Matches (patterns d.stops) d.heldText = ∅) :
    Held (patterns d.stops) d.heldText (d.heldText.drop (d.heldText.length - d.longestStopPrefixSuffix)) := by
  obtain ⟨within, -⟩ := longest_boundary d
  have length_eq : (d.heldText.drop (d.heldText.length - d.longestStopPrefixSuffix)).length = d.longestStopPrefixSuffix := by
    rw [List.length_drop]
    omega
  refine ⟨List.drop_suffix _ _, ?_, ?_⟩
  · rcases longest_spec d with zero | ⟨stop, member, -, reaches, ends⟩
    · rw [zero, Nat.sub_zero, List.drop_length]
      exact .inl rfl
    · have same : d.heldText.drop (d.heldText.length - d.longestStopPrefixSuffix) =
          stop.bytes.take d.longestStopPrefixSuffix := by
        have ends := List.suffix_iff_eq_drop.mp ends
        rw [List.length_take, Nat.min_eq_left reaches] at ends
        exact ends.symm
      rw [same]
      refine .inr ⟨stop.bytes, List.mem_map_of_mem member, List.take_prefix _ _, ?_⟩
      intro all
      rw [all] at ends
      exact matches_eq_empty_iff.mp none _ (List.mem_map_of_mem member) ends.isInfix
  · intro pattern isPattern start begins short ends
    obtain ⟨stop, member, rfl⟩ := List.mem_map.mp isPattern
    rw [length_eq]
    rcases Nat.eq_zero_or_pos start.length with zero | positive
    · omega
    · have isStart := List.prefix_iff_eq_take.mp begins
      have most := stopPrefixSuffix_longest positive ends.length_le begins.length_le
        (boundary_of_start isText begins ends) (isStart ▸ ends)
      exact most.trans ((le_foldl_max _ 0).2 _ (List.mem_map_of_mem member))

end Holding

section Streams

/-- A stream in which no stop string has come, and which holds back no more than one may begin with. -/
structure Reading (tokenizer : PinnedTokenizer) (stops : List Utf8String) (seen : List UInt8) (s : Stream) : Prop extends
    Streaming tokenizer stops seen s where
  stopless : Matches (patterns stops) (s.text ++ s.decoder.heldText) = ∅
  held : Held (patterns stops) (s.text ++ s.decoder.heldText) s.decoder.heldText

/-- A stream ended by stop string `index`, having put out the text in front of the first match. -/
structure Stopped (stops : List Utf8String) (text : List UInt8) (s : Stream) (offset index : Nat) : Prop where
  finish_eq : s.decoder.finish = some (.stopString index)
  text_eq : s.text = text.take offset
  first : IsLeast (Matches (patterns stops) text) (toLex (offset, index))

theorem nil_notMem_patterns (created : IncrementalDecoder.new tokenizer stops = .ok d) : [] ∉ patterns stops := by
  unfold IncrementalDecoder.new at created
  split at created
  · cases created
  · rename_i accepted
    intro member
    obtain ⟨stop, inside, empty⟩ := List.mem_map.mp member
    refine accepted (.inr (List.any_eq_true.mpr ⟨stop, inside, ?_⟩))
    simp [empty]

theorem new_reading (created : IncrementalDecoder.new tokenizer stops = .ok d) :
    Reading tokenizer stops [] ⟨d, []⟩ := by
  have streaming := new_streaming created
  have fresh : d.heldText = [] := by
    unfold IncrementalDecoder.new at created
    split at created
    · cases created
    · cases created
      rfl
  refine ⟨streaming, ?_, ?_⟩
  · show Matches _ ([] ++ d.heldText) = ∅
    rw [fresh, matches_eq_empty_iff]
    rintro pattern member ⟨front, back, same⟩
    simp only [List.append_nil, List.append_eq_nil_iff] at same
    exact nil_notMem_patterns created (same.1.2 ▸ member)
  · show Held _ ([] ++ d.heldText) d.heldText
    rw [fresh]
    exact .nil _

theorem Reading.heldText (reading : Reading tokenizer stops seen s) (isText : Text out) :
    Text (s.decoder.heldText ++ out) := by
  have whole := reading.decoded.text.decodes.append isText.decodes
  rcases reading.held.begins with empty | ⟨pattern, member, begins, -⟩
  · rw [empty]
    exact isText
  · obtain ⟨stop, -, rfl⟩ := List.mem_map.mp member
    cases same : s.decoder.heldText with
    | nil => exact isText
    | cons first later =>
      rw [same] at begins whole
      obtain ⟨back, isStop⟩ := begins
      have leads := (Text.of_valid stop.valid).head first (by rw [← isStop]; rfl)
      rw [List.append_assoc] at whole
      exact (whole.text.split (by rintro byte ⟨⟩; exact leads)).2

/-- What `apply_stops` does to text that joins what a reading stream holds. -/
theorem Reading.applyStops (reading : Reading tokenizer stops seen s) (decoder : IncrementalDecoder)
    (isStops : decoder.stops = stops) (isHeld : decoder.heldText = s.decoder.heldText)
    (isText : Text out) :
    (∃ text held, applyStops out decoder = (.ok ⟨text, none⟩, { decoder with heldText := held }) ∧
      text ++ held = s.decoder.heldText ++ out ∧
      Matches (patterns stops) (s.text ++ s.decoder.heldText ++ out) = ∅ ∧
      Held (patterns stops) (s.text ++ s.decoder.heldText ++ out) held) ∨
    (∃ offset index, IncrementalDecoder.applyStops out decoder =
        (.ok ⟨(s.decoder.heldText ++ out).take offset, some (.stopString index)⟩,
          { decoder with heldText := [], pendingUtf8 := [], finish := some (.stopString index) }) ∧
      IsLeast (Matches (patterns stops) (s.text ++ s.decoder.heldText ++ out)) (toLex (s.text.length + offset, index))) := by
  subst isStops
  have covers : ∀ m ∈ Matches (patterns decoder.stops) (s.text ++ (s.decoder.heldText ++ out)),
      s.text.length ≤ (ofLex m).1 := by
    intro m found
    rw [← List.append_assoc] at found
    exact reading.held.covers reading.stopless found
  have applied := applyStops_eq out decoder
  rw [isHeld] at applied
  cases found : firstStop decoder.stops (s.decoder.heldText ++ out) with
  | some place =>
    obtain ⟨offset, index⟩ := place
    rw [found] at applied
    refine .inr ⟨offset, index, applied, ?_⟩
    rw [List.append_assoc]
    exact isLeast_matches_append covers (firstStop_eq_some.mp found)
  | none =>
    rw [found] at applied
    have nothing := firstStop_eq_none_iff.mp found
    have kept := @held_longest { decoder with heldText := s.decoder.heldText ++ out } (reading.heldText isText) nothing
    refine .inl ⟨_, _, applied.trans (emitHeld_eq _), List.take_append_drop _ _, ?_, reading.held.append reading.stopless kept⟩
    rw [List.append_assoc, Set.eq_empty_iff_forall_notMem]
    intro m inside
    obtain ⟨⟨place, number⟩, rfl⟩ := toLex.surjective m
    obtain ⟨later, same⟩ := Nat.exists_eq_add_of_le (covers _ inside)
    have same : place = s.text.length + later := same
    rw [same, mem_matches_append, nothing] at inside
    exact absurd inside (Set.notMem_empty _)

theorem Reading.push (reading : Reading tokenizer stops seen s) (other : tokenizer.isEos tokenId = false) :
    Reading tokenizer stops (seen ++ bytesOf tokenizer [tokenId]) (s.take (push tokenId)) ∨
      ∃ text rest offset index, Decodes (seen ++ bytesOf tokenizer [tokenId]) text rest ∧
        Stopped stops text (s.take (IncrementalDecoder.push tokenId)) offset index := by
  have isTokenizer := reading.tokenizer_eq
  subst isTokenizer
  obtain ⟨out, rest, later⟩ := decodes_exists (s.decoder.pendingUtf8 ++ bytesOf s.decoder.tokenizer [tokenId])
  have ran := push_eq reading.going other later
  have whole := reading.decoded.append later
  cases output : s.decoder.tokenizer.tokenBytes tokenId with
  | error failure =>
    rw [output] at ran
    have refused : s.take (IncrementalDecoder.push tokenId) = s := by
      unfold Stream.take
      rw [ran]
    have nothing : bytesOf s.decoder.tokenizer [tokenId] = [] := by simp [bytesOf, output]
    rw [refused, nothing, List.append_nil]
    exact .inl reading
  | ok bytes =>
    rw [output] at ran
    rcases reading.applyStops { s.decoder with pendingUtf8 := rest } reading.stops_eq rfl later.text with
      ⟨text, held, applied, same, stopless, isHeld⟩ | ⟨offset, index, applied, first⟩
    · rw [take_ok (ran.trans applied)]
      have joined : s.text ++ text ++ held = s.text ++ s.decoder.heldText ++ out := by
        rw [List.append_assoc, same, List.append_assoc]
      refine .inl ⟨⟨rfl, reading.stops_eq, reading.going, ?_⟩, ?_, ?_⟩
      · exact joined ▸ whole
      · exact joined ▸ stopless
      · exact joined ▸ isHeld
    · rw [take_ok (ran.trans applied)]
      refine .inr ⟨_, rest, _, index, whole, rfl, ?_, first⟩
      show s.text ++ (s.decoder.heldText ++ out).take offset = _
      rw [List.append_assoc, List.take_length_add_append]

theorem take_push_finished (finished : s.decoder.finish.isSome = true) : s.take (push tokenId) = s := by
  have refused : push tokenId s.decoder = (.error .streamFinished, s.decoder) := congrFun (if_pos finished) s.decoder
  unfold Stream.take
  rw [refused]

theorem endWith_finished (finished : s.decoder.finish.isSome = true) : s.endWith .finish = s := by
  have refused : finishStream s.decoder = (.error .streamFinished, s.decoder) := congrFun (if_pos finished) s.decoder
  unfold Stream.endWith Stream.take
  simp only [refused]

theorem pushAll_reading (created : IncrementalDecoder.new tokenizer stops = .ok d)
    (others : ∀ tokenId ∈ tokens, tokenizer.isEos tokenId = false) :
    Reading tokenizer stops (bytesOf tokenizer tokens) (Stream.pushAll ⟨d, []⟩ tokens) ∨
      ∃ before tokenId after text rest offset index, tokens = before ++ tokenId :: after ∧
        Reading tokenizer stops (bytesOf tokenizer before) (Stream.pushAll ⟨d, []⟩ before) ∧
        Stream.pushAll ⟨d, []⟩ tokens = Stream.pushAll ⟨d, []⟩ (before ++ [tokenId]) ∧
        Decodes (bytesOf tokenizer (before ++ [tokenId])) text rest ∧
        Stopped stops text (Stream.pushAll ⟨d, []⟩ tokens) offset index := by
  induction tokens using List.reverseRecOn with
  | nil => exact .inl (new_reading created)
  | append_singleton tokens tokenId ih =>
    have next : Stream.pushAll ⟨d, []⟩ (tokens ++ [tokenId]) = (Stream.pushAll ⟨d, []⟩ tokens).take (push tokenId) := by
      unfold Stream.pushAll
      rw [List.foldl_append]
      rfl
    rcases ih fun other member => others other (List.mem_append_left _ member) with
      reading | ⟨before, last, after, text, rest, offset, index, rfl, reading, same, decodes, stopped⟩
    · rcases reading.push (others tokenId (by simp)) with reads | ⟨text, rest, offset, index, decodes, stopped⟩
      · rw [next, bytesOf_append]
        exact .inl reads
      · refine .inr ⟨tokens, tokenId, [], text, rest, offset, index, rfl, reading, rfl, ?_, ?_⟩
        · rw [bytesOf_append]
          exact decodes
        · rw [next]
          exact stopped
    · have stays : Stream.pushAll ⟨d, []⟩ (before ++ last :: after ++ [tokenId]) =
          Stream.pushAll ⟨d, []⟩ (before ++ last :: after) :=
        next.trans (take_push_finished (by rw [stopped.finish_eq]; rfl))
      rw [stays]
      exact .inr ⟨before, last, after ++ [tokenId], text, rest, offset, index, by simp, reading, same, decodes, stopped⟩

section Stopped
variable (stopped : Stopped stops text s offset index)
include stopped

theorem Stopped.stop_follows : ∃ stop, stops[index]? = some stop ∧ s.text ++ stop.bytes <+: text := by
  obtain ⟨pattern, numbered, starts⟩ := stopped.first.1
  rw [patterns, List.getElem?_map, Option.map_eq_some_iff] at numbered
  obtain ⟨stop, numbered, rfl⟩ := numbered
  refine ⟨stop, numbered, ?_⟩
  have joined := (List.prefix_append_right_inj (text.take offset)).mpr starts
  rw [ofLex_toLex, List.take_append_drop] at joined
  rw [stopped.text_eq]
  exact joined

theorem Stopped.before_any {stop : Utf8String} {place : Nat} (member : stop ∈ stops)
    (starts : stop.bytes <+: text.drop place) : s.text.length ≤ place := by
  obtain ⟨number, isNumber⟩ := List.getElem?_of_mem (List.mem_map_of_mem member : stop.bytes ∈ patterns stops)
  have found : toLex (place, number) ∈ Matches (patterns stops) text := ⟨_, isNumber, starts⟩
  have least := stopped.first.2 found
  rw [Prod.Lex.le_iff] at least
  simp only [ofLex_toLex] at least
  rw [stopped.text_eq, List.length_take]
  omega

theorem Stopped.no_stop (nonempty : [] ∉ patterns stops) : ∀ stop ∈ stops, ¬stop.bytes <:+: s.text := by
  intro stop member occurs
  obtain ⟨place, starts⟩ := infix_iff_exists_drop.mp occurs
  have isPrefix : s.text <+: text := stopped.text_eq ▸ List.take_prefix _ _
  have late := stopped.before_any member (starts.trans (isPrefix.drop place))
  rw [List.drop_eq_nil_of_le late, List.prefix_nil] at starts
  exact nonempty (starts ▸ List.mem_map_of_mem member)

end Stopped

theorem text_replaced (rest : List UInt8) : Text (replaced rest) := by
  unfold replaced
  split
  · exact .nil
  · have text : Text (replacement ++ []) := .cons (by decide) .nil
    exact text

theorem Reading.finish (reading : Reading tokenizer stops seen s) :
    ((s.endWith .finish).text = fromUtf8Lossy seen ∧ (s.endWith .finish).decoder.finish = some .endOfStream ∧
      Matches (patterns stops) (fromUtf8Lossy seen) = ∅) ∨
    ∃ offset index, Stopped stops (fromUtf8Lossy seen) (s.endWith .finish) offset index := by
  have body : finishStream s.decoder = (do
      let stopDelta ← IncrementalDecoder.applyStops (replaced s.decoder.pendingUtf8)
      if stopDelta.finish.isSome then pure stopDelta
      else do
        let held ← releaseHeld
        close (stopDelta.text ++ held) .endOfStream : DecodesTokens DecodeDelta) { s.decoder with pendingUtf8 := [] } :=
    (congrFun (if_neg (by rw [reading.going]; nofun)) s.decoder).trans
      (Action.bind_ok (decodeUtf8_ok reading.pending).2)
  rw [reading.decoded.lossy]
  rcases reading.applyStops { s.decoder with pendingUtf8 := [] } reading.stops_eq rfl (text_replaced s.decoder.pendingUtf8)
    with ⟨text, held, applied, same, stopless, isHeld⟩ | ⟨offset, index, applied, first⟩
  · have ran := body.trans ((Action.bind_ok applied).trans
      ((congrFun (if_neg nofun) _).trans ((Action.bind_ok rfl).trans rfl)))
    refine .inl ⟨?_, ?_, stopless⟩
    · refine (congrArg Stream.text (take_ok ran)).trans ?_
      show s.text ++ (text ++ held) = _
      rw [same, List.append_assoc]
    · exact congrArg (fun s : Stream => s.decoder.finish) (take_ok ran)
  · have ran := body.trans ((Action.bind_ok applied).trans (congrFun (if_pos rfl) _))
    refine .inr ⟨_, index, ?_, ?_, first⟩
    · exact congrArg (fun s : Stream => s.decoder.finish) (take_ok ran)
    · refine (congrArg Stream.text (take_ok ran)).trans ?_
      show s.text ++ (s.decoder.heldText ++ replaced s.decoder.pendingUtf8).take offset = _
      rw [List.append_assoc, List.take_length_add_append]

theorem applyStops_isOk (decoded : List UInt8) (d : IncrementalDecoder) :
    ∃ delta after, applyStops decoded d = (.ok delta, after) := by
  rw [applyStops_eq]
  cases firstStop d.stops (d.heldText ++ decoded) with
  | some place => exact ⟨_, _, rfl⟩
  | none => exact ⟨_, _, emitHeld_eq _⟩

theorem push_ne_decode (tokenId : UInt32) (d : IncrementalDecoder) : (push tokenId d).1 ≠ .error .decode := by
  by_cases finished : d.finish.isSome = true
  · rw [show push tokenId d = (.error .streamFinished, d) from congrFun (if_pos finished) d]
    nofun
  · have going : d.finish = none := Option.not_isSome_iff_eq_none.mp finished
    cases isEos : d.tokenizer.isEos tokenId with
    | false =>
      obtain ⟨out, rest, later⟩ := decodes_exists (d.pendingUtf8 ++ bytesOf d.tokenizer [tokenId])
      rw [push_eq going isEos later]
      cases output : d.tokenizer.tokenBytes tokenId with
      | error failure =>
        rintro ⟨⟩
        unfold PinnedTokenizer.tokenBytes at output
        split at output <;> cases output
      | ok bytes =>
        obtain ⟨delta, after, applied⟩ := applyStops_isOk out { d with pendingUtf8 := rest }
        simp only [applied]
        nofun
    | true =>
      obtain ⟨out, rest, decodes⟩ := decodes_exists d.pendingUtf8
      have ran : push tokenId d = (.ok ⟨out ++ replaced rest ++ d.heldText, some (.eosToken tokenId)⟩,
          { d with pendingUtf8 := [], heldText := [], finish := some (.eosToken tokenId) }) :=
        (congrFun ((if_neg finished).trans (if_pos isEos)) d).trans
          ((Action.bind_ok (decodeUtf8_ok decodes).2).trans ((Action.bind_ok rfl).trans rfl))
      rw [ran]
      nofun

theorem finishStream_ne_decode (d : IncrementalDecoder) : (finishStream d).1 ≠ .error .decode := by
  by_cases finished : d.finish.isSome = true
  · rw [show finishStream d = (.error .streamFinished, d) from congrFun (if_pos finished) d]
    nofun
  · obtain ⟨out, rest, decodes⟩ := decodes_exists d.pendingUtf8
    obtain ⟨delta, after, applied⟩ := applyStops_isOk (out ++ replaced rest) { d with pendingUtf8 := [] }
    have ran : finishStream d = (if delta.finish.isSome then pure delta else do
        let held ← releaseHeld
        close (delta.text ++ held) .endOfStream : DecodesTokens DecodeDelta) after :=
      (congrFun (if_neg finished) d).trans ((Action.bind_ok (decodeUtf8_ok decodes).2).trans (Action.bind_ok applied))
    rw [ran]
    split
    · nofun
    · nofun

/-- No stop string is put out, and no text is held back that cannot begin one. -/
theorem stops_never_emitted (created : IncrementalDecoder.new tokenizer stops = .ok d)
    (others : ∀ tokenId ∈ tokens, tokenizer.isEos tokenId = false) :
    let s := Stream.pushAll ⟨d, []⟩ tokens
    (∀ stop ∈ stops, ¬stop.bytes <:+: s.text ∧ ¬stop.bytes <:+: (s.endWith .finish).text) ∧
    (∀ tokenId, (push tokenId s.decoder).1 ≠ .error .decode) ∧ (finishStream s.decoder).1 ≠ .error .decode ∧
    match s.decoder.finish with
    | none => ∃ text, Decodes (bytesOf tokenizer tokens) text s.decoder.pendingUtf8 ∧
      s.text ++ s.decoder.heldText = text ∧ Held (patterns stops) text s.decoder.heldText
    | some (.stopString index) => ∃ before tokenId after stop text rest, tokens = before ++ tokenId :: after ∧
      (Stream.pushAll ⟨d, []⟩ before).decoder.finish = none ∧ s = Stream.pushAll ⟨d, []⟩ (before ++ [tokenId]) ∧
      stops[index]? = some stop ∧ Decodes (bytesOf tokenizer (before ++ [tokenId])) text rest ∧
      s.text ++ stop.bytes <+: text ∧
      ∀ other ∈ stops, ∀ offset, other.bytes <+: text.drop offset → s.text.length ≤ offset
    | some _ => False := by
  intro s
  have nonempty := nil_notMem_patterns created
  rcases pushAll_reading created others with
    reading | ⟨before, tokenId, after, text, rest, offset, index, split, reading, same, decodes, stopped⟩
  · have going : s.decoder.finish = none := reading.going
    refine ⟨fun stop member => ⟨?_, ?_⟩, fun tokenId => push_ne_decode tokenId _, finishStream_ne_decode _, ?_⟩
    · intro occurs
      exact matches_eq_empty_iff.mp reading.stopless _ (List.mem_map_of_mem member)
        (occurs.trans (List.prefix_append _ _).isInfix)
    · rcases reading.finish with ⟨text_eq, -, stopless⟩ | ⟨offset, index, stopped⟩
      · rw [text_eq]
        exact matches_eq_empty_iff.mp stopless _ (List.mem_map_of_mem member)
      · exact stopped.no_stop nonempty stop member
    · rw [going]
      exact ⟨_, reading.decoded, rfl, reading.held⟩
  · have finished : s.decoder.finish = some (.stopString index) := stopped.finish_eq
    have ended : s.endWith .finish = s := endWith_finished (by rw [finished]; rfl)
    have absent := stopped.no_stop nonempty
    obtain ⟨stop, numbered, follows⟩ := stopped.stop_follows
    rw [ended, finished]
    refine ⟨fun stop member => ⟨absent stop member, absent stop member⟩, fun tokenId => push_ne_decode tokenId _,
      finishStream_ne_decode _, before, tokenId, after, stop, text, rest, split, reading.going, same, numbered, decodes,
      follows, ?_⟩
    intro other member place starts
    exact stopped.before_any member starts

/-- The stop string of `sampleStops` comes in two tokens. -/
def splitTokenizer : PinnedTokenizer := ⟨[.bytes [0x78, 0x41], .bytes [0x42, 0x79]], []⟩

theorem sampleStops_held :
    (let s := Stream.pushAll ⟨sampleDecoder, []⟩ [0]
      ∃ text, Decodes (bytesOf sampleTokenizer [0]) text s.decoder.pendingUtf8 ∧
        s.text ++ s.decoder.heldText = text ∧ Held (patterns sampleStops) text s.decoder.heldText) ∧
    let s := Stream.pushAll ⟨⟨splitTokenizer, sampleStops, [], [], none⟩, []⟩ [0, 1]
    ¬[0x41, 0x42] <:+: s.text ∧
      ∃ text rest, Decodes (bytesOf splitTokenizer [0, 1]) text rest ∧ s.text ++ [0x41, 0x42] <+: text := by
  constructor
  · have others : ∀ tokenId ∈ [0], sampleTokenizer.isEos tokenId = false := by
      simp [sampleTokenizer, PinnedTokenizer.isEos]
    have going : (Stream.pushAll ⟨sampleDecoder, []⟩ [0]).decoder.finish = none := by rfl
    have kept := (@stops_never_emitted sampleStops sampleDecoder sampleTokenizer [0] rfl others).2.2.2
    rw [going] at kept
    exact kept
  · have others : ∀ tokenId ∈ [0, 1], splitTokenizer.isEos tokenId = false := by
      simp [splitTokenizer, PinnedTokenizer.isEos]
    have going : (Stream.pushAll ⟨⟨splitTokenizer, sampleStops, [], [], none⟩, []⟩ [0]).decoder.finish = none := by rfl
    have ended : (Stream.pushAll ⟨⟨splitTokenizer, sampleStops, [], [], none⟩, []⟩ [0, 1]).decoder.finish =
        some (.stopString 0) := by rfl
    obtain ⟨unseen, -, -, kept⟩ := @stops_never_emitted sampleStops _ splitTokenizer [0, 1] rfl others
    rw [ended] at kept
    obtain ⟨before, tokenId, after, stop, text, rest, split, -, same, isFirst, decodes, follows, -⟩ := kept
    cases isFirst
    refine ⟨(unseen _ List.mem_cons_self).1, text, rest, ?_, follows⟩
    -- the stream is still going after the first token, so that the second one ended it
    rcases before with _ | ⟨first, _ | ⟨second, more⟩⟩
    · cases split
      rw [same, List.nil_append, going] at ended
      cases ended
    · cases split
      exact decodes
    · simp at split

end Streams

end Glmaxx.Proof.Tokenizer
