import Mathlib.Data.List.Infix
import Glmaxx.Tokenizer.Decode

namespace Glmaxx.Proof.Tokenizer
open Library Glmaxx.Tokenizer Glmaxx.Tokenizer.IncrementalDecoder

variable {bytes out rest text output : List UInt8} {fuel : Nat} {d : IncrementalDecoder} {s : Stream}

section Decoding

theorem decodeLoop_eq (decodes : Decodes bytes out rest) (enough : bytes.length < fuel) :
    decodeLoop false fuel output bytes = (output ++ out, rest) ∧
    decodeLoop true fuel output bytes = (output ++ (out ++ replaced rest), []) := by
  induction fuel generalizing bytes out output with
  | zero => omega
  | succ fuel ih =>
    have spec := @validateUtf8_spec bytes bytes.length 0 (Nat.le_refl _)
    have same : validateUtf8 bytes.length 0 bytes = fromUtf8 bytes := rfl
    rw [same] at spec
    unfold decodeLoop
    cases outcome : fromUtf8 bytes with
    | none =>
      rw [outcome] at spec
      obtain ⟨rfl, rfl⟩ := decodes.unique spec
      simp [replaced]
    | some error =>
      rw [outcome] at spec
      obtain ⟨validUpTo, errorLen⟩ := error
      obtain ⟨length, upTo, most, step, prepend⟩ := spec
      obtain rfl : validUpTo = length := upTo.trans (Nat.zero_add length)
      obtain ⟨out', rest', later⟩ := decodes_exists (bytes.drop validUpTo)
      obtain ⟨rfl, rfl⟩ := decodes.unique (prepend out' rest' later)
      cases errorLen with
      | none =>
        obtain ⟨rfl, rfl⟩ := later.unique (.incomplete step)
        have some := (@utf8Step_bounds _ 0).2.2.2 step
        simp [replaced, some]
      | some invalid =>
        obtain ⟨out'', rest'', last⟩ := decodes_exists ((bytes.drop validUpTo).drop invalid)
        obtain ⟨rfl, rfl⟩ := later.unique (.invalid step last)
        obtain ⟨pos, within⟩ := utf8Step_bounds.2.1 step
        have shorter : ((bytes.drop validUpTo).drop invalid).length < fuel := by
          simp only [List.length_drop] at within ⊢
          omega
        obtain ⟨ongoing, final⟩ := @ih _ _ (output ++ bytes.take validUpTo ++ replacement) last shorter
        simp only [List.append_assoc] at ongoing final ⊢
        exact ⟨ongoing, final⟩

theorem decodeUtf8_ok (decodes : Decodes d.pendingUtf8 out rest) :
    decodeUtf8 false d = (.ok out, { d with pendingUtf8 := rest }) ∧
    decodeUtf8 true d = (.ok (out ++ replaced rest), { d with pendingUtf8 := [] }) := by
  obtain ⟨ongoing, final⟩ := @decodeLoop_eq _ _ _ [] _ decodes (Nat.lt_succ_self _)
  unfold decodeUtf8
  rw [ongoing, final]
  exact ⟨rfl, rfl⟩

end Decoding

section Stops
variable {stop : List UInt8} {stops : List Utf8String}

theorem find_eq_none (absent : ¬stop <:+: text) : find stop text = none := by
  induction text with
  | nil =>
    unfold find
    rw [if_neg]
    rintro rfl
    exact absent (List.infix_refl _)
  | cons byte text ih =>
    rw [List.infix_cons_iff, not_or] at absent
    unfold find
    rw [if_neg absent.1, ih absent.2]
    rfl

theorem firstStop_eq_none (absent : ∀ stop ∈ stops, ¬stop.bytes <:+: text) : firstStop stops text = none := by
  unfold firstStop
  have each : ∀ pair ∈ stops.zipIdx, find pair.1.bytes text = none := fun pair member =>
    find_eq_none (absent pair.1 (List.fst_mem_of_mem_zipIdx member))
  generalize stops.zipIdx = pairs at each
  induction pairs with
  | nil => rfl
  | cons pair pairs ih =>
    obtain ⟨stop, index⟩ := pair
    have none := each (stop, index) List.mem_cons_self
    simp only [List.foldl_cons, none]
    exact ih fun other member => each other (List.mem_cons_of_mem _ member)

theorem stopPrefixSuffix_spec (text stop : List UInt8) :
    stopPrefixSuffix text stop ≤ text.length ∧ stopPrefixSuffix text stop ≤ stop.length ∧
      stop.take (stopPrefixSuffix text stop) <:+ text := by
  have value : stopPrefixSuffix text stop = ((List.range' 1 (min text.length stop.length)).reverse.find? fun length =>
      isCharBoundary stop length && decide (stop.take length <:+ text)).getD 0 := rfl
  cases found : (List.range' 1 (min text.length stop.length)).reverse.find? fun length =>
      isCharBoundary stop length && decide (stop.take length <:+ text) with
  | none =>
    rw [found] at value
    rw [value]
    exact ⟨Nat.zero_le _, Nat.zero_le _, List.nil_suffix⟩
  | some length =>
    rw [found] at value
    rw [value]
    have member := List.mem_of_find?_eq_some found
    have holds := List.find?_some found
    rw [List.mem_reverse, List.mem_range'_1] at member
    simp only [Bool.and_eq_true, decide_eq_true_eq] at holds
    refine ⟨?_, ?_, holds.2⟩
    · show length ≤ _
      omega
    · show length ≤ _
      omega

theorem foldl_max_mem (values : List Nat) (start : Nat) :
    values.foldl max start = start ∨ values.foldl max start ∈ values := by
  induction values generalizing start with
  | nil => exact .inl rfl
  | cons value values ih =>
    rw [List.foldl_cons]
    rcases ih (max start value) with same | later
    · rw [same]
      rcases max_choice start value with left | right
      · exact .inl left
      · exact .inr (List.mem_cons.mpr (.inl right))
    · exact .inr (List.mem_cons_of_mem _ later)

theorem longest_spec (d : IncrementalDecoder) :
    d.longestStopPrefixSuffix = 0 ∨ ∃ stop ∈ d.stops, d.longestStopPrefixSuffix ≤ d.heldText.length ∧
      d.longestStopPrefixSuffix ≤ stop.bytes.length ∧ stop.bytes.take d.longestStopPrefixSuffix <:+ d.heldText := by
  unfold longestStopPrefixSuffix
  rcases foldl_max_mem (d.stops.map fun stop => stopPrefixSuffix d.heldText stop.bytes) 0 with zero | member
  · exact .inl zero
  · obtain ⟨stop, inside, same⟩ := List.mem_map.mp member
    rw [← same]
    exact .inr ⟨stop, inside, stopPrefixSuffix_spec d.heldText stop.bytes⟩

theorem longest_boundary (d : IncrementalDecoder) : d.longestStopPrefixSuffix ≤ d.heldText.length ∧
    isCharBoundary d.heldText (d.heldText.length - d.longestStopPrefixSuffix) = true := by
  rcases longest_spec d with zero | ⟨⟨stop, valid⟩, inside, within, reaches, suffix⟩
  · rw [zero]
    exact ⟨Nat.zero_le _, by simp [isCharBoundary]⟩
  · refine ⟨within, ?_⟩
    generalize d.longestStopPrefixSuffix = length at *
    cases length with
    | zero => simp [isCharBoundary]
    | succ length =>
      cases stop with
      | nil => simp at reaches
      | cons first later =>
        have starts := first_of_valid valid
        obtain ⟨front, same⟩ := suffix
        have counted : d.heldText.length - (length + 1) = front.length := by
          simp only [List.length_cons] at reaches
          rw [← same, List.length_append, List.length_take, List.length_cons, Nat.min_eq_left reaches]
          omega
        rw [counted, ← same]
        simp [isCharBoundary, starts]

theorem emitHeld_eq (d : IncrementalDecoder) :
    emitHeld d = (.ok ⟨d.heldText.take (d.heldText.length - d.longestStopPrefixSuffix), none⟩,
      { d with heldText := d.heldText.drop (d.heldText.length - d.longestStopPrefixSuffix) }) := by
  obtain ⟨within, boundary⟩ := longest_boundary d
  refine (congrFun (if_neg (Nat.not_lt.mpr within)) d).trans ?_
  exact congrFun (if_neg (by rw [boundary]; nofun)) d

theorem applyStops_eq (decoded : List UInt8) (d : IncrementalDecoder) :
    applyStops decoded d = match firstStop d.stops (d.heldText ++ decoded) with
      | some (offset, index) => (.ok ⟨(d.heldText ++ decoded).take offset, some (.stopString index)⟩,
          { d with heldText := [], pendingUtf8 := [], finish := some (.stopString index) })
      | none => emitHeld { d with heldText := d.heldText ++ decoded } := by
  unfold applyStops
  refine (Action.bind_ok rfl).trans ((Action.bind_ok rfl).trans ?_)
  cases found : firstStop d.stops (d.heldText ++ decoded) with
  | none => rfl
  | some place => rfl

theorem applyStops_ok {decoded : List UInt8} (absent : ∀ stop ∈ d.stops, ¬stop.bytes <:+: d.heldText ++ decoded) :
    ∃ text held, text ++ held = d.heldText ++ decoded ∧
      applyStops decoded d = (.ok ⟨text, none⟩, { d with heldText := held }) := by
  have stopless : applyStops decoded d = emitHeld { d with heldText := d.heldText ++ decoded } := by
    rw [applyStops_eq, firstStop_eq_none absent]
  exact ⟨_, _, List.take_append_drop _ _, stopless.trans (emitHeld_eq _)⟩

end Stops

section Streams
variable {tokenizer : PinnedTokenizer} {stops : List Utf8String} {tokens : List UInt32} {tokenId : UInt32}
  {seen more : List UInt8}

def bytesOf (tokenizer : PinnedTokenizer) (tokens : List UInt32) : List UInt8 :=
  tokens.flatMap fun tokenId => match tokenizer.tokenBytes tokenId with
    | .ok bytes => bytes.getD []
    | .error _ => []

structure Streaming (tokenizer : PinnedTokenizer) (stops : List Utf8String) (seen : List UInt8) (s : Stream) : Prop where
  tokenizer_eq : s.decoder.tokenizer = tokenizer
  stops_eq : s.decoder.stops = stops
  going : s.decoder.finish = none
  decoded : Decodes seen (s.text ++ s.decoder.heldText) s.decoder.pendingUtf8

theorem new_streaming (created : IncrementalDecoder.new tokenizer stops = .ok d) :
    Streaming tokenizer stops [] ⟨d, []⟩ := by
  unfold IncrementalDecoder.new at created
  split at created
  · cases created
  · cases created
    exact ⟨rfl, rfl, rfl, .done⟩

theorem decoded_prefix (decodes : Decodes seen out rest) (more : List UInt8) : out <+: fromUtf8Lossy (seen ++ more) := by
  obtain ⟨out', rest', later⟩ := decodes_exists (rest ++ more)
  rw [(decodes.append later).lossy, List.append_assoc]
  exact List.prefix_append _ _

theorem take_ok {action : DecodesTokens DecodeDelta} {delta : DecodeDelta} {d' : IncrementalDecoder}
    (ran : action s.decoder = (.ok delta, d')) : s.take action = ⟨d', s.text ++ delta.text⟩ := by
  unfold Stream.take
  rw [ran]

theorem not_infix_held {stop front held whole : List UInt8} (absent : ¬stop <:+: whole) (isPrefix : front ++ held <+: whole) :
    ¬stop <:+: held :=
  fun occurs => absent ((occurs.trans (List.suffix_append front held).isInfix).trans isPrefix.isInfix)

theorem bytesOf_append (first second : List UInt32) :
    bytesOf tokenizer (first ++ second) = bytesOf tokenizer first ++ bytesOf tokenizer second :=
  List.flatMap_append

theorem push_eq (going : d.finish = none) (other : d.tokenizer.isEos tokenId = false)
    (later : Decodes (d.pendingUtf8 ++ bytesOf d.tokenizer [tokenId]) out rest) :
    push tokenId d = match d.tokenizer.tokenBytes tokenId with
      | .ok _ => applyStops out { d with pendingUtf8 := rest }
      | .error failure => (.error failure, d) := by
  have body : push tokenId d = (do
      let bytes ← .reads fun d => d.tokenizer.tokenBytes tokenId
      .modify fun d => { d with pendingUtf8 := d.pendingUtf8 ++ bytes.getD [] }
      let decoded ← decodeUtf8 false
      applyStops decoded : DecodesTokens DecodeDelta) d :=
    congrFun ((if_neg (by rw [going]; nofun)).trans (if_neg (by rw [other]; nofun))) d
  unfold bytesOf at later
  rw [List.flatMap_singleton] at later
  cases output : d.tokenizer.tokenBytes tokenId with
  | error failure =>
    have read : (.reads fun d => d.tokenizer.tokenBytes tokenId : DecodesTokens (Option (List UInt8))) d =
        (.error failure, d) := by
      show (d.tokenizer.tokenBytes tokenId, d) = _
      rw [output]
    rw [body, Action.bind_error read]
  | ok bytes =>
    rw [output] at later
    have read : (.reads fun d => d.tokenizer.tokenBytes tokenId : DecodesTokens (Option (List UInt8))) d =
        (.ok bytes, d) := Action.reads_ok output
    rw [body, Action.bind_ok read]
    exact (Action.bind_ok rfl).trans (Action.bind_ok (decodeUtf8_ok later).1)

section
variable (streaming : Streaming tokenizer stops seen s)
include streaming

theorem push_streaming (other : tokenizer.isEos tokenId = false) (more : List UInt8)
    (absent : ∀ stop ∈ stops, ¬stop.bytes <:+: fromUtf8Lossy (seen ++ bytesOf tokenizer [tokenId] ++ more)) :
    Streaming tokenizer stops (seen ++ bytesOf tokenizer [tokenId]) (s.take (IncrementalDecoder.push tokenId)) := by
  obtain ⟨rfl, rfl, going, decoded⟩ := streaming
  obtain ⟨out, rest, later⟩ := decodes_exists (s.decoder.pendingUtf8 ++ bytesOf s.decoder.tokenizer [tokenId])
  have ran := push_eq going other later
  cases output : s.decoder.tokenizer.tokenBytes tokenId with
  | error failure =>
    rw [output] at ran
    have refused : s.take (push tokenId) = s := by
      unfold Stream.take
      rw [ran]
    have nothing : bytesOf s.decoder.tokenizer [tokenId] = [] := by simp [bytesOf, output]
    rw [refused, nothing, List.append_nil]
    exact ⟨rfl, rfl, going, decoded⟩
  | ok bytes =>
    rw [output] at ran
    have whole := decoded.append later
    have front := decoded_prefix whole more
    rw [List.append_assoc] at front
    obtain ⟨text, held, same, applied⟩ := @applyStops_ok { s.decoder with pendingUtf8 := rest } out
      fun stop member => not_infix_held (absent stop member) front
    rw [take_ok (ran.trans applied)]
    refine ⟨rfl, rfl, going, ?_⟩
    show Decodes _ (s.text ++ text ++ held) rest
    rw [List.append_assoc, same, ← List.append_assoc]
    exact whole

theorem pushAll_streaming (others : ∀ tokenId ∈ tokens, tokenizer.isEos tokenId = false)
    (absent : ∀ stop ∈ stops, ¬stop.bytes <:+: fromUtf8Lossy (seen ++ bytesOf tokenizer tokens)) :
    Streaming tokenizer stops (seen ++ bytesOf tokenizer tokens) (s.pushAll tokens) := by
  induction tokens generalizing seen s with
  | nil =>
    rw [bytesOf, List.flatMap_nil, List.append_nil]
    exact streaming
  | cons tokenId tokens ih =>
    have split : bytesOf tokenizer (tokenId :: tokens) = bytesOf tokenizer [tokenId] ++ bytesOf tokenizer tokens :=
      bytesOf_append [tokenId] tokens
    rw [split, ← List.append_assoc] at absent ⊢
    have first := push_streaming streaming (others tokenId List.mem_cons_self) (bytesOf tokenizer tokens) absent
    exact ih first (fun other member => others other (List.mem_cons_of_mem _ member)) absent

theorem Streaming.pending : Decodes s.decoder.pendingUtf8 [] s.decoder.pendingUtf8 := by
  rcases streaming.decoded.rest_incomplete with none | some
  · rw [none]
    exact .done
  · exact .incomplete some

theorem endWith_eos (isEos : tokenizer.isEos tokenId = true) :
    (s.endWith (.eos tokenId)).text = s.text ++ (replaced s.decoder.pendingUtf8 ++ s.decoder.heldText) := by
  have ran : push tokenId s.decoder = (.ok ⟨replaced s.decoder.pendingUtf8 ++ s.decoder.heldText, some (.eosToken tokenId)⟩,
      { s.decoder with pendingUtf8 := [], heldText := [], finish := some (.eosToken tokenId) }) := by
    have isEos : s.decoder.tokenizer.isEos tokenId = true := streaming.tokenizer_eq ▸ isEos
    refine (congrFun ((if_neg (by rw [streaming.going]; nofun)).trans (if_pos isEos)) s.decoder).trans ?_
    refine (Action.bind_ok (decodeUtf8_ok streaming.pending).2).trans ?_
    exact (Action.bind_ok rfl).trans rfl
  exact congrArg Stream.text (take_ok ran)

theorem endWith_finish (absent : ∀ stop ∈ stops, ¬stop.bytes <:+: fromUtf8Lossy seen) :
    (s.endWith .finish).text = s.text ++ (s.decoder.heldText ++ replaced s.decoder.pendingUtf8) := by
  have whole := streaming.decoded.lossy
  rw [List.append_assoc] at whole
  have front : s.text ++ (s.decoder.heldText ++ replaced s.decoder.pendingUtf8) <+: fromUtf8Lossy seen := by rw [whole]
  obtain ⟨text, held, same, applied⟩ := @applyStops_ok { s.decoder with pendingUtf8 := [] }
    (replaced s.decoder.pendingUtf8)
    fun stop member => not_infix_held (absent stop (streaming.stops_eq ▸ member)) front
  have ran : finishStream s.decoder = (.ok ⟨text ++ held, some .endOfStream⟩,
      { s.decoder with pendingUtf8 := [], heldText := [], finish := some .endOfStream }) := by
    refine (congrFun (if_neg (by rw [streaming.going]; nofun)) s.decoder).trans ?_
    refine (Action.bind_ok (decodeUtf8_ok streaming.pending).2).trans ?_
    refine (Action.bind_ok applied).trans ?_
    exact (congrFun (if_neg nofun) _).trans ((Action.bind_ok rfl).trans rfl)
  rw [← same]
  exact congrArg Stream.text (take_ok ran)

end

theorem row_of_commutes : ∀ held : List UInt8, replacement ++ held = held ++ replacement →
    ∃ n, held = (List.replicate n replacement).flatten
  | [], _ => ⟨0, rfl⟩
  | [a], commutes => by simp [replacement] at commutes
  | [a, b], commutes => by simp [replacement] at commutes
  | a :: b :: c :: held, commutes => by
    simp only [replacement, List.cons_append, List.nil_append, List.cons.injEq] at commutes
    obtain ⟨rfl, rfl, rfl, commutes⟩ := commutes
    obtain ⟨n, row⟩ := row_of_commutes held commutes
    exact ⟨n + 1, by rw [row, List.replicate_succ, List.flatten_cons]; rfl⟩

theorem commutes_replacement (held : List UInt8) :
    replacement ++ held = held ++ replacement ↔ ∃ n, held = (List.replicate n replacement).flatten := by
  refine ⟨row_of_commutes held, ?_⟩
  rintro ⟨n, rfl⟩
  rw [← List.flatten_cons, ← List.replicate_succ, List.replicate_succ', List.flatten_append, List.flatten_singleton]

/-- The text put out is that of all bytes, unless an end-of-sequence token finds both an unfinished character and
held text that is not itself a row of U+FFFD. -/
theorem stream_decodes_iff (created : IncrementalDecoder.new tokenizer stops = .ok d)
    (others : ∀ tokenId ∈ tokens, tokenizer.isEos tokenId = false) (ending : StreamEnd)
    (ends : ∀ tokenId, ending = .eos tokenId → tokenizer.isEos tokenId = true)
    (absent : ∀ stop ∈ stops, ¬stop.bytes <:+: fromUtf8Lossy (bytesOf tokenizer tokens)) :
    let s := Stream.pushAll ⟨d, []⟩ tokens
    (s.endWith ending).text = fromUtf8Lossy (bytesOf tokenizer tokens) ↔
      ending = .finish ∨ s.decoder.pendingUtf8 = [] ∨
        ∃ n, s.decoder.heldText = (List.replicate n replacement).flatten := by
  intro s
  have streaming : Streaming tokenizer stops (bytesOf tokenizer tokens) s :=
    pushAll_streaming (new_streaming created) others absent
  have whole := streaming.decoded.lossy
  rw [List.append_assoc] at whole
  rw [whole]
  cases ending with
  | finish =>
    rw [endWith_finish streaming absent]
    exact ⟨fun _ => .inl rfl, fun _ => rfl⟩
  | eos tokenId =>
    rw [endWith_eos streaming (ends tokenId rfl), List.append_cancel_left_eq]
    by_cases none : s.decoder.pendingUtf8 = []
    · rw [replaced, if_pos none, List.append_nil]
      exact ⟨fun _ => .inr (.inl none), fun _ => rfl⟩
    · rw [replaced, if_neg none, commutes_replacement]
      constructor
      · exact fun row => .inr (.inr row)
      · rintro (other | empty | row)
        · cases other
        · exact absurd empty none
        · exact row

def sampleTokenizer : PinnedTokenizer := ⟨[.bytes [0x41, 0xE5], .special], [1]⟩

def sampleStops : List Utf8String := [⟨[0x41, 0x42], by decide⟩]

def sampleDecoder : IncrementalDecoder := ⟨sampleTokenizer, sampleStops, [], [], none⟩

/-- The token ends in an unfinished character behind a text that may begin the stop string; the end-of-sequence
token puts them out in the wrong order. -/
theorem eos_swaps_held_text : IncrementalDecoder.new sampleTokenizer sampleStops = .ok sampleDecoder ∧
    sampleTokenizer.isEos 0 = false ∧ sampleTokenizer.isEos 1 = true ∧
    (∀ stop ∈ sampleStops, ¬stop.bytes <:+: fromUtf8Lossy (bytesOf sampleTokenizer [0])) ∧
    fromUtf8Lossy (bytesOf sampleTokenizer [0]) = [0x41] ++ replacement ∧
    ((Stream.pushAll ⟨sampleDecoder, []⟩ [0]).endWith (.eos 1)).text = replacement ++ [0x41] := by
  refine ⟨rfl, by decide, by decide, by decide, by rfl, by rfl⟩

theorem finish_keeps_held_text :
    ((Stream.pushAll ⟨sampleDecoder, []⟩ [0]).endWith .finish).text = [0x41] ++ replacement := by
  have whole : fromUtf8Lossy (bytesOf sampleTokenizer [0]) = [0x41] ++ replacement := by rfl
  have absent : ∀ stop ∈ sampleStops, ¬stop.bytes <:+: fromUtf8Lossy (bytesOf sampleTokenizer [0]) := by decide
  have others : ∀ tokenId ∈ [0], sampleTokenizer.isEos tokenId = false := by
    intro tokenId member
    rw [List.mem_singleton.mp member]
    decide
  have iff := @stream_decodes_iff sampleDecoder sampleTokenizer sampleStops [0] rfl others .finish nofun absent
  rw [whole] at iff
  exact iff.mpr (.inl rfl)

end Streams

end Glmaxx.Proof.Tokenizer
