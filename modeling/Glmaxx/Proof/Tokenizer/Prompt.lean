import Glmaxx.Tokenizer.Chat

namespace Glmaxx.Proof.Tokenizer
open Library Glmaxx.Tokenizer Glmaxx.Tokenizer.OrderedValue

variable {ν : Type} {json : Json ν} {output : List Char}

section Literals

@[simp] theorem nul_eq_iff {character : Char} : nul = character ↔ character.toNat = 0 := by
  constructor
  · rintro rfl
    rfl
  · intro zero
    rw [← Char.ofNat_toNat character, zero]
    rfl

@[simp] theorem quote_toNat : quote.toNat = 34 := rfl

@[simp] theorem separator_clean (first : Bool) : nul ∉ separator first := by
  cases first <;> decide

theorem toolPreamble_clean : nul ∉ toolPreamble := by decide

theorem toolPostamble_clean : nul ∉ toolPostamble := by decide

theorem renderHeader_clean (options : ChatTemplateOptions) : nul ∉ renderHeader options := by
  unfold renderHeader effortText
  cases options.reasoningEffort <;> cases options.enableThinking <;> simp

theorem generationPrompt_clean (options : ChatTemplateOptions) : nul ∉ generationPrompt options := by
  unfold generationPrompt
  cases options.addGenerationPrompt <;> cases options.enableThinking <;> simp

end Literals

section Values

mutual

/-- Every string in a written value went through the writer of the library. -/
theorem pythonJson_clean (value : OrderedValue ν) {output : List Char} (ok : value.pythonJson json = .ok output) :
    nul ∉ output := by
  cases value with
  | null => cases ok; decide
  | bool value => cases ok; cases value <;> decide
  | number value => cases ok; exact json.numberText_clean value
  | string value => exact json.toString_clean ok
  | array values =>
    obtain ⟨items, written, ok⟩ := bind_eq_ok.mp ok
    cases ok
    simp [arrayJson_clean true values written]
  | object entries =>
    obtain ⟨items, written, ok⟩ := bind_eq_ok.mp ok
    cases ok
    simp [objectJson_clean true entries written]

theorem arrayJson_clean (first : Bool) (values : List (OrderedValue ν)) {output : List Char}
    (ok : arrayJson json first values = .ok output) : nul ∉ output := by
  cases values with
  | nil => cases ok; simp
  | cons value rest =>
    obtain ⟨item, written, ok⟩ := bind_eq_ok.mp ok
    obtain ⟨items, later, ok⟩ := bind_eq_ok.mp ok
    cases ok
    simp [pythonJson_clean value written, arrayJson_clean false rest later]

theorem objectJson_clean (first : Bool) (entries : List (List Char × OrderedValue ν)) {output : List Char}
    (ok : objectJson json first entries = .ok output) : nul ∉ output := by
  cases entries with
  | nil => cases ok; simp
  | cons entry rest =>
    obtain ⟨key, value⟩ := entry
    obtain ⟨name, quoted, ok⟩ := bind_eq_ok.mp ok
    obtain ⟨item, written, ok⟩ := bind_eq_ok.mp ok
    obtain ⟨items, later, ok⟩ := bind_eq_ok.mp ok
    cases ok
    simp [json.toString_clean quoted, pythonJson_clean value written, objectJson_clean false rest later]

end

theorem entriesContainNul_of_mem {entries : List (List Char × OrderedValue ν)} {entry : List Char × OrderedValue ν}
    (isIn : entry ∈ entries) (found : entry.2.containsNul = true) : entriesContainNul entries = true := by
  induction entries with
  | nil => cases isIn
  | cons first rest ih =>
    obtain ⟨key, value⟩ := first
    rw [entriesContainNul]
    rcases List.mem_cons.mp isIn with rfl | later
    · simp [found]
    · simp [ih later]

end Values

section Definitions

theorem validateJsonKey_clean {key : List Char} (ok : validateJsonKey key = .ok ()) : nul ∉ key := by
  unfold validateJsonKey at ok
  split at ok
  · cases ok
  next plain =>
    intro isIn
    exact plain (List.any_eq_true.mpr ⟨nul, isIn, by decide⟩)

theorem definitionEntries_clean {first : Bool} {entries : List (List Char × OrderedValue ν)}
    (ok : definitionEntries json first entries = .ok output) : nul ∉ output := by
  induction entries generalizing first output with
  | nil => cases ok; simp
  | cons entry rest ih =>
    obtain ⟨key, value⟩ := entry
    unfold definitionEntries at ok
    split at ok
    · exact ih ok
    obtain ⟨_, plain, ok⟩ := bind_eq_ok.mp ok
    obtain ⟨item, written, ok⟩ := bind_eq_ok.mp ok
    obtain ⟨items, later, ok⟩ := bind_eq_ok.mp ok
    cases ok
    have value := pythonJson_clean value (mapError_eq_ok.mp written)
    simp [validateJsonKey_clean plain, value, ih later]

theorem renderToolDefinition_clean {tool : OrderedValue ν} (ok : renderToolDefinition json tool = .ok output) :
    nul ∉ output := by
  obtain ⟨entries, _, ok⟩ := bind_eq_ok.mp ok
  obtain ⟨items, written, ok⟩ := bind_eq_ok.mp ok
  cases ok
  simp [definitionEntries_clean written]

theorem renderTools_clean {tools : List (OrderedValue ν)} (ok : renderTools json tools = .ok output) :
    nul ∉ output := by
  induction tools generalizing output with
  | nil => cases ok; simp
  | cons tool rest ih =>
    obtain ⟨definition, written, ok⟩ := bind_eq_ok.mp ok
    obtain ⟨definitions, later, ok⟩ := bind_eq_ok.mp ok
    cases ok
    simp [renderToolDefinition_clean written, ih later]

theorem renderToolSection_clean {tools : Option (List (OrderedValue ν))}
    (ok : renderToolSection json tools = .ok output) : nul ∉ output := by
  unfold renderToolSection at ok
  split at ok
  · obtain ⟨definitions, written, ok⟩ := bind_eq_ok.mp ok
    obtain rfl := Except.ok.inj ok
    simp [toolPreamble_clean, toolPostamble_clean, renderTools_clean written]
  · cases ok
    simp

end Definitions

section Calls

def LeakingCall (json : Json ν) (call : ChatFunctionCall ν) : Prop :=
  ∃ text entries, call.arguments = .string text ∧ json.fromStr text = some (.object entries)
    ∧ ∃ entry ∈ entries, ∃ value, entry.2 = .string value ∧ nul ∈ value

theorem validateTagText_clean {value : List Char} (ok : validateTagText value = .ok ()) : nul ∉ value := by
  unfold validateTagText at ok
  split at ok
  · cases ok
  next plain => exact fun isIn => plain (.inr isIn)

theorem argumentText_nul {value : OrderedValue ν} (ok : argumentText json value = .ok output) :
    nul ∈ output ↔ ∃ text, value = .string text ∧ nul ∈ text := by
  unfold argumentText at ok
  cases value with
  | string text =>
    cases ok
    simp
  | null | bool | number | array | object =>
    simp [pythonJson_clean _ (mapError_eq_ok.mp ok)]

theorem renderArguments_nul {entries : List (List Char × OrderedValue ν)}
    (ok : renderArguments json entries = .ok output) :
    nul ∈ output ↔ ∃ entry ∈ entries, ∃ value, entry.2 = .string value ∧ nul ∈ value := by
  induction entries generalizing output with
  | nil => cases ok; simp
  | cons entry rest ih =>
    obtain ⟨key, value⟩ := entry
    obtain ⟨_, plain, ok⟩ := bind_eq_ok.mp ok
    obtain ⟨text, written, ok⟩ := bind_eq_ok.mp ok
    obtain ⟨items, later, ok⟩ := bind_eq_ok.mp ok
    cases ok
    simp [validateTagText_clean plain, argumentText_nul written, ih later]

/-- What the arguments of a call given as an object hold has been checked before. -/
theorem callArguments_nul {call : ChatFunctionCall ν} {entries : List (List Char × OrderedValue ν)}
    (ok : callArguments json call = .ok entries) (checked : call.arguments.containsNul = false) :
    (∃ entry ∈ entries, ∃ value, entry.2 = .string value ∧ nul ∈ value) ↔ LeakingCall json call := by
  unfold callArguments at ok
  cases arguments : call.arguments with
  | object own =>
    rw [arguments] at ok checked
    cases ok
    constructor
    · rintro ⟨entry, isIn, value, isString, found⟩
      have contained : entriesContainNul entries = true :=
        entriesContainNul_of_mem isIn (by rw [isString, containsNul]; simpa using found)
      rw [containsNul, contained] at checked
      cases checked
    · rintro ⟨text, _, isString, _⟩
      rw [arguments] at isString
      cases isString
  | string text =>
    simp only [arguments] at ok
    obtain ⟨parsed, parses, ok⟩ := bind_eq_ok.mp ok
    have parses := okOr_eq_ok.mp parses
    have isObject := okOr_eq_ok.mp ok
    cases parsed <;> cases isObject
    constructor
    · intro found
      exact ⟨text, entries, arguments, parses, found⟩
    · rintro ⟨text', entries', isString, parses', found⟩
      rw [arguments] at isString
      cases isString
      rw [parses] at parses'
      cases parses'
      exact found
  | null | bool | number | array =>
    rw [arguments] at ok
    cases ok

theorem renderCalls_nul {calls : List (ChatFunctionCall ν)} (ok : renderCalls json calls = .ok output)
    (checked : ∀ call ∈ calls, call.arguments.containsNul = false) :
    nul ∈ output ↔ ∃ call ∈ calls, LeakingCall json call := by
  induction calls generalizing output with
  | nil => cases ok; simp
  | cons call rest ih =>
    obtain ⟨_, plain, ok⟩ := bind_eq_ok.mp ok
    obtain ⟨entries, taken, ok⟩ := bind_eq_ok.mp ok
    obtain ⟨text, written, ok⟩ := bind_eq_ok.mp ok
    obtain ⟨items, later, ok⟩ := bind_eq_ok.mp ok
    cases ok
    have own := (renderArguments_nul written).trans (callArguments_nul taken (checked call (by simp)))
    have others := ih later fun other isIn => checked other (List.mem_cons_of_mem _ isIn)
    simp [validateTagText_clean plain, own, others]

end Calls

section Messages

theorem splitOnce_subset {pattern text before after : List Char} (found : splitOnce pattern text = some (before, after)) :
    before ⊆ text ∧ after ⊆ text := by
  induction text generalizing before with
  | nil =>
    unfold splitOnce at found
    split at found <;> cases found
    simp
  | cons character rest ih =>
    unfold splitOnce at found
    split at found
    · cases found
      exact ⟨List.nil_subset _, List.drop_subset _ _⟩
    · obtain ⟨⟨first, last⟩, later, parts⟩ := Option.map_eq_some_iff.mp found
      cases parts
      obtain ⟨inFirst, inLast⟩ := ih later
      exact ⟨List.cons_subset_cons _ inFirst, List.subset_cons_of_subset _ inLast⟩

theorem rsplitOnce_subset {pattern text before after : List Char}
    (found : rsplitOnce pattern text = some (before, after)) : after ⊆ text := by
  induction text generalizing before with
  | nil =>
    unfold rsplitOnce at found
    split at found <;> cases found
    simp
  | cons character rest ih =>
    unfold rsplitOnce at found
    split at found
    next parts later =>
      cases found
      exact List.subset_cons_of_subset _ (ih later)
    · split at found <;> cases found
      exact List.drop_subset _ _

theorem rsplitOnce_elim_subset (pattern text otherwise : List Char) :
    (rsplitOnce pattern text).elim otherwise (·.2) ⊆ text ++ otherwise := by
  cases found : rsplitOnce pattern text with
  | none => simp
  | some parts => exact List.subset_append_of_subset_left _ (rsplitOnce_subset found)

theorem assistantParts_clean {message : ChatMessage ν} (content : nul ∉ message.content)
    (reasoning : ∀ text ∈ message.reasoningContent, nul ∉ text) :
    (∀ text ∈ (assistantParts message).1, nul ∉ text) ∧ nul ∉ (assistantParts message).2 := by
  unfold assistantParts
  split
  next text given => exact ⟨fun _ same => by cases same; exact reasoning text given, content⟩
  · split
    next before after found =>
      obtain ⟨inBefore, inAfter⟩ := splitOnce_subset found
      constructor
      · rintro _ ⟨⟩ isIn
        have := rsplitOnce_elim_subset _ _ _ isIn
        exact content (inBefore (by simpa using this))
      · intro isIn
        have := rsplitOnce_elim_subset _ _ _ isIn
        rcases List.mem_append.mp this with isIn | isIn
        · exact content isIn
        · exact content (inAfter isIn)
    · exact ⟨nofun, content⟩

theorem trim_subset (text : List Char) : trim text ⊆ text :=
  List.Subset.trans (List.rdropWhile_prefix _ _).subset (List.dropWhile_suffix _).subset

theorem renderReasoning_clean {preserve : Bool} {reasoning : Option (List Char)}
    (clean : ∀ text ∈ reasoning, nul ∉ text) : nul ∉ renderReasoning preserve reasoning := by
  have tags : nul ∉ "<think></think>".toList := by decide
  unfold renderReasoning
  split
  next text =>
    have own : nul ∉ text := clean text (Option.mem_some_self text)
    split
    · simp [own]
    · exact tags
  · exact tags

theorem renderContent_ok {message : ChatMessage ν} (ok : renderContent message = .ok output) : nul ∉ output := by
  obtain ⟨_, required, ok⟩ := bind_eq_ok.mp ok
  obtain ⟨_, _, ok⟩ := bind_eq_ok.mp ok
  cases ok
  unfold requireContent at required
  split at required
  · cases required
  next full => exact fun isIn => full (.inr isIn)

def Leaking (json : Json ν) (message : ChatMessage ν) : Prop :=
  message.role = .assistant ∧ ∃ call ∈ message.toolCalls, LeakingCall json call

theorem renderMessage_nul {options : ChatTemplateOptions} {lastUser : Option Nat} {index : Nat}
    {previous : Option ChatRole} {message : ChatMessage ν}
    (ok : renderMessage json options lastUser index previous message = .ok output)
    (checked : message.hasNul = false) : nul ∈ output ↔ Leaking json message := by
  unfold renderMessage at ok
  cases role : message.role with
  | system | user =>
    simp only [role] at ok
    obtain ⟨content, written, ok⟩ := bind_eq_ok.mp ok
    cases ok
    simp [renderContent_ok written, Leaking, role]
  | tool =>
    simp only [role] at ok
    obtain ⟨content, written, ok⟩ := bind_eq_ok.mp ok
    cases ok
    split <;> simp [renderContent_ok written, Leaking, role]
  | assistant =>
    simp only [role] at ok
    obtain ⟨calls, written, ok⟩ := bind_eq_ok.mp ok
    cases ok
    simp only [ChatMessage.hasNul, Bool.or_eq_false_iff, decide_eq_false_iff_not,
      List.any_eq_false, Bool.or_eq_true, not_or] at checked
    obtain ⟨⟨⟨⟨content, reasoning⟩, _⟩, _⟩, arguments⟩ := checked
    have reasoning : ∀ text ∈ message.reasoningContent, nul ∉ text := by
      intro text given found
      rw [Option.mem_def.mp given] at reasoning
      simp [found] at reasoning
    obtain ⟨cleanReasoning, cleanContent⟩ := assistantParts_clean content reasoning
    have calls := renderCalls_nul written fun call isIn => by simpa using (arguments call isIn).2
    have trimmed : nul ∉ trim (assistantParts message).2 := fun isIn => cleanContent (trim_subset _ isIn)
    simp [renderReasoning_clean cleanReasoning, trimmed, calls, Leaking, role]

theorem renderMessages_nul {options : ChatTemplateOptions} {lastUser : Option Nat} {index : Nat}
    {previous : Option ChatRole} {messages : List (ChatMessage ν)}
    (ok : renderMessages json options lastUser index previous messages = .ok output)
    (checked : ∀ message ∈ messages, message.hasNul = false) :
    nul ∈ output ↔ ∃ message ∈ messages, Leaking json message := by
  induction messages generalizing index previous output with
  | nil => cases ok; simp
  | cons message rest ih =>
    obtain ⟨text, written, ok⟩ := bind_eq_ok.mp ok
    obtain ⟨later, renders, ok⟩ := bind_eq_ok.mp ok
    cases ok
    have own := renderMessage_nul written (checked message (by simp))
    have others := ih renders fun other isIn => checked other (List.mem_cons_of_mem _ isIn)
    simp [own, others]

end Messages

/-- The prompt has a NUL exactly where a text of arguments hides one behind an escape in a string of its object. -/
theorem renderChat_clean_iff {messages : List (ChatMessage ν)} {tools : Option (List (OrderedValue ν))}
    {options : ChatTemplateOptions} {prompt : List Char}
    (ok : renderChat json messages tools options = .ok prompt) :
    nul ∉ prompt ↔ ∀ message ∈ messages, ¬Leaking json message := by
  unfold renderChat at ok
  split at ok
  · cases ok
  split at ok
  · cases ok
  next checked =>
    obtain ⟨definitions, written, ok⟩ := bind_eq_ok.mp ok
    obtain ⟨text, renders, ok⟩ := bind_eq_ok.mp ok
    obtain rfl := Except.ok.inj ok
    have each : ∀ message ∈ messages, message.hasNul = false := by
      intro message isIn
      rw [Bool.eq_false_iff]
      exact fun found => checked (.inl (List.any_eq_true.mpr ⟨message, isIn, found⟩))
    have messages := renderMessages_nul renders each
    simp [renderHeader_clean, generationPrompt_clean, renderToolSection_clean written, messages]

section Escapes

def hexValue (digit : Char) : Nat :=
  if digit.isDigit then digit.toNat - 48 else digit.toLower.toNat - 87

def readString : List Char → Option (List Char × List Char)
  | [] => none
  | character :: rest =>
    if character = quote then some ([], rest)
    else if character = backslash then match rest with
      | 'u' :: a :: b :: c :: d :: rest =>
        (readString rest).map fun parts =>
          (Char.ofNat (((hexValue a * 16 + hexValue b) * 16 + hexValue c) * 16 + hexValue d) :: parts.1, parts.2)
      | _ => none
    else (readString rest).map fun parts => (character :: parts.1, parts.2)

def readQuoted : List Char → Option (List Char × List Char)
  | character :: rest => if character = quote then readString rest else none
  | [] => none

def readMember (text : List Char) : Option (OrderedValue Empty) :=
  match text with
  | '{' :: rest => do
    let (key, rest) ← readQuoted rest
    match rest with
    | ':' :: rest => do
      let (value, rest) ← readQuoted rest
      if rest = ['}'] then some (.object [(key, .string value)]) else none
    | _ => none
  | _ => none

def hexDigit (value : Nat) : Char := if value < 10 then Char.ofNat (48 + value) else Char.ofNat (87 + value)

def writeCharacter (character : Char) : List Char :=
  if character = quote ∨ character = backslash then [backslash, character]
  else if character.toNat < 32 then
    [backslash, 'u', '0', '0', hexDigit (character.toNat / 16), hexDigit (character.toNat % 16)]
  else [character]

theorem hexDigit_clean : ∀ value < 16, (hexDigit value).toNat ≠ 0 := by decide

theorem writeCharacter_clean (character : Char) : nul ∉ writeCharacter character := by
  have marks : backslash.toNat = 92 := rfl
  unfold writeCharacter
  split
  next special => rcases special with rfl | rfl <;> simp [marks]
  · split
    next small =>
      have high := hexDigit_clean (character.toNat / 16) (by omega)
      have low := hexDigit_clean (character.toNat % 16) (by omega)
      simp [marks, high, low]
    next large =>
      simp only [List.mem_singleton, nul_eq_iff]
      omega

def memberJson : Json Empty where
  fromStr := readMember
  toString text := .ok ([quote] ++ text.flatMap writeCharacter ++ [quote])
  numberText := nofun
  toString_clean := by
    intro text output ok
    cases ok
    simp [writeCharacter_clean]
  numberText_clean := nofun

def callMessage (arguments : OrderedValue Empty) : ChatMessage Empty :=
  ⟨.assistant, [], none, [⟨['f'], arguments⟩], none, none⟩

def plainOptions : ChatTemplateOptions := ⟨.max, false, none, false⟩

def hiddenNul : List Char :=
  ['{', quote, 'k', quote, ':', quote, backslash, 'u', '0', '0', '0', '0', quote, '}']

def plainText : List Char := ['{', quote, 'k', quote, ':', quote, 'v', quote, '}']

end Escapes

theorem hiddenNul_reaches_prompt :
    ∃ prompt, renderChat memberJson [callMessage (.string hiddenNul)] none plainOptions = .ok prompt ∧ nul ∈ prompt := by
  have decoded : (Char.ofNat (((hexValue '0' * 16 + hexValue '0') * 16 + hexValue '0') * 16 + hexValue '0')).toNat = 0 := by
    decide
  exact ⟨_, rfl, by simp [decoded]⟩

/-- Arguments with nothing to hide, as an object and as the text of one. -/
theorem plainArguments_clean :
    (∃ prompt, renderChat memberJson [callMessage (.object [(['k'], .string ['v'])])] none plainOptions = .ok prompt
      ∧ nul ∉ prompt) ∧
    ∃ prompt, renderChat memberJson [callMessage (.string plainText)] none plainOptions = .ok prompt ∧ nul ∉ prompt := by
  obtain ⟨prompt, rendered⟩ : ∃ prompt,
      renderChat memberJson [callMessage (.object [(['k'], .string ['v'])])] none plainOptions = .ok prompt := ⟨_, rfl⟩
  obtain ⟨prompt', rendered'⟩ : ∃ prompt,
      renderChat memberJson [callMessage (.string plainText)] none plainOptions = .ok prompt := ⟨_, rfl⟩
  refine ⟨⟨prompt, rendered, (renderChat_clean_iff rendered).mpr ?_⟩,
    prompt', rendered', (renderChat_clean_iff rendered').mpr ?_⟩
  · rintro message isIn ⟨_, call, isCall, text, entries, isText, _⟩
    rw [List.mem_singleton.mp isIn] at isCall
    rw [List.mem_singleton.mp isCall] at isText
    cases isText
  · rintro message isIn ⟨_, call, isCall, text, entries, isText, parsed, entry, isEntry, value, isValue, hides⟩
    rw [List.mem_singleton.mp isIn] at isCall
    rw [List.mem_singleton.mp isCall] at isText
    cases isText
    have only : readMember plainText = some (.object [(['k'], .string ['v'])]) := by rfl
    cases only.symm.trans parsed
    rw [List.mem_singleton.mp isEntry] at isValue
    cases isValue
    exact absurd hides (by decide)

end Glmaxx.Proof.Tokenizer
