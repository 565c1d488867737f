import Glmaxx.Library.Outcome

namespace Glmaxx.Tokenizer
open Library

def nul : Char := Char.ofNat 0
def quote : Char := Char.ofNat 34
def backslash : Char := Char.ofNat 92

/-- Numbers are those of the JSON library. -/
inductive OrderedValue (ν : Type) where
  | null
  | bool (value : Bool)
  | number (value : ν)
  | string (value : List Char)
  | array (values : List (OrderedValue ν))
  | object (entries : List (List Char × OrderedValue ν))

/-- The JSON library: its parser, its writer of strings and its writer of numbers. A control character is written
as an escape. -/
structure Json (ν : Type) where
  fromStr : List Char → Option (OrderedValue ν)
  toString : List Char → Except (List Char) (List Char)
  numberText : ν → List Char
  toString_clean : ∀ {text output : List Char}, toString text = .ok output → nul ∉ output
  numberText_clean : ∀ value : ν, nul ∉ numberText value

inductive ChatRole where
  | system
  | user
  | assistant
  | tool
deriving DecidableEq, Repr

structure ChatFunctionCall (ν : Type) where
  name : List Char
  arguments : OrderedValue ν

structure ChatMessage (ν : Type) where
  role : ChatRole
  content : List Char
  reasoningContent : Option (List Char)
  toolCalls : List (ChatFunctionCall ν)
  name : Option (List Char)
  toolCallId : Option (List Char)

inductive ReasoningEffort where
  | high
  | max
deriving DecidableEq, Repr

structure ChatTemplateOptions where
  reasoningEffort : ReasoningEffort
  enableThinking : Bool
  clearThinking : Option Bool
  addGenerationPrompt : Bool
deriving DecidableEq, Repr

inductive ChatTemplateError where
  | messages
  | toolDefinition
  | toolArguments
  | json (text : List Char)
deriving DecidableEq, Repr

def toolPreamble : List Char :=
  "<|system|>\n# Tools\n\n".toList
    ++ "You may call one or more functions to assist with the user query.\n\n".toList
    ++ "You are provided with function signatures within <tools></tools> XML tags:\n<tools>\n".toList

def toolPostamble : List Char :=
  "</tools>\n\n".toList
    ++ "For each function call, output the function name and arguments within the following XML format:\n".toList
    ++ "<tool_call>\x7bfunction-name\x7d<arg_key>\x7barg-key-1\x7d</arg_key>".toList
    ++ "<arg_value>\x7barg-value-1\x7d</arg_value><arg_key>\x7barg-key-2\x7d</arg_key>".toList
    ++ "<arg_value>\x7barg-value-2\x7d</arg_value>...</tool_call>".toList

namespace OrderedValue
variable {ν : Type}

def entries? : OrderedValue ν → Option (List (List Char × OrderedValue ν))
  | .object entries => some entries
  | _ => none

def string? : OrderedValue ν → Option (List Char)
  | .string value => some value
  | _ => none

def get (value : OrderedValue ν) (key : List Char) : Option (OrderedValue ν) :=
  value.entries?.bind fun entries => (entries.find? (·.1 = key)).map (·.2)

mutual

def containsNul : OrderedValue ν → Bool
  | .string value => nul ∈ value
  | .array values => anyContainsNul values
  | .object entries => entriesContainNul entries
  | .null | .bool _ | .number _ => false

def anyContainsNul : List (OrderedValue ν) → Bool
  | [] => false
  | value :: rest => value.containsNul || anyContainsNul rest

def entriesContainNul : List (List Char × OrderedValue ν) → Bool
  | [] => false
  | (key, value) :: rest => decide (nul ∈ key) || value.containsNul || entriesContainNul rest

end

def separator (first : Bool) : List Char := if first then [] else ", ".toList

mutual

/-- What `write_python_json` appends. -/
def pythonJson (json : Json ν) : OrderedValue ν → Except (List Char) (List Char)
  | .null => .ok "null".toList
  | .bool value => .ok (if value then "true".toList else "false".toList)
  | .number value => .ok (json.numberText value)
  | .string value => json.toString value
  | .array values => do
    let items ← arrayJson json true values
    .ok ("[".toList ++ items ++ "]".toList)
  | .object entries => do
    let items ← objectJson json true entries
    .ok ("\x7b".toList ++ items ++ "\x7d".toList)

def arrayJson (json : Json ν) (first : Bool) : List (OrderedValue ν) → Except (List Char) (List Char)
  | [] => .ok []
  | value :: rest => do
    let item ← pythonJson json value
    let items ← arrayJson json false rest
    .ok (separator first ++ item ++ items)

def objectJson (json : Json ν) (first : Bool) : List (List Char × OrderedValue ν) → Except (List Char) (List Char)
  | [] => .ok []
  | (key, value) :: rest => do
    let name ← json.toString key
    let item ← pythonJson json value
    let items ← objectJson json false rest
    .ok (separator first ++ name ++ ": ".toList ++ item ++ items)

end

end OrderedValue

/-- `char::is_control`. -/
def isControl (character : Char) : Bool :=
  character.toNat < 0x20 || (0x7f ≤ character.toNat && character.toNat < 0xa0)

/-- `char::is_whitespace`. -/
def isWhitespace (character : Char) : Bool :=
  (0x09 ≤ character.toNat && character.toNat ≤ 0x0d)
    || character.toNat ∈ [0x20, 0x85, 0xa0, 0x1680, 0x2028, 0x2029, 0x202f, 0x205f, 0x3000]
    || (0x2000 ≤ character.toNat && character.toNat ≤ 0x200a)

def trim (text : List Char) : List Char := (text.dropWhile isWhitespace).rdropWhile isWhitespace

def validateJsonKey (key : List Char) : Except ChatTemplateError Unit :=
  if key.any (fun character => character = quote || character = backslash || isControl character) then
    .error .toolDefinition
  else .ok ()

def validateTagText (value : List Char) : Except ChatTemplateError Unit :=
  if '<' ∈ value ∨ nul ∈ value then .error .toolArguments else .ok ()

section Rendering
variable {ν : Type} (json : Json ν)

/-- The loop of `render_tool_definition`. -/
def definitionEntries : Bool → List (List Char × OrderedValue ν) → Except ChatTemplateError (List Char)
  | _, [] => .ok []
  | first, (key, value) :: rest =>
    if key = "defer_loading".toList ∨ key = "strict".toList then definitionEntries first rest
    else do
      validateJsonKey key
      let item ← (value.pythonJson json).mapError .json
      let items ← definitionEntries false rest
      .ok (OrderedValue.separator first ++ [quote] ++ key ++ [quote] ++ ": ".toList ++ item ++ items)

def renderToolDefinition (tool : OrderedValue ν) : Except ChatTemplateError (List Char) := do
  let selected := (tool.get "function".toList).getD tool
  let entries ← okOr selected.entries? .toolDefinition
  let items ← definitionEntries json true entries
  .ok ("\x7b".toList ++ items ++ "\x7d".toList)

def renderTools : List (OrderedValue ν) → Except ChatTemplateError (List Char)
  | [] => .ok []
  | tool :: rest => do
    let definition ← renderToolDefinition json tool
    let definitions ← renderTools rest
    .ok (definition ++ "\n".toList ++ definitions)

def splitOnce (pattern : List Char) : List Char → Option (List Char × List Char)
  | [] => if pattern = [] then some ([], []) else none
  | character :: rest =>
    if pattern <+: character :: rest then some ([], (character :: rest).drop pattern.length)
    else (splitOnce pattern rest).map fun parts => (character :: parts.1, parts.2)

def rsplitOnce (pattern : List Char) : List Char → Option (List Char × List Char)
  | [] => if pattern = [] then some ([], []) else none
  | character :: rest => match rsplitOnce pattern rest with
    | some parts => some (character :: parts.1, parts.2)
    | none =>
      if pattern <+: character :: rest then some ([], (character :: rest).drop pattern.length) else none

def assistantParts (message : ChatMessage ν) : Option (List Char) × List Char :=
  match message.reasoningContent with
  | some reasoning => (some reasoning, message.content)
  | none => match splitOnce "</think>".toList message.content with
    | some (before, after) =>
      (some ((rsplitOnce "<think>".toList before).elim before (·.2)),
        (rsplitOnce "</think>".toList message.content).elim after (·.2))
    | none => (none, message.content)

def requireContent (message : ChatMessage ν) : Except ChatTemplateError Unit :=
  if message.content = [] ∨ nul ∈ message.content then .error .messages else .ok ()

def rejectAssistantFields (message : ChatMessage ν) : Except ChatTemplateError Unit :=
  if message.reasoningContent.isSome ∨ message.toolCalls.isEmpty = false then .error .messages else .ok ()

def callArguments (call : ChatFunctionCall ν) : Except ChatTemplateError (List (List Char × OrderedValue ν)) :=
  match call.arguments with
  | .object entries => .ok entries
  | .string text => do
    let parsed ← okOr (json.fromStr text) .toolArguments
    okOr parsed.entries? .toolArguments
  | _ => .error .toolArguments

def argumentText (value : OrderedValue ν) : Except ChatTemplateError (List Char) :=
  match value.string? with
  | some text => .ok text
  | none => (value.pythonJson json).mapError .json

def renderArguments : List (List Char × OrderedValue ν) → Except ChatTemplateError (List Char)
  | [] => .ok []
  | (key, value) :: rest => do
    validateTagText key
    let text ← argumentText json value
    let later ← renderArguments rest
    .ok ("<arg_key>".toList ++ key ++ "</arg_key><arg_value>".toList ++ text ++ "</arg_value>".toList ++ later)

def renderCalls : List (ChatFunctionCall ν) → Except ChatTemplateError (List Char)
  | [] => .ok []
  | call :: rest => do
    validateTagText call.name
    let arguments ← callArguments json call
    let text ← renderArguments json arguments
    let later ← renderCalls rest
    .ok ("<tool_call>".toList ++ call.name ++ text ++ "</tool_call>".toList ++ later)

/-- The reasoning of an assistant message, shown from the last user message on or where it is kept. -/
def renderReasoning (preserve : Bool) : Option (List Char) → List Char
  | some reasoning => if preserve then "<think>".toList ++ reasoning ++ "</think>".toList else "<think></think>".toList
  | none => "<think></think>".toList

def renderContent (message : ChatMessage ν) : Except ChatTemplateError (List Char) := do
  requireContent message
  rejectAssistantFields message
  .ok message.content

/-- One round of the loop over the messages; `previous` is the role of the message before. -/
def renderMessage (options : ChatTemplateOptions) (lastUser : Option Nat) (index : Nat) (previous : Option ChatRole)
    (message : ChatMessage ν) : Except ChatTemplateError (List Char) :=
  match message.role with
  | .system => do
    let content ← renderContent message
    .ok ("<|system|>".toList ++ content)
  | .user => do
    let content ← renderContent message
    .ok ("<|user|>".toList ++ content)
  | .assistant => do
    let parts := assistantParts message
    let preserve := decide (options.clearThinking = some false) || lastUser.all fun lastUser => lastUser < index
    let calls ← renderCalls json message.toolCalls
    .ok ("<|assistant|>".toList ++ renderReasoning preserve parts.1 ++ trim parts.2 ++ calls)
  | .tool => do
    let content ← renderContent message
    .ok ((if previous = some .tool then [] else "<|observation|>".toList) ++ "<tool_response>".toList ++ content
      ++ "</tool_response>".toList)

def renderMessages (options : ChatTemplateOptions) (lastUser : Option Nat) : Nat → Option ChatRole →
    List (ChatMessage ν) → Except ChatTemplateError (List Char)
  | _, _, [] => .ok []
  | index, previous, message :: rest => do
    let text ← renderMessage json options lastUser index previous message
    let later ← renderMessages options lastUser (index + 1) (some message.role) rest
    .ok (text ++ later)

/-- `rposition` of a user message. -/
def lastUserIndex : List (ChatMessage ν) → Option Nat
  | [] => none
  | message :: rest => match lastUserIndex rest with
    | some index => some (index + 1)
    | none => if message.role = .user then some 0 else none

def ChatMessage.hasNul (message : ChatMessage ν) : Bool :=
  decide (nul ∈ message.content) || message.reasoningContent.any (fun value => nul ∈ value)
    || message.name.any (fun value => nul ∈ value) || message.toolCallId.any (fun value => nul ∈ value)
    || message.toolCalls.any fun call => decide (nul ∈ call.name) || call.arguments.containsNul

def effortText : ReasoningEffort → List Char
  | .high => "High".toList
  | .max => "Max".toList

def renderHeader (options : ChatTemplateOptions) : List Char :=
  "[gMASK]<sop>".toList
    ++ if options.enableThinking then "<|system|>Reasoning Effort: ".toList ++ effortText options.reasoningEffort else []

def renderToolSection (tools : Option (List (OrderedValue ν))) : Except ChatTemplateError (List Char) :=
  match tools with
  | some (tool :: rest) => do
    let definitions ← renderTools json (tool :: rest)
    .ok (toolPreamble ++ definitions ++ toolPostamble)
  | _ => .ok []

def generationPrompt (options : ChatTemplateOptions) : List Char :=
  if options.addGenerationPrompt then
    "<|assistant|>".toList ++ if options.enableThinking then "<think>".toList else "<think></think>".toList
  else []

def renderChat (messages : List (ChatMessage ν)) (tools : Option (List (OrderedValue ν)))
    (options : ChatTemplateOptions) : Except ChatTemplateError (List Char) :=
  if messages = [] then .error .messages
  else if messages.any (·.hasNul) ∨ tools.any (fun tools => tools.any (·.containsNul)) then .error .messages
  else do
    let definitions ← renderToolSection json tools
    let text ← renderMessages json options (lastUserIndex messages) 0 none messages
    .ok (renderHeader options ++ definitions ++ text ++ generationPrompt options)

end Rendering

end Glmaxx.Tokenizer
