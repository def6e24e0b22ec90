import KelvinClaw.Plugin.Manifest

/-!
# Responses of model providers

A model plugin answers with a model output, or with the response of its provider. A response is
checked for the format of its protocol, and a model output is built from it. The tool calls of a
response are items of an array, with arguments that are JSON, or a text of JSON.
-/

namespace KelvinClaw.Plugin

open KelvinClaw.Core

structure ModelUsage where
  inputTokens : Option ℕ
  outputTokens : Option ℕ
  totalTokens : Option ℕ
  deriving DecidableEq, Repr

/-- The model output, with the use of tokens. -/
structure ModelOutput extends Brain.ModelOutput where
  usage : Option ModelUsage
  deriving DecidableEq, Repr

/-! ### Members -/

/-- A member that is a string: `get` and `as_str`. -/
def strAt (key : String) (value : Value) : Option String := (value.get key).bind Value.asStr

def arrayAt (key : String) (value : Value) : Option (List Value) :=
  (value.get key).bind Value.asArray

/-- `Value::as_u64`. -/
def asU64 : Value → Option ℕ
  | .num n => if 0 ≤ n ∧ n ≤ u64Max then some n.toNat else none
  | _ => none

def u64At (key : String) (value : Value) : Option ℕ := (value.get key).bind asU64

/-- `Value::as_object` and `Map::get`. -/
def isObject (value : Value) : Bool := value.asObject.isSome

/-! ### Formats -/

abbrev Check := Except String Unit

def require (condition : Prop) [Decidable condition] (text : String) : Check :=
  if condition then .ok () else .error text

@[simp] theorem require_eq_ok {condition : Prop} [Decidable condition] {text : String} {u : Unit} :
    require condition text = .ok u ↔ condition := by
  unfold require
  split <;> simp_all

def checkItems (check : ℕ → Value → Check) : ℕ → List Value → Check
  | _, [] => .ok ()
  | idx, item :: rest => do
    check idx item
    checkItems check (idx + 1) rest

def checkOpenaiItem (idx : ℕ) (item : Value) : Check := do
  require (isObject item) s!"OpenAI Responses output[{idx}] is not a JSON object"
  match strAt "type" item with
  | none => .error s!"OpenAI Responses output[{idx}] missing field: type"
  | some "message" =>
    match item.get "content" with
    | none => .error s!"OpenAI Responses output[{idx}] (type=message) missing field: content"
    | some content =>
      require content.asArray.isSome s!"OpenAI Responses output[{idx}].content must be an array"
  | some "function_call" =>
    require ((item.get "call_id").isSome ∨ (item.get "name").isSome)
      (s!"OpenAI Responses output[{idx}] (type=function_call) must have " ++
        "'call_id' or 'name'")
  | some itemType => .error s!"OpenAI Responses output[{idx}] has unknown type: {itemType}"

def validateOpenaiResponseSchema (value : Value) : Check := do
  require (isObject value) "response is not a JSON object"
  require ((strAt "output_text" value).isSome ∨ (arrayAt "output" value).isSome)
    "OpenAI Responses: must have 'output_text' (string) or 'output' (array)"
  checkItems checkOpenaiItem 0 ((arrayAt "output" value).getD [])

def checkAnthropicBlock (idx : ℕ) (block : Value) : Check := do
  require (isObject block) s!"Anthropic Messages content[{idx}] is not a JSON object"
  match strAt "type" block with
  | none => .error s!"Anthropic Messages content[{idx}] missing field: type"
  | some "text" =>
    require (block.get "text").isSome
      s!"Anthropic Messages content[{idx}] (type=text) missing field: text"
  | some "tool_use" =>
    ["id", "name", "input"].forM fun requiredField =>
      require (block.get requiredField).isSome
        s!"Anthropic Messages content[{idx}] (type=tool_use) missing field: {requiredField}"
  | some blockType => .error s!"Anthropic Messages content[{idx}] has unknown type: {blockType}"

def validateAnthropicResponseSchema (value : Value) : Check := do
  require (isObject value) "response is not a JSON object"
  match value.get "content" with
  | none => .error "Anthropic Messages: missing required field: content"
  | some content =>
    match content.asArray with
    | none => .error "Anthropic Messages: field 'content' must be an array"
    | some blocks => checkItems checkAnthropicBlock 0 blocks

def checkMessage (message : Value) : Check := do
  require (isObject message)
    "OpenAI Chat Completions: choices[0].message must be a JSON object"
  require (message.get "role").isSome
    "OpenAI Chat Completions: choices[0].message missing field: role"
  match message.get "tool_calls" with
  | none => .ok ()
  | some toolCalls =>
    require (toolCalls.asArray.isSome ∨ toolCalls = .null)
      "OpenAI Chat Completions: choices[0].message.tool_calls must be an array or null"

def validateOpenaiChatCompletionsSchema (value : Value) : Check := do
  require (isObject value) "response is not a JSON object"
  match value.get "choices" with
  | none => .error "OpenAI Chat Completions: missing required field: choices"
  | some choices =>
    match choices.asArray with
    | none => .error "OpenAI Chat Completions: field 'choices' must be an array"
    | some [] => .error "OpenAI Chat Completions: choices array must not be empty"
    | some (firstChoice :: _) =>
      require (isObject firstChoice) "OpenAI Chat Completions: choices[0] is not a JSON object"
      match firstChoice.get "message" with
      | none => .error "OpenAI Chat Completions: choices[0] missing field: message"
      | some message => checkMessage message

def validateResponseSchema : ModelProviderProtocolFamily → Value → Check
  | .openAiResponses => validateOpenaiResponseSchema
  | .anthropicMessages => validateAnthropicResponseSchema
  | .openAiChatCompletions => validateOpenaiChatCompletionsSchema

/-! ### Model outputs -/

/-- The use of tokens, from members of these names. The sum wraps around. -/
def adaptUsageWith (inputKey outputKey : String) (usage : Value) : Option ModelUsage :=
  let inputTokens := u64At inputKey usage
  let outputTokens := u64At outputKey usage
  let totalTokens := (u64At "total_tokens" usage).or
    (inputTokens.bind fun input => outputTokens.map fun output => (input + output) % 2 ^ 64)
  if inputTokens = none ∧ outputTokens = none ∧ totalTokens = none then none
  else some ⟨inputTokens, outputTokens, totalTokens⟩

def adaptUsage : Value → Option ModelUsage := adaptUsageWith "input_tokens" "output_tokens"

def adaptOpenrouterUsage : Value → Option ModelUsage :=
  adaptUsageWith "prompt_tokens" "completion_tokens"

def blockTexts (blockType : String) (blocks : List Value) : List String :=
  blocks.filterMap fun block =>
    if strAt "type" block = some blockType then strAt "text" block else none

/-- `join("\n")`. -/
def joinLines (parts : List String) : String := "\n".intercalate parts

variable (parseJson : String → Except String Value)

def embeddedArguments (value : Value) : Value :=
  match strAt "arguments" value with
  | none => .obj []
  | some text =>
    match parseJson text with
    | .ok arguments => arguments
    | .error _ => .obj []

def openaiCall (item : Value) : Brain.ToolCall :=
  ⟨(strAt "call_id" item).getD "", (strAt "name" item).getD "", embeddedArguments parseJson item⟩

/-- The walk through the output: the texts, and the tool calls. A message without content ends it,
without texts. -/
def walkOutput : List Value → List String → List Brain.ToolCall →
    Option (List String) × List Brain.ToolCall
  | [], parts, calls => (some parts, calls)
  | item :: rest, parts, calls =>
    if strAt "type" item = some "function_call" then
      walkOutput rest parts (calls ++ [openaiCall parseJson item])
    else if strAt "type" item ≠ some "message" then walkOutput rest parts calls
    else
      match item.get "content" with
      | none => (none, calls)
      | some content =>
        match content.asArray with
        | none => walkOutput rest parts calls
        | some blocks => walkOutput rest (parts ++ blockTexts "output_text" blocks) calls

/-- The text at the top is taken before the output is looked at. -/
def openaiTextAndCalls (value : Value) : Option String × List Brain.ToolCall :=
  match strAt "output_text" value with
  | some text => (some text, [])
  | none =>
    match arrayAt "output" value with
    | none => (none, [])
    | some output =>
      match walkOutput parseJson output [] [] with
      | (none, calls) | (some [], calls) => (none, calls)
      | (some parts, calls) => (some (joinLines parts), calls)

def adaptOpenaiResponse (value : Value) : Option ModelOutput :=
  let (outputText, toolCalls) := openaiTextAndCalls parseJson value
  let assistantText := outputText.getD ""
  if assistantText = "" ∧ toolCalls = [] then none
  else
    some {
      assistantText
      stopReason := strAt "status" value
      toolCalls
      usage := (value.get "usage").bind adaptUsage }

def anthropicCall (block : Value) : Brain.ToolCall :=
  ⟨(strAt "id" block).getD "", (strAt "name" block).getD "", (block.get "input").getD (.obj [])⟩

def adaptAnthropicResponse (value : Value) : Option ModelOutput := do
  let content ← arrayAt "content" value
  let parts := blockTexts "text" content
  let toolCalls := (content.filter fun block => strAt "type" block = some "tool_use").map
    anthropicCall
  if parts = [] ∧ toolCalls = [] then none
  else
    some {
      assistantText := joinLines parts
      stopReason := strAt "stop_reason" value
      toolCalls
      usage := (value.get "usage").bind adaptUsage }

/-- The content of a message; of another type than these, there is no answer. -/
def messageText (message : Value) : Option String :=
  match message.get "content" with
  | some (.str text) => some text
  | some (.arr parts) => some (joinLines (blockTexts "text" parts))
  | some .null | none => some ""
  | _ => none

def openrouterCall (call : Value) : Brain.ToolCall :=
  let function := call.get "function"
  ⟨(strAt "id" call).getD "", (function.bind (strAt "name")).getD "",
    (function.map (embeddedArguments parseJson)).getD (.obj [])⟩

def adaptOpenrouterResponse (value : Value) : Option ModelOutput := do
  let choices ← arrayAt "choices" value
  let firstChoice ← choices.head?
  let message ← firstChoice.get "message"
  let assistantText ← messageText message
  let toolCalls := ((arrayAt "tool_calls" message).getD []).map (openrouterCall parseJson)
  if assistantText = "" ∧ toolCalls = [] then none
  else
    some {
      assistantText
      stopReason := strAt "finish_reason" firstChoice
      toolCalls
      usage := (value.get "usage").bind adaptOpenrouterUsage }

def adaptResponse : ModelProviderProtocolFamily → Value → Option ModelOutput
  | .openAiResponses => adaptOpenaiResponse parseJson
  | .anthropicMessages => adaptAnthropicResponse
  | .openAiChatCompletions => adaptOpenrouterResponse parseJson

def adaptProviderResponse (profile : ModelProviderProfile) (value : Value) : Option ModelOutput :=
  match validateResponseSchema profile.protocolFamily value with
  | .ok _ => adaptResponse parseJson profile.protocolFamily value
  | .error _ => none

end KelvinClaw.Plugin
