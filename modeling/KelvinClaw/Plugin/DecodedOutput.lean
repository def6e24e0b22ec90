import KelvinClaw.Plugin.ResponseCalls

/-!
# Decoded outputs of model plugins

The text that a model plugin returns is read as a model output, which is then checked, or else
adapted from the response of the provider. Only the first way checks that tool calls have names
and that their arguments are objects.
-/

namespace KelvinClaw.Plugin

open KelvinClaw.Core

/-! ### Reading a model output -/

def readOption {α : Type} (read : Value → Option α) : Option Value → Option (Option α)
  | none | some .null => some none
  | some value => (read value).map some

def usageOfValue : Value → Option ModelUsage
  | .arr [input, output, total] => do
    return ⟨← readOption asU64 (some input), ← readOption asU64 (some output),
      ← readOption asU64 (some total)⟩
  | .obj members => do
    let field := fun key => readOption asU64 (Value.lookup key members)
    return ⟨← field "input_tokens", ← field "output_tokens", ← field "total_tokens"⟩
  | _ => none

def toolCallOfValue : Value → Option Brain.ToolCall
  | .arr [.str id, .str name, arguments] => some ⟨id, name, arguments⟩
  | .obj members => do
    let id ← (Value.lookup "id" members).bind Value.asStr
    let name ← (Value.lookup "name" members).bind Value.asStr
    let arguments ← Value.lookup "arguments" members
    return ⟨id, name, arguments⟩
  | _ => none

def modelOutputOfFields (assistantText stopReason toolCalls usage : Option Value) :
    Option ModelOutput := do
  let assistantText ← assistantText.bind Value.asStr
  let stopReason ← readOption Value.asStr stopReason
  let items ← toolCalls.bind Value.asArray
  let toolCalls ← items.mapM toolCallOfValue
  let usage ← readOption usageOfValue usage
  return { assistantText, stopReason, toolCalls, usage }

/-- `serde_json::from_value`: from the members of an object, or from an array of all fields. -/
def modelOutputOfValue : Value → Option ModelOutput
  | .arr [assistantText, stopReason, toolCalls, usage] =>
    modelOutputOfFields (some assistantText) (some stopReason) (some toolCalls) (some usage)
  | .obj members =>
    modelOutputOfFields (Value.lookup "assistant_text" members) (Value.lookup "stop_reason" members)
      (Value.lookup "tool_calls" members) (Value.lookup "usage" members)
  | _ => none

/-! ### The check -/

def jsonTypeName : Value → String
  | .null => "null"
  | .bool _ => "boolean"
  | .num _ => "number"
  | .str _ => "string"
  | .arr _ => "array"
  | .obj _ => "object"

def requireField (key text : String) (value : Value) : Except String Value :=
  match value.get key with
  | some found => .ok found
  | none => .error text

def validateToolCall (idx : ℕ) (toolCall : Value) : Check := do
  require (isObject toolCall) s!"tool_calls[{idx}] is not a JSON object"
  let id ← requireField "id" s!"tool_calls[{idx}] missing required field: id" toolCall
  require id.asStr.isSome s!"tool_calls[{idx}].id must be a string"
  let name ← requireField "name" s!"tool_calls[{idx}] missing required field: name" toolCall
  require name.asStr.isSome s!"tool_calls[{idx}].name must be a string"
  let arguments ←
    requireField "arguments" s!"tool_calls[{idx}] missing required field: arguments" toolCall
  let found := jsonTypeName arguments
  require (isObject arguments) s!"tool_calls[{idx}].arguments must be a JSON object, got {found}"
  require (trim (name.asStr.getD "") ≠ "") s!"tool_calls[{idx}].name must not be empty"

def checkOptional (key text : String) (test : Value → Bool) (value : Value) : Check :=
  match value.get key with
  | none => .ok ()
  | some found => require (test found ∨ found = .null) text

def validateModelOutputSchema (value : Value) : Check := do
  require (isObject value) "response is not a JSON object"
  let assistantText ←
    requireField "assistant_text" "missing required field: assistant_text" value
  require assistantText.asStr.isSome "field 'assistant_text' must be a string"
  let toolCalls ← requireField "tool_calls" "missing required field: tool_calls" value
  match toolCalls.asArray with
  | none => .error "field 'tool_calls' must be an array"
  | some items => checkItems validateToolCall 0 items
  checkOptional "stop_reason" "field 'stop_reason' must be a string or null"
    (fun found => found.asStr.isSome) value
  checkOptional "usage" "field 'usage' must be an object or null" isObject value

/-! ### Decoding -/

/-- The fields of a model plugin that decoding reads. -/
structure ModelPlugin where
  pluginId : String
  pluginVersion : String
  providerProfile : Option ModelProviderProfile

/-- `{:?}`. -/
def ModelProviderProtocolFamily.debug : ModelProviderProtocolFamily → String
  | .openAiResponses => "OpenAiResponses"
  | .openAiChatCompletions => "OpenAiChatCompletions"
  | .anthropicMessages => "AnthropicMessages"

section Decoding

variable (parseJson : String → Except String Value) (plugin : ModelPlugin)

def ModelPlugin.reading : OutputReading ModelOutput where
  parse := parseJson
  modelOutput := modelOutputOfValue
  schema := validateModelOutputSchema
  profile := plugin.providerProfile.map fun profile =>
    (profile.protocolFamily.debug, adaptProviderResponse parseJson profile)

def decodeOutputPayload (outputJson : String) : KelvinResult ModelOutput :=
  (plugin.reading parseJson).decodeOutputPayload plugin.pluginId plugin.pluginVersion outputJson

end Decoding

/-! ### What is well formed -/

def WellFormedCall (call : Brain.ToolCall) : Prop := trim call.name ≠ "" ∧ isObject call.arguments

def usageKeys : ModelProviderProtocolFamily → String × String
  | .openAiResponses | .anthropicMessages => ("input_tokens", "output_tokens")
  | .openAiChatCompletions => ("prompt_tokens", "completion_tokens")

/-- The two numbers of tokens that are added up: those of a response without a total. -/
def summands (family : ModelProviderProtocolFamily) (value : Value) : Option (ℕ × ℕ) := do
  let usage ← value.get "usage"
  let input ← u64At (usageKeys family).1 usage
  let output ← u64At (usageKeys family).2 usage
  if u64At "total_tokens" usage = none then some (input, output) else none

section Conditions

variable (parseJson : String → Except String Value) (plugin : ModelPlugin) (outputJson : String)

/-- The text is a response that has the format of the protocol, and not a model output. -/
structure Adapted (family : ModelProviderProtocolFamily) (value : Value) : Prop where
  parses : parseJson outputJson = .ok value
  works : errorMessage value = none
  indirect : modelOutputOfValue value = none
  profile : plugin.providerProfile.map (·.protocolFamily) = some family
  checked : validateResponseSchema family value = .ok ()

def WellFormed : Prop :=
  ∀ output, decodeOutputPayload parseJson plugin outputJson = .ok output →
    (∀ call ∈ output.toolCalls, WellFormedCall call) ∧
      ∀ family value, Adapted parseJson plugin outputJson family value →
        ∀ input out, summands family value = some (input, out) →
          output.usage.bind (·.totalTokens) = some (input + out)

def adaptedItems : ModelProviderProtocolFamily → Value → List Value
  | .openAiResponses, value =>
    if strAt "output_text" value = none then callItems .openAiResponses value else []
  | family, value => callItems family value

def itemName : ModelProviderProtocolFamily → Value → Option String
  | .openAiResponses, item | .anthropicMessages, item => strAt "name" item
  | .openAiChatCompletions, item => (item.get "function").bind (strAt "name")

def parsedArguments (value : Value) : Option Value :=
  (strAt "arguments" value).bind fun text => (parseJson text).toOption

def itemArguments : ModelProviderProtocolFamily → Value → Option Value
  | .openAiResponses, item => parsedArguments parseJson item
  | .anthropicMessages, item => item.get "input"
  | .openAiChatCompletions, item => (item.get "function").bind (parsedArguments parseJson)

def GoodItem (family : ModelProviderProtocolFamily) (item : Value) : Prop :=
  (∃ name, itemName family item = some name ∧ trim name ≠ "") ∧
    ∀ arguments, itemArguments parseJson family item = some arguments → isObject arguments

/-- The numbers of tokens that are added up do not wrap around. -/
def SumFits (family : ModelProviderProtocolFamily) (value : Value) : Prop :=
  ∀ input out, summands family value = some (input, out) → input + out < 2 ^ 64

/-- A response that has neither text nor a call, or whose message has another content. -/
def NoAnswer : ModelProviderProtocolFamily → Value → Prop
  | .openAiResponses, value =>
    (strAt "output_text" value).getD (outputText value) = "" ∧
      adaptedItems .openAiResponses value = []
  | .anthropicMessages, value =>
    blockTexts "text" ((arrayAt "content" value).getD []) = [] ∧
      adaptedItems .anthropicMessages value = []
  | .openAiChatCompletions, value =>
    ∀ text, (firstMessage value).bind messageText = some text →
      text = "" ∧ adaptedItems .openAiChatCompletions value = []

end Conditions

/-! ### Model outputs that are read -/

section Direct

variable {value : Value}

@[simp] theorem requireField_eq_ok {key text : String} {found : Value} :
    requireField key text value = .ok found ↔ value.get key = some found := by
  unfold requireField
  split <;> simp_all

theorem wellFormedCall_of_checked {idx : ℕ} {item : Value} {call : Brain.ToolCall}
    (read : toolCallOfValue item = some call) (checked : validateToolCall idx item = .ok ()) :
    WellFormedCall call := by
  obtain ⟨object, checked⟩ := bind_unit_eq_ok.mp checked
  obtain ⟨_, _, checked⟩ := bind_eq_ok.mp checked
  obtain ⟨_, checked⟩ := bind_unit_eq_ok.mp checked
  obtain ⟨name, hasName, checked⟩ := bind_eq_ok.mp checked
  obtain ⟨_, checked⟩ := bind_unit_eq_ok.mp checked
  obtain ⟨arguments, hasArguments, checked⟩ := bind_eq_ok.mp checked
  obtain ⟨isObject, named⟩ := bind_unit_eq_ok.mp checked
  rw [requireField_eq_ok] at hasName hasArguments
  rw [require_eq_ok] at object isObject named
  cases item with
  | obj members =>
    obtain ⟨_, _, read⟩ := Option.bind_eq_some_iff.mp read
    obtain ⟨text, readName, read⟩ := Option.bind_eq_some_iff.mp read
    obtain ⟨_, readArguments, read⟩ := Option.bind_eq_some_iff.mp read
    obtain rfl := Option.some_inj.mp read
    obtain rfl := Option.some_inj.mp (hasArguments.symm.trans readArguments)
    obtain ⟨_, sameName, isText⟩ := Option.bind_eq_some_iff.mp readName
    obtain rfl := Option.some_inj.mp (hasName.symm.trans sameName)
    rw [isText, Option.getD_some] at named
    exact ⟨named, isObject⟩
  | null | bool _ | num _ | str _ | arr _ => cases object

theorem wellFormedCalls_of_checked {idx : ℕ} {items : List Value} {calls : List Brain.ToolCall}
    (read : items.mapM toolCallOfValue = some calls)
    (checked : checkItems validateToolCall idx items = .ok ()) :
    ∀ call ∈ calls, WellFormedCall call := by
  induction items generalizing idx calls with
  | nil =>
    cases read
    exact fun call member => by cases member
  | cons item rest ih =>
    rw [List.mapM_cons] at read
    obtain ⟨first, readFirst, read⟩ := Option.bind_eq_some_iff.mp read
    obtain ⟨others, readOthers, made⟩ := Option.bind_eq_some_iff.mp read
    obtain rfl := Option.some_inj.mp made
    obtain ⟨here, later⟩ := bind_unit_eq_ok.mp checked
    exact List.forall_mem_cons.mpr ⟨wellFormedCall_of_checked readFirst here, ih readOthers later⟩

theorem wellFormed_of_direct {output : ModelOutput} (read : modelOutputOfValue value = some output)
    (checked : validateModelOutputSchema value = .ok ()) :
    ∀ call ∈ output.toolCalls, WellFormedCall call := by
  obtain ⟨object, checked⟩ := bind_unit_eq_ok.mp checked
  obtain ⟨_, _, checked⟩ := bind_eq_ok.mp checked
  obtain ⟨_, checked⟩ := bind_unit_eq_ok.mp checked
  obtain ⟨toolCalls, listed, checked⟩ := bind_eq_ok.mp checked
  rw [require_eq_ok] at object
  rw [requireField_eq_ok] at listed
  cases value with
  | obj members =>
    obtain ⟨_, _, read⟩ := Option.bind_eq_some_iff.mp read
    obtain ⟨_, _, read⟩ := Option.bind_eq_some_iff.mp read
    obtain ⟨items, array, read⟩ := Option.bind_eq_some_iff.mp read
    obtain ⟨calls, readCalls, read⟩ := Option.bind_eq_some_iff.mp read
    obtain ⟨_, _, read⟩ := Option.bind_eq_some_iff.mp read
    obtain rfl := Option.some_inj.mp read
    obtain ⟨_, same, array⟩ := Option.bind_eq_some_iff.mp array
    obtain rfl := Option.some_inj.mp (listed.symm.trans same)
    simp only [array] at checked
    obtain ⟨each, _⟩ := bind_unit_eq_ok.mp checked
    exact wellFormedCalls_of_checked readCalls each
  | null | bool _ | num _ | str _ | arr _ => cases object

end Direct

/-! ### Responses that are adapted -/

section Responses

variable {parseJson : String → Except String Value} {family : ModelProviderProtocolFamily}
  {value item : Value} {output : ModelOutput}

def itemCall (parseJson : String → Except String Value) :
    ModelProviderProtocolFamily → Value → Brain.ToolCall
  | .openAiResponses => openaiCall parseJson
  | .anthropicMessages => anthropicCall
  | .openAiChatCompletions => openrouterCall parseJson

theorem trim_getD_ne_iff {name : Option String} :
    trim (name.getD "") ≠ "" ↔ ∃ text, name = some text ∧ trim text ≠ "" := by
  cases name with
  | none => simp [show trim "" = "" from rfl]
  | some text => simp

theorem isObject_embedded_iff : isObject (embeddedArguments parseJson value) ↔
    ∀ arguments, parsedArguments parseJson value = some arguments → isObject arguments := by
  rw [embeddedArguments, parsedArguments]
  cases found : strAt "arguments" value with
  | none => simp [isObject, Value.asObject]
  | some text =>
    rw [Option.bind_some]
    cases reads : parseJson text with
    | error e => simp [isObject, Value.asObject, Except.toOption, reads]
    | ok arguments => simp [Except.toOption, reads]

theorem wellFormedCall_itemCall_iff :
    WellFormedCall (itemCall parseJson family item) ↔ GoodItem parseJson family item := by
  cases family with
  | openAiResponses => exact and_congr trim_getD_ne_iff isObject_embedded_iff
  | anthropicMessages =>
    refine and_congr trim_getD_ne_iff ?_
    simp only [itemCall, anthropicCall, itemArguments]
    cases item.get "input" with
    | none => simp [isObject, Value.asObject]
    | some arguments => simp
  | openAiChatCompletions =>
    refine and_congr trim_getD_ne_iff ?_
    simp only [itemCall, openrouterCall, itemArguments]
    cases item.get "function" with
    | none => simp [isObject, Value.asObject]
    | some function => simpa using isObject_embedded_iff

theorem openaiTextAndCalls_eq (checked : validateOpenaiResponseSchema value = .ok ()) :
    (openaiTextAndCalls parseJson value).1.getD "" =
        (strAt "output_text" value).getD (outputText value) ∧
      (openaiTextAndCalls parseJson value).2 =
        (adaptedItems .openAiResponses value).map (openaiCall parseJson) := by
  cases top : strAt "output_text" value with
  | none =>
    have found := @openaiTextAndCalls_of_none parseJson value checked top
    simpa [adaptedItems, top] using Prod.ext_iff.mp found
  | some text =>
    rw [openaiTextAndCalls, top]
    simp [adaptedItems, top]

theorem adaptResponse_eq_none_iff (checked : validateResponseSchema family value = .ok ()) :
    adaptResponse parseJson family value = none ↔ NoAnswer family value := by
  cases family with
  | openAiResponses =>
    obtain ⟨text, calls⟩ := @openaiTextAndCalls_eq parseJson value checked
    rw [adaptResponse, adaptOpenaiResponse, NoAnswer]
    simp only [text, calls, List.map_eq_nil_iff]
    split_ifs with nothing
    · exact iff_of_true rfl nothing
    · exact iff_of_false (fun same => by cases same) nothing
  | anthropicMessages =>
    obtain ⟨blocks, found⟩ := content_of_anthropic checked
    rw [adaptResponse, adaptAnthropicResponse, NoAnswer]
    simp only [found, Option.bind_eq_bind, Option.bind_some, Option.getD_some, adaptedItems,
      callItems, List.map_eq_nil_iff]
    split_ifs with nothing
    · exact iff_of_true rfl nothing
    · exact iff_of_false (fun same => by cases same) nothing
  | openAiChatCompletions =>
    obtain ⟨firstChoice, rest, message, found, here⟩ := firstMessage_of_checked checked
    have first : firstMessage value = some message := by
      rw [firstMessage, found, Option.bind_some, List.head?_cons, Option.bind_some, here]
    rw [adaptResponse, adaptOpenrouterResponse, NoAnswer]
    simp only [found, List.head?_cons, here, Option.bind_eq_bind, Option.bind_some, adaptedItems,
      callItems, first]
    cases messageText message with
    | none => simp
    | some text =>
      simp only [Option.bind_some, List.map_eq_nil_iff, Option.some.injEq, forall_eq']
      split_ifs with nothing
      · exact iff_of_true rfl nothing
      · exact iff_of_false (fun same => by cases same) nothing

theorem adaptResponse_eq_some (checked : validateResponseSchema family value = .ok ())
    (answered : adaptResponse parseJson family value = some output) :
    output.toolCalls = (adaptedItems family value).map (itemCall parseJson family) ∧
      output.usage = (value.get "usage").bind
        (adaptUsageWith (usageKeys family).1 (usageKeys family).2) := by
  cases family with
  | openAiResponses =>
    have calls := (@openaiTextAndCalls_eq parseJson value checked).2
    rw [adaptResponse, adaptOpenaiResponse] at answered
    simp only at answered
    split_ifs at answered
    obtain rfl := Option.some_inj.mp answered
    exact ⟨calls, rfl⟩
  | anthropicMessages =>
    obtain ⟨blocks, found⟩ := content_of_anthropic checked
    rw [adaptResponse, adaptAnthropicResponse] at answered
    simp only [found, Option.bind_eq_bind, Option.bind_some] at answered
    split_ifs at answered
    obtain rfl := Option.some_inj.mp answered
    refine ⟨?_, rfl⟩
    simp only [adaptedItems, callItems, found, Option.getD_some]
    rfl
  | openAiChatCompletions =>
    obtain ⟨firstChoice, rest, message, found, here⟩ := firstMessage_of_checked checked
    have first : firstMessage value = some message := by
      rw [firstMessage, found, Option.bind_some, List.head?_cons, Option.bind_some, here]
    rw [adaptResponse, adaptOpenrouterResponse] at answered
    simp only [found, List.head?_cons, here, Option.bind_eq_bind, Option.bind_some] at answered
    obtain ⟨text, _, answered⟩ := Option.bind_eq_some_iff.mp answered
    split_ifs at answered
    obtain rfl := Option.some_inj.mp answered
    refine ⟨?_, rfl⟩
    simp only [adaptedItems, callItems, first, Option.bind_some]
    rfl

theorem total_of_summands {input out : ℕ} (added : summands family value = some (input, out)) :
    ((value.get "usage").bind (adaptUsageWith (usageKeys family).1 (usageKeys family).2)).bind
      (·.totalTokens) = some ((input + out) % 2 ^ 64) := by
  obtain ⟨usage, found, added⟩ := Option.bind_eq_some_iff.mp added
  obtain ⟨first, readFirst, added⟩ := Option.bind_eq_some_iff.mp added
  obtain ⟨second, readSecond, added⟩ := Option.bind_eq_some_iff.mp added
  split_ifs at added with untold
  obtain ⟨rfl, rfl⟩ := Prod.mk.inj (Option.some_inj.mp added)
  simp [found, adaptUsageWith, readFirst, readSecond, untold]

end Responses

/-! ### What is decoded -/

section Decoded

variable {parseJson : String → Except String Value} {plugin : ModelPlugin} {outputJson : String}

theorem decodeOutputPayload_eq_ok {output : ModelOutput}
    (decoded : decodeOutputPayload parseJson plugin outputJson = .ok output) :
    (∀ call ∈ output.toolCalls, WellFormedCall call) ∧
        (∀ family value, ¬ Adapted parseJson plugin outputJson family value) ∨
      ∃ family value, Adapted parseJson plugin outputJson family value ∧
        adaptResponse parseJson family value = some output := by
  rw [decodeOutputPayload, OutputReading.decodeOutputPayload] at decoded
  simp only [ModelPlugin.reading] at decoded
  -- the branches of the decoder in their order; all but two of them fail
  cases parses : parseJson outputJson with
  | error e =>
    rw [parses] at decoded
    cases decoded
  | ok value =>
    rw [parses] at decoded
    simp only [OutputReading.decodeValue] at decoded
    cases works : errorMessage value with
    | some message =>
      rw [works] at decoded
      cases decoded
    | none =>
      rw [works] at decoded
      simp only at decoded
      cases direct : modelOutputOfValue value with
      | some read =>
        rw [direct] at decoded
        simp only at decoded
        split at decoded
        · next checked =>
          obtain rfl := Except.ok.inj decoded
          refine .inl ⟨wellFormed_of_direct direct checked, fun family other adapted => ?_⟩
          obtain rfl := Except.ok.inj (parses.symm.trans adapted.parses)
          rw [adapted.indirect] at direct
          cases direct
        · cases decoded
      | none =>
        rw [direct] at decoded
        simp only [OutputReading.decodeResponse] at decoded
        cases profile : plugin.providerProfile with
        | none =>
          rw [profile] at decoded
          cases decoded
        | some profile' =>
          rw [profile] at decoded
          simp only [Option.map_some, adaptProviderResponse] at decoded
          cases checked : validateResponseSchema profile'.protocolFamily value with
          | error e =>
            rw [checked] at decoded
            cases decoded
          | ok u =>
            rw [checked] at decoded
            simp only at decoded
            cases answered : adaptResponse parseJson profile'.protocolFamily value with
            | none =>
              rw [answered] at decoded
              cases decoded
            | some adapted =>
              rw [answered] at decoded
              obtain rfl := Except.ok.inj decoded
              exact .inr
                ⟨_, value, ⟨parses, works, direct, by rw [profile]; rfl, checked⟩, answered⟩

theorem decode_of_adapted {family : ModelProviderProtocolFamily} {value : Value}
    {output : ModelOutput} (adapted : Adapted parseJson plugin outputJson family value)
    (answered : adaptResponse parseJson family value = some output) :
    decodeOutputPayload parseJson plugin outputJson = .ok output := by
  obtain ⟨profile, here, rfl⟩ := Option.map_eq_some_iff.mp adapted.profile
  simp only [decodeOutputPayload, OutputReading.decodeOutputPayload, ModelPlugin.reading,
    adapted.parses, OutputReading.decodeValue, adapted.works, adapted.indirect,
    OutputReading.decodeResponse, here, Option.map_some, adaptProviderResponse, adapted.checked,
    answered]

end Decoded

/-- **What is decoded is well formed** exactly when a response that is adapted has no answer, or
good items and a sum of tokens that fits. -/
theorem decoded_wellFormed_iff (parseJson : String → Except String Value) (plugin : ModelPlugin)
    (outputJson : String) :
    WellFormed parseJson plugin outputJson ↔
      ∀ family value, Adapted parseJson plugin outputJson family value →
        NoAnswer family value ∨
          (∀ item ∈ adaptedItems family value, GoodItem parseJson family item) ∧
            SumFits family value := by
  constructor
  · intro wellFormed family value adapted
    cases answered : adaptResponse parseJson family value with
    | none => exact .inl ((adaptResponse_eq_none_iff adapted.checked).mp answered)
    | some output =>
      right
      obtain ⟨calls, sums⟩ := wellFormed output (decode_of_adapted adapted answered)
      obtain ⟨made, usage⟩ := adaptResponse_eq_some adapted.checked answered
      constructor
      · intro item member
        apply wellFormedCall_itemCall_iff.mp
        exact calls _ (made ▸ List.mem_map_of_mem member)
      · intro input out added
        have total := sums family value adapted input out added
        rw [usage, total_of_summands added] at total
        have same := Option.some_inj.mp total
        omega
  · intro good output decoded
    rcases decodeOutputPayload_eq_ok decoded with
      ⟨direct, indirect⟩ | ⟨family, value, adapted, answered⟩
    · exact ⟨direct, fun family value adapted => absurd adapted (indirect family value)⟩
    · rcases good family value adapted with nothing | ⟨items, fits⟩
      · rw [(adaptResponse_eq_none_iff adapted.checked).mpr nothing] at answered
        cases answered
      · obtain ⟨made, usage⟩ := adaptResponse_eq_some adapted.checked answered
        constructor
        · intro call member
          rw [made] at member
          obtain ⟨item, listed, rfl⟩ := List.mem_map.mp member
          exact wellFormedCall_itemCall_iff.mpr (items item listed)
        · intro other again adapted' input out added
          obtain rfl := Except.ok.inj (adapted.parses.symm.trans adapted'.parses)
          obtain rfl := Option.some_inj.mp (adapted.profile.symm.trans adapted'.profile)
          rw [usage, total_of_summands added, Nat.mod_eq_of_lt (fits input out added)]

/-! ### A call without a name -/

def claudePlugin : ModelPlugin where
  pluginId := "acme.model"
  pluginVersion := "1.0.0"
  providerProfile := some {
    id := "acme.messages", providerName := "acme", protocolFamily := .anthropicMessages
    apiKeyEnv := none, baseUrlEnv := "ACME_BASE_URL", defaultBaseUrl := "https://api.acme.com"
    endpointPath := "v1/messages", authHeader := "x-api-key", authScheme := .raw
    staticHeaders := [], defaultAllowHosts := ["api.acme.com"], dynamicBaseUrl := false }

/-- A response with a tool call that has a blank name and an array for its arguments. -/
def namelessCall : Value :=
  .obj [("content", .arr [.obj [("id", .str "call-1"), ("input", .arr []), ("name", .str " "),
    ("type", .str "tool_use")]])]

/-- Such a call is decoded. -/
theorem nameless_call_decoded :
    ¬ ∀ parseJson plugin outputJson, WellFormed parseJson plugin outputJson := by
  intro wellFormed
  have adapted : Adapted (fun _ => .ok namelessCall) claudePlugin "" .anthropicMessages
      namelessCall :=
    ⟨rfl, rfl, rfl, rfl, by rfl⟩
  have items : adaptedItems .anthropicMessages namelessCall =
      [.obj [("id", .str "call-1"), ("input", .arr []), ("name", .str " "),
        ("type", .str "tool_use")]] := by
    decide
  cases answered : adaptResponse (fun _ => .ok namelessCall) .anthropicMessages namelessCall with
  | none =>
    have nothing := ((adaptResponse_eq_none_iff adapted.checked).mp answered).2
    rw [items] at nothing
    cases nothing
  | some output =>
    have calls := (wellFormed _ _ _ output (decode_of_adapted adapted answered)).1
    rw [(adaptResponse_eq_some adapted.checked answered).1, items] at calls
    cases (calls _ List.mem_cons_self).2

end KelvinClaw.Plugin
