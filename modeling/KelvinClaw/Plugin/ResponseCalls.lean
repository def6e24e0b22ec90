import Mathlib.Data.List.Forall2
import KelvinClaw.Plugin.ProviderResponse

/-!
# Tool calls of a response

Each protocol has its own items for tool calls and its own places for text. A response is adapted
well when the model output has one call for each of the items, in their order, with the id, the
name and the arguments of the item, and the text. What an item lacks is empty in its call. What it
has in another form than the call can take is lost.
-/

namespace KelvinClaw.Plugin

open KelvinClaw.Core

/-! ### What is in a response -/

def firstMessage (value : Value) : Option Value :=
  (arrayAt "choices" value).bind fun choices => choices.head?.bind (Value.get "message")

def callItems : ModelProviderProtocolFamily → Value → List Value
  | .openAiResponses, value =>
    ((arrayAt "output" value).getD []).filter fun item => strAt "type" item = some "function_call"
  | .anthropicMessages, value =>
    ((arrayAt "content" value).getD []).filter fun block => strAt "type" block = some "tool_use"
  | .openAiChatCompletions, value =>
    ((firstMessage value).bind (arrayAt "tool_calls")).getD []

def messageTexts (output : List Value) : List String :=
  output.flatMap fun item =>
    if strAt "type" item = some "message" then
      blockTexts "output_text" ((arrayAt "content" item).getD [])
    else []

def outputText (value : Value) : String :=
  joinLines (messageTexts ((arrayAt "output" value).getD []))

/-- The text of a response; of the two places of one protocol, the first that is not empty. -/
def responseText : ModelProviderProtocolFamily → Value → String
  | .openAiResponses, value =>
    match strAt "output_text" value with
    | some text => if text = "" then outputText value else text
    | none => outputText value
  | .anthropicMessages, value =>
    joinLines (blockTexts "text" ((arrayAt "content" value).getD []))
  | .openAiChatCompletions, value => ((firstMessage value).bind messageText).getD ""

def callId : ModelProviderProtocolFamily → Value → Option Value
  | .openAiResponses, item => item.get "call_id"
  | .anthropicMessages, block => block.get "id"
  | .openAiChatCompletions, call => call.get "id"

def callName : ModelProviderProtocolFamily → Value → Option Value
  | .openAiResponses, item => item.get "name"
  | .anthropicMessages, block => block.get "name"
  | .openAiChatCompletions, call => (call.get "function").bind (Value.get "name")

def callArguments : ModelProviderProtocolFamily → Value → Option Value
  | .openAiResponses, item => item.get "arguments"
  | .anthropicMessages, block => block.get "input"
  | .openAiChatCompletions, call => (call.get "function").bind (Value.get "arguments")

section Calls

variable (parseJson : String → Except String Value)

/-- A text is a member of an item, and empty if the item has no such member. -/
def IsText (member : Option Value) (text : String) : Prop :=
  match member with
  | none => text = ""
  | some value => value = .str text

/-- Arguments that are given as a value, or as a text of JSON. Without any they are empty. -/
def IsArguments (family : ModelProviderProtocolFamily) (member : Option Value)
    (arguments : Value) : Prop :=
  match family, member with
  | _, none => arguments = .obj []
  | .openAiResponses, some (.str text) | .openAiChatCompletions, some (.str text) =>
    parseJson text = .ok arguments
  | _, some value => value = arguments

structure IsCallOf (family : ModelProviderProtocolFamily) (item : Value) (call : Brain.ToolCall) :
    Prop where
  id : IsText (callId family item) call.id
  name : IsText (callName family item) call.name
  arguments : IsArguments parseJson family (callArguments family item) call.arguments

/-- The model output has one call for each item, in their order, and the text of the response. A
response without an output has neither. -/
def Delivers (family : ModelProviderProtocolFamily) (value : Value) : Prop :=
  match adaptResponse parseJson family value with
  | some output =>
    List.Forall₂ (IsCallOf parseJson family) (callItems family value) output.toolCalls ∧
      output.assistantText = responseText family value
  | none => callItems family value = [] ∧ responseText family value = ""

/-- A tool call can take what an item has: an id and a name that are texts, and, of the protocols
whose arguments are texts, arguments that can be parsed. -/
structure FitsCall (family : ModelProviderProtocolFamily) (item : Value) : Prop where
  id : ∀ value, callId family item = some value → value.asStr.isSome
  name : ∀ value, callName family item = some value → value.asStr.isSome
  arguments : ∀ value, family ≠ .anthropicMessages → callArguments family item = some value →
    (∃ text arguments, value = .str text ∧ parseJson text = .ok arguments) ∨ value = .obj []

/-- The items for tool calls fit their calls. Besides, a response of the first protocol that has
text at the top has no tool calls, and no other text if the one at the top is empty; and the
message of the last protocol has text for its content, or an array of parts, or none, or else no
tool calls. -/
def Deliverable (family : ModelProviderProtocolFamily) (value : Value) : Prop :=
  (match family with
  | .openAiResponses =>
    ∀ text, strAt "output_text" value = some text →
      callItems .openAiResponses value = [] ∧ (text = "" → outputText value = "")
  | .anthropicMessages => True
  | .openAiChatCompletions =>
    ((firstMessage value).bind messageText).isSome ∨ callItems .openAiChatCompletions value = []) ∧
  ∀ item ∈ callItems family value, FitsCall parseJson family item

end Calls

/-! ### The calls of the items -/

section Items

variable {parseJson : String → Except String Value} {value : Value}

theorem isText_getD {member : Option Value} :
    IsText member ((member.bind Value.asStr).getD "") ↔
      ∀ value, member = some value → value.asStr.isSome := by
  cases member with
  | none => exact iff_of_true rfl fun value found => by cases found
  | some value =>
    simp only [IsText, Option.bind_some, Option.some.injEq, forall_eq']
    cases value <;> simp [Value.asStr]

def embedded (parseJson : String → Except String Value) (member : Option Value) : Value :=
  match member.bind Value.asStr with
  | none => .obj []
  | some text =>
    match parseJson text with
    | .ok arguments => arguments
    | .error _ => .obj []

theorem isArguments_embedded {family : ModelProviderProtocolFamily}
    (texts : family ≠ .anthropicMessages) {member : Option Value} :
    IsArguments parseJson family member (embedded parseJson member) ↔
      ∀ value, member = some value →
        (∃ text arguments, value = .str text ∧ parseJson text = .ok arguments) ∨
          value = .obj [] := by
  have given : ∀ value : Value, IsArguments parseJson family (some value)
      (embedded parseJson (some value)) ↔
        (∃ text arguments, value = .str text ∧ parseJson text = .ok arguments) ∨
          value = .obj [] := by
    intro value
    cases value with
    | str text =>
      have parses : IsArguments parseJson family (some (.str text))
          (embedded parseJson (some (.str text))) ↔
            parseJson text = .ok (embedded parseJson (some (.str text))) := by
        cases family with
        | anthropicMessages => exact absurd rfl texts
        | openAiResponses => exact Iff.rfl
        | openAiChatCompletions => exact Iff.rfl
      rw [parses]
      cases read : parseJson text with
      | error err => simp [read]
      | ok arguments => simp [embedded, Value.asStr, read]
    | _ => cases family <;> simp [IsArguments, embedded, Value.asStr]
  cases member with
  | none =>
    refine iff_of_true ?_ fun value found => by cases found
    cases family <;> rfl
  | some value => simp only [given, Option.some.injEq, forall_eq']

theorem isCallOf_openaiCall (item : Value) :
    IsCallOf parseJson .openAiResponses item (openaiCall parseJson item) ↔
      FitsCall parseJson .openAiResponses item := by
  have arguments := @isArguments_embedded parseJson .openAiResponses (by decide)
    (item.get "arguments")
  exact ⟨fun is => ⟨isText_getD.mp is.id, isText_getD.mp is.name,
      fun value _ => arguments.mp is.arguments value⟩,
    fun readable => ⟨isText_getD.mpr readable.id, isText_getD.mpr readable.name,
      arguments.mpr fun value => readable.arguments value (by decide)⟩⟩

theorem isCallOf_anthropicCall (block : Value) :
    IsCallOf parseJson .anthropicMessages block (anthropicCall block) ↔
      FitsCall parseJson .anthropicMessages block := by
  have arguments : IsArguments parseJson .anthropicMessages (block.get "input")
      (anthropicCall block).arguments := by
    rw [anthropicCall]
    cases block.get "input" with
    | none => rfl
    | some input => cases input <;> rfl
  exact ⟨fun is => ⟨isText_getD.mp is.id, isText_getD.mp is.name, fun _ other => absurd rfl other⟩,
    fun readable => ⟨isText_getD.mpr readable.id, isText_getD.mpr readable.name, arguments⟩⟩

theorem isCallOf_openrouterCall (call : Value) :
    IsCallOf parseJson .openAiChatCompletions call (openrouterCall parseJson call) ↔
      FitsCall parseJson .openAiChatCompletions call := by
  have named : ((call.get "function").bind (strAt "name")).getD "" =
      (((call.get "function").bind (Value.get "name")).bind Value.asStr).getD "" := by
    cases call.get "function" <;> rfl
  have given : ((call.get "function").map (embeddedArguments parseJson)).getD (.obj []) =
      embedded parseJson ((call.get "function").bind (Value.get "arguments")) := by
    cases call.get "function" <;> rfl
  have made : openrouterCall parseJson call =
      ⟨(strAt "id" call).getD "",
        (((call.get "function").bind (Value.get "name")).bind Value.asStr).getD "",
        embedded parseJson ((call.get "function").bind (Value.get "arguments"))⟩ := by
    rw [← named, ← given]
    rfl
  have arguments := @isArguments_embedded parseJson .openAiChatCompletions (by decide)
    ((call.get "function").bind (Value.get "arguments"))
  rw [made]
  exact ⟨fun is => ⟨isText_getD.mp is.id, isText_getD.mp is.name,
      fun value _ => arguments.mp is.arguments value⟩,
    fun readable => ⟨isText_getD.mpr readable.id, isText_getD.mpr readable.name,
      arguments.mpr fun value => readable.arguments value (by decide)⟩⟩

theorem forall₂_map {α β : Type} {relation : α → β → Prop} {make : α → β} {readable : α → Prop}
    (related : ∀ a, relation a (make a) ↔ readable a) (items : List α) :
    List.Forall₂ relation items (items.map make) ↔ ∀ a ∈ items, readable a := by
  rw [List.forall₂_map_right_iff, List.forall₂_same]
  exact forall₂_congr fun a _ => related a

end Items

/-! ### The first protocol -/

theorem checks_of_checkItems {check : ℕ → Value → Check} {idx : ℕ} {items : List Value}
    (passed : checkItems check idx items = .ok ()) :
    ∀ item ∈ items, ∃ position, check position item = .ok () := by
  induction items generalizing idx with
  | nil => exact fun item member => by cases member
  | cons item rest ih =>
    obtain ⟨here, later⟩ := bind_unit_eq_ok.mp passed
    exact List.forall_mem_cons.mpr ⟨⟨idx, here⟩, ih later⟩

theorem content_of_checked {idx : ℕ} {item : Value} (passed : checkOpenaiItem idx item = .ok ())
    (message : strAt "type" item = some "message") :
    ∃ content blocks, item.get "content" = some content ∧ content.asArray = some blocks := by
  obtain ⟨_, passed⟩ := bind_unit_eq_ok.mp passed
  rw [message] at passed
  simp only at passed
  cases found : item.get "content" with
  | none =>
    rw [found] at passed
    cases passed
  | some content =>
    rw [found] at passed
    obtain ⟨blocks, array⟩ := Option.isSome_iff_exists.mp (require_eq_ok.mp passed)
    exact ⟨content, blocks, rfl, array⟩

variable {parseJson : String → Except String Value} {value : Value}

theorem walkOutput_of_checked {items : List Value} {parts : List String}
    {calls : List Brain.ToolCall}
    (checked : ∀ item ∈ items, ∃ position, checkOpenaiItem position item = .ok ()) :
    walkOutput parseJson items parts calls =
      (some (parts ++ messageTexts items),
        calls ++ (items.filter fun item => strAt "type" item = some "function_call").map
          (openaiCall parseJson)) := by
  induction items generalizing parts calls with
  | nil => simp [walkOutput, messageTexts]
  | cons item rest ih =>
    rw [List.forall_mem_cons] at checked
    obtain ⟨⟨position, here⟩, later⟩ := checked
    rw [walkOutput]
    by_cases call : strAt "type" item = some "function_call"
    · have texts : messageTexts (item :: rest) = messageTexts rest := by
        simp [messageTexts, call]
      rw [if_pos call, ih later, texts, List.filter_cons_of_pos (by simpa using call),
        List.map_cons, List.append_assoc, List.singleton_append]
    · rw [if_neg call, List.filter_cons_of_neg (by simpa using call)]
      by_cases message : strAt "type" item = some "message"
      · obtain ⟨content, blocks, found, array⟩ := content_of_checked here message
        have texts : messageTexts (item :: rest) =
            blockTexts "output_text" blocks ++ messageTexts rest := by
          simp [messageTexts, message, arrayAt, found, array]
        rw [if_neg (not_not.mpr message), found]
        simp only [array]
        rw [ih later, texts, List.append_assoc]
      · have texts : messageTexts (item :: rest) = messageTexts rest := by
          simp [messageTexts, message]
        rw [if_pos message, ih later, texts]

theorem outputText_of_nil {items : List Value} (output : arrayAt "output" value = some items)
    (nothing : messageTexts items = []) : outputText value = "" := by
  rw [outputText, output, Option.getD_some, nothing]
  rfl

theorem openaiTextAndCalls_of_none (checked : validateOpenaiResponseSchema value = .ok ())
    (absent : strAt "output_text" value = none) :
    ((openaiTextAndCalls parseJson value).1.getD "", (openaiTextAndCalls parseJson value).2) =
      (outputText value,
        (callItems .openAiResponses value).map (openaiCall parseJson)) := by
  obtain ⟨_, checked⟩ := bind_unit_eq_ok.mp checked
  obtain ⟨some, checked⟩ := bind_unit_eq_ok.mp checked
  have output := (require_eq_ok.mp some).resolve_left (by simp [absent])
  obtain ⟨items, found⟩ := Option.isSome_iff_exists.mp output
  rw [found] at checked
  rw [Option.getD_some] at checked
  have walked := @walkOutput_of_checked parseJson items [] [] (checks_of_checkItems checked)
  rw [List.nil_append, List.nil_append] at walked
  rw [openaiTextAndCalls, absent, found]
  simp only [walked, callItems, found, Option.getD_some]
  cases texts : messageTexts items with
  | nil => rw [outputText_of_nil found texts, Option.getD_none]
  | cons text rest => simp only [outputText, found, Option.getD_some, texts]

theorem delivers_openai_iff (checked : validateOpenaiResponseSchema value = .ok ()) :
    Delivers parseJson .openAiResponses value ↔ Deliverable parseJson .openAiResponses value := by
  rw [Delivers, adaptResponse, adaptOpenaiResponse, Deliverable]
  cases top : strAt "output_text" value with
  | none =>
    have found := @openaiTextAndCalls_of_none parseJson value checked top
    obtain ⟨text, calls⟩ := Prod.ext_iff.mp found
    simp only at text calls
    rw [and_iff_right fun text same => by cases same]
    simp only [text, calls, responseText, top]
    split
    · next output answered =>
      split_ifs at answered
      obtain rfl := Option.some_inj.mp answered
      rw [and_iff_left rfl]
      exact forall₂_map isCallOf_openaiCall _
    · next answered =>
      split_ifs at answered with empty
      have none : callItems .openAiResponses value = [] := List.map_eq_nil_iff.mp empty.2
      simp [none, empty.1]
  | some text =>
    have found : openaiTextAndCalls parseJson value = (some text, []) := by
      rw [openaiTextAndCalls, top]
    have readable : callItems .openAiResponses value = [] →
        ∀ item ∈ callItems .openAiResponses value, FitsCall parseJson .openAiResponses item := by
      intro none
      simp [none]
    simp only [found, Option.getD_some, responseText, top, Option.some.injEq, forall_eq', and_true]
    rw [and_iff_left_of_imp fun holds => readable holds.1]
    by_cases empty : text = ""
    · simp [empty]
    · simp [empty]

/-! ### The other protocols -/

theorem content_of_anthropic (checked : validateAnthropicResponseSchema value = .ok ()) :
    ∃ blocks, arrayAt "content" value = some blocks := by
  obtain ⟨_, checked⟩ := bind_unit_eq_ok.mp checked
  cases found : value.get "content" with
  | none =>
    rw [found] at checked
    cases checked
  | some content =>
    rw [found] at checked
    simp only at checked
    cases array : content.asArray with
    | none =>
      rw [array] at checked
      cases checked
    | some blocks => exact ⟨blocks, by rw [arrayAt, found, Option.bind_some, array]⟩

theorem delivers_anthropic_iff (checked : validateAnthropicResponseSchema value = .ok ()) :
    Delivers parseJson .anthropicMessages value ↔
      Deliverable parseJson .anthropicMessages value := by
  obtain ⟨blocks, found⟩ := content_of_anthropic checked
  rw [Delivers, adaptResponse, adaptAnthropicResponse, Deliverable, and_iff_right trivial]
  simp only [found, Option.bind_eq_bind, Option.bind_some, callItems, responseText,
    Option.getD_some]
  split
  · next output answered =>
    split_ifs at answered
    obtain rfl := Option.some_inj.mp answered
    rw [and_iff_left rfl]
    exact forall₂_map isCallOf_anthropicCall _
  · next answered =>
    split_ifs at answered with nothing
    rw [List.map_eq_nil_iff.mp nothing.2, nothing.1]
    exact iff_of_true ⟨rfl, rfl⟩ fun item member => by cases member

theorem firstMessage_of_checked (checked : validateOpenaiChatCompletionsSchema value = .ok ()) :
    ∃ firstChoice rest message, arrayAt "choices" value = some (firstChoice :: rest) ∧
      firstChoice.get "message" = some message := by
  obtain ⟨_, checked⟩ := bind_unit_eq_ok.mp checked
  cases found : value.get "choices" with
  | none =>
    rw [found] at checked
    cases checked
  | some choices =>
    rw [found] at checked
    simp only at checked
    cases array : choices.asArray with
    | none =>
      rw [array] at checked
      cases checked
    | some items =>
      rw [array] at checked
      cases items with
      | nil => cases checked
      | cons firstChoice rest =>
        obtain ⟨_, checked⟩ := bind_unit_eq_ok.mp checked
        cases here : firstChoice.get "message" with
        | none =>
          rw [here] at checked
          cases checked
        | some message =>
          exact ⟨firstChoice, rest, message, by rw [arrayAt, found, Option.bind_some, array], here⟩

theorem delivers_chat_iff (checked : validateOpenaiChatCompletionsSchema value = .ok ()) :
    Delivers parseJson .openAiChatCompletions value ↔
      Deliverable parseJson .openAiChatCompletions value := by
  obtain ⟨firstChoice, rest, message, found, here⟩ := firstMessage_of_checked checked
  have first : firstMessage value = some message := by
    rw [firstMessage, found, Option.bind_some, List.head?_cons, Option.bind_some, here]
  rw [Delivers, adaptResponse, adaptOpenrouterResponse, Deliverable]
  simp only [found, List.head?_cons, here, Option.bind_eq_bind, Option.bind_some, callItems, first,
    responseText]
  cases text : messageText message with
  | none =>
    simp only [Option.bind_none, Option.getD_none, and_true, Option.isSome_none, Bool.false_eq_true,
      false_or]
    refine (and_iff_left_of_imp fun none => ?_).symm
    simp [none]
  | some content =>
    simp only [Option.bind_some, Option.getD_some, Option.isSome_some, true_or, true_and]
    split
    · next output answered =>
      split_ifs at answered
      obtain rfl := Option.some_inj.mp answered
      rw [and_iff_left rfl]
      exact forall₂_map isCallOf_openrouterCall _
    · next answered =>
      split_ifs at answered with nothing
      rw [List.map_eq_nil_iff.mp nothing.2, nothing.1]
      exact iff_of_true ⟨rfl, rfl⟩ fun item member => by cases member

/-- **Exactly the deliverable responses are adapted well.** -/
theorem delivers_iff (parseJson : String → Except String Value)
    (family : ModelProviderProtocolFamily) (value : Value)
    (checked : validateResponseSchema family value = .ok ()) :
    Delivers parseJson family value ↔ Deliverable parseJson family value := by
  cases family with
  | openAiResponses => exact delivers_openai_iff checked
  | anthropicMessages => exact delivers_anthropic_iff checked
  | openAiChatCompletions => exact delivers_chat_iff checked

/-! ### Text and a call -/

def textAndCall : Value :=
  .obj [("output", .arr [.obj [("arguments", .str "{}"), ("call_id", .str "call-1"),
    ("name", .str "schedule_cron"), ("type", .str "function_call")]]),
    ("output_text", .str "Scheduling.")]

/-- The call of such a response is lost. -/
theorem text_hides_call : ¬ ∀ parseJson family value,
    validateResponseSchema family value = .ok () → Delivers parseJson family value := by
  intro delivers
  have complete := (@delivers_openai_iff (fun _ => .ok (.obj [])) textAndCall (by rfl)).mp
    (delivers _ .openAiResponses _ (by rfl))
  exact absurd (complete.1 "Scheduling." (by rfl)).1 (by decide)

def callAlone : Value :=
  .obj [("output", .arr [.obj [("arguments", .str "{}"), ("call_id", .str "call-1"),
    ("name", .str "schedule_cron"), ("type", .str "function_call")]])]

theorem call_alone_delivered : Delivers (fun _ => .ok (.obj [])) .openAiResponses callAlone := by
  apply (delivers_iff _ _ _ (by rfl)).mpr
  constructor
  · intro text found
    have absent : strAt "output_text" callAlone = none := rfl
    rw [absent] at found
    cases found
  · intro item member
    obtain rfl := List.mem_singleton.mp member
    refine ⟨fun value given => ?_, fun value given => ?_, fun value _ given => ?_⟩
    · obtain rfl := Option.some_inj.mp given
      rfl
    · obtain rfl := Option.some_inj.mp given
      rfl
    · obtain rfl := Option.some_inj.mp given
      exact .inl ⟨"{}", .obj [], rfl, rfl⟩

end KelvinClaw.Plugin
