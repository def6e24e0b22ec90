import KelvinClaw.Library.Occurrences
import KelvinClaw.Plugin.HostResponses

/-!
# The tool that asks the wiki

A call asks a server for a page, for an answer to a question, or for the list of pages. The server
replies with an object of JSON-RPC, as it is or in a line of an event stream. The plugin does not
parse the reply: it looks for the line, for a member with an error and for the first text.
-/

namespace KelvinClaw.Plugin.WikiTool

open Systems Systems.Arena Systems.Json JsonScanner JsonStrings ToolCall

def heapSize : ℕ := 2 * 1024 * 1024

def respMax : ℕ := 192 * 1024

def answering : Answering := ⟨heapSize, false⟩

/-! ### Arguments -/

/-- What is asked for, with the text of the argument. -/
inductive Mode where
  | readWikiContents (topic : Bytes)
  | askQuestion (question : Bytes)
  | readWikiStructure
  deriving DecidableEq, Repr

def checkInput (input : Bytes) : Except Bytes Unit :=
  if input = [] then .error (ascii "empty input") else .ok ()

def chooseMode (input : Bytes) : Except Bytes Mode :=
  match extractStrField input (ascii "topic"), extractStrField input (ascii "question") with
  | some _, some _ => .error (ascii "provide either 'topic' or 'question', not both")
  | some topic, none => .ok (.readWikiContents topic)
  | none, some question => .ok (.askQuestion question)
  | none, none => .ok .readWikiStructure

def validateArg (arg : Bytes) : Bool :=
  arg ≠ [] && arg.length ≤ 512 && arg.all fun b => !(b < 0x20 || b = 0x7F)

def argBuf : ℕ := 768

def unescapeArg (raw : Bytes) : Except Bytes Bytes := do
  let arg ← build argBuf (unescapeJsonStr raw) "argument too long"
  if validateArg arg then return arg
  else .error (ascii "invalid argument: must be 1-512 printable ASCII characters")

def Mode.arg : Mode → Except Bytes Bytes
  | .readWikiContents topic => unescapeArg topic
  | .askQuestion question => unescapeArg question
  | .readWikiStructure => .ok []

def Mode.tool : Mode → String
  | .readWikiContents _ => "read_wiki_contents"
  | .askQuestion _ => "ask_question"
  | .readWikiStructure => "read_wiki_structure"

/-! ### Requests -/

def repoName : String := "AgenticHighway/kelvinclaw"

def mcpEndpoint : String := "https://mcp.deepwiki.com/mcp"

def writeArg {n : ℕ} (mode : Mode) (arg : Bytes) : Write UInt8 n :=
  match mode with
  | .readWikiContents _ => (writeBytes (ascii ",\"topic\":")).andThen (writeJsonStr arg)
  | .askQuestion _ => (writeBytes (ascii ",\"question\":")).andThen (writeJsonStr arg)
  | .readWikiStructure => Write.done

def mcpBody (mode : Mode) (arg : Bytes) : Except Bytes Bytes :=
  build 2048
    ((writeBytes (ascii
        "\x7b\"jsonrpc\":\"2.0\",\"method\":\"tools/call\",\"params\":\x7b\"name\":\"")).andThen
      ((writeBytes (ascii mode.tool)).andThen
        ((writeBytes (ascii "\",\"arguments\":\x7b\"repoName\":")).andThen
          ((writeJsonStr (ascii repoName)).andThen
            ((writeArg mode arg).andThen (writeBytes (ascii "\x7d\x7d,\"id\":1\x7d")))))))
    "failed to build MCP request body"

def httpRequest (body : Bytes) : Except Bytes Bytes :=
  build 4096
    ((writeBytes (ascii "\x7b\"url\":")).andThen
      ((writeJsonStr (ascii mcpEndpoint)).andThen
        ((writeBytes (ascii (",\"method\":\"POST\",\"headers\":\x7b\"Content-Type\":" ++
          "\"application/json\",\"Accept\":\"application/json, text/event-stream\"\x7d," ++
            "\"body\":"))).andThen
          ((writeJsonStr body).andThen (writeBytes (ascii "\x7d"))))))
    "failed to build HTTP request"

/-! ### Responses -/

def checkResponse (resp : Bytes) : Except Bytes Unit :=
  if resp = [] then .error (ascii "http_call failed") else .ok ()

/-- A status, which is printed as a number of 32 bits. -/
def writeStatus {n : ℕ} (status : ℤ) : Write UInt8 n :=
  (writeBytes (ascii "DeepWiki MCP request failed (HTTP ")).andThen
    ((writeU32 ((max status 0).toNat % 2 ^ 32)).andThen (writeByte 0x29))

def statusMessage (status : ℤ) : Bytes :=
  let written := writeStatus status (@Buffer.empty UInt8 128)
  if written.1 then written.2.written
  else ascii "DeepWiki MCP request failed (non-200 status)"

def checkStatus (resp : Bytes) : Except Bytes Unit :=
  let status := (extractIntField resp (ascii "status")).getD 0
  if status ≠ 200 then .error (statusMessage status) else .ok ()

def responseBody (resp : Bytes) : Except Bytes Bytes :=
  match extractStrField resp (ascii "body") with
  | some body => .ok body
  | none => .error (ascii "missing body in HTTP response")

def marker : Bytes := ascii "data: \x7b"

def isLineEnd (b : UInt8) : Bool := b = 0x0A || b = 0x0D

/-- `unwrap_sse`: from the brace of the first marker to the end of its line. -/
def unwrapSse (data : Bytes) : Bytes :=
  match cutAt marker data with
  | some (_, rest) => openBrace :: rest.takeWhile fun b => !isLineEnd b
  | none => data

def errorMessage (mcpResp : Bytes) : Bytes :=
  unescapeInto 512 ((extractStrField mcpResp (ascii "message")).getD
    (ascii "DeepWiki MCP returned an error"))

def checkError (mcpResp : Bytes) : Except Bytes Unit :=
  if (findFieldValue mcpResp (ascii "error")).isSome then .error (errorMessage mcpResp)
  else .ok ()

def textContent (mcpResp : Bytes) : Except Bytes Bytes :=
  match extractStrField mcpResp (ascii "text") with
  | some text => .ok text
  | none => .error (ascii "no text content in DeepWiki response")

/-! ### Calls -/

def Mode.label : Mode → String
  | .readWikiContents _ => "deepwiki topic: "
  | .askQuestion _ => "deepwiki question: "
  | .readWikiStructure => "deepwiki: structure"

/-- The summary of a result: the argument is cut after sixty bytes. -/
def summaryText (mode : Mode) (arg : Bytes) : Bytes :=
  let labelled := (writeBytes (ascii mode.label) (@Buffer.empty UInt8 300)).2
  match mode with
  | .readWikiContents _ => (writeBytes (arg.take 60) labelled).2.written
  | .askQuestion _ => (writeBytes (arg.take 60) labelled).2.written
  | .readWikiStructure => labelled.written

section Calls

variable (httpCall : Bytes → Bytes) (input : Bytes)

/-- The steps of `handle_tool_call` up to the result. The host gives no bytes for a request that
fails. -/
def steps : Step Bytes (Bytes × Bytes) := do
  lift (checkInput input)
  let mode ← lift (chooseMode input)
  answering.claim argBuf "alloc failed"
  let arg ← lift mode.arg
  answering.claim 2048 "alloc failed"
  let body ← lift (mcpBody mode arg)
  answering.claim 4096 "alloc failed"
  let req ← lift (httpRequest body)
  answering.logStr "kelvin_wiki_fetch: querying DeepWiki MCP"
  answering.claim respMax "alloc failed for response buffer"
  let resp := httpCall req
  lift (checkResponse resp)
  answering.check 128 "DeepWiki MCP request failed" (checkStatus resp)
  let bodyRaw ← lift (responseBody resp)
  answering.claim respMax "alloc failed for MCP response buffer"
  let mcpResp := unwrapSse (unescapeInto respMax bodyRaw)
  answering.check 512 "DeepWiki MCP returned an error" (checkError mcpResp)
  let contentRaw ← lift (textContent mcpResp)
  answering.claim respMax "alloc failed for content buffer"
  let content := unescapeInto respMax contentRaw
  answering.claim 300 "alloc failed"
  return (summaryText mode arg, content)

/-- `handle_tool_call`, with what is free of the arena. -/
def handleToolCall (next : ℕ) : Option Region := answering.respond (steps httpCall input) next

def request : Except Bytes (Mode × Bytes × Bytes) := do
  checkInput input
  let mode ← chooseMode input
  let arg ← mode.arg
  let body ← mcpBody mode arg
  let req ← httpRequest body
  return (mode, arg, req)

def content (resp : Bytes) : Except Bytes Bytes := do
  checkResponse resp
  checkStatus resp
  let bodyRaw ← responseBody resp
  let mcpResp := unwrapSse (unescapeInto respMax bodyRaw)
  checkError mcpResp
  let contentRaw ← textContent mcpResp
  return unescapeInto respMax contentRaw

/-- What is answered if there is room for everything. -/
def answer : Except Bytes (Bytes × Bytes) := do
  let (mode, arg, req) ← request input
  let text ← content (httpCall req)
  return (summaryText mode arg, text)

def stepsCost : ℕ := 600000

theorem yields_steps :
    Yields answering.heapSize (steps httpCall input) stepsCost (answer httpCall input) := by
  have flat : answer httpCall input = (do
      checkInput input
      let mode ← chooseMode input
      let arg ← mode.arg
      let body ← mcpBody mode arg
      let req ← httpRequest body
      checkResponse (httpCall req)
      checkStatus (httpCall req)
      let bodyRaw ← responseBody (httpCall req)
      checkError (unwrapSse (unescapeInto respMax bodyRaw))
      let contentRaw ← textContent (unwrapSse (unescapeInto respMax bodyRaw))
      return (summaryText mode arg, unescapeInto respMax contentRaw)) := by
    simp only [answer, request, content, bind_assoc, pure_bind]
  rw [flat]
  unfold steps
  refine Yields.mono (Yields.bind (yields_lift _) fun _ _ =>
    Yields.bind (yields_lift _) fun mode _ =>
    Yields.after (Answering.yields_claim ?_ _) <|
    Yields.bind (yields_lift _) fun arg _ =>
    Yields.after (Answering.yields_claim ?_ _) <|
    Yields.bind (yields_lift _) fun body _ =>
    Yields.after (Answering.yields_claim ?_ _) <|
    Yields.bind (yields_lift _) fun req _ =>
    Yields.after (Answering.yields_logStr ?_) <|
    Yields.after (Answering.yields_claim ?_ _) <|
    Yields.bind (yields_lift _) fun _ _ =>
    Yields.bind (Answering.yields_check ?_ _ _) fun _ _ =>
    Yields.bind (yields_lift _) fun bodyRaw _ =>
    Yields.after (Answering.yields_claim ?_ _) <|
    Yields.bind (Answering.yields_check ?_ _ _) fun _ _ =>
    Yields.bind (yields_lift _) fun contentRaw _ =>
    Yields.after (Answering.yields_claim ?_ _) <|
    Yields.after (Answering.yields_claim ?_ _) (yields_pure _)) ?_ <;>
    decide

end Calls

/-! ### Room for everything -/

section Room

variable {httpCall : Bytes → Bytes} {input resp : Bytes}

theorem explains_unescapeArg (raw : Bytes) : Explains (unescapeArg raw) := by
  refine Explains.bind (explains_build (by decide)) fun arg _ => ?_
  split_ifs
  · exact explains_ok arg
  · exact explains_error (by decide)

theorem explains_request : Explains (request input) := by
  refine Explains.bind ?_ fun _ _ => Explains.bind ?_ fun mode _ =>
    Explains.bind ?_ fun arg _ =>
    Explains.bind (explains_build (by decide)) fun body _ =>
    Explains.bind (explains_build (by decide)) fun req _ => explains_ok _
  · unfold checkInput
    split_ifs
    · exact explains_error (by decide)
    · exact explains_ok _
  · unfold chooseMode
    split
    · exact explains_error (by decide)
    iterate 3 exact explains_ok _
  · cases mode with
    | readWikiContents topic => exact explains_unescapeArg topic
    | askQuestion question => exact explains_unescapeArg question
    | readWikiStructure => exact explains_ok _

theorem explains_checkResponse (resp : Bytes) : Explains (checkResponse resp) := by
  unfold checkResponse
  split_ifs
  · exact explains_error (by decide)
  · exact explains_ok _

theorem explains_responseBody (resp : Bytes) : Explains (responseBody resp) := by
  unfold responseBody
  split
  · exact explains_ok _
  · exact explains_error (by decide)

theorem explains_textContent (mcpResp : Bytes) : Explains (textContent mcpResp) := by
  unfold textContent
  split
  · exact explains_ok _
  · exact explains_error (by decide)

theorem writes_status {n : ℕ} (status : ℤ) : Writes (writeStatus status : Write UInt8 n)
    (ascii "DeepWiki MCP request failed (HTTP " ++
      (digitsText (decimal ((max status 0).toNat % 2 ^ 32)) ++ [0x29])) :=
  (writes_word _).andThen ((writes_word _).andThen (fills_byte 0x29).toWrites)

theorem statusMessage_eq (status : ℤ) :
    statusMessage status = ascii "DeepWiki MCP request failed (HTTP " ++
        (digitsText (decimal ((max status 0).toNat % 2 ^ 32)) ++ [0x29]) ∨
      statusMessage status = ascii "DeepWiki MCP request failed (non-200 status)" := by
  rw [statusMessage]
  by_cases built : (writeStatus status (@Buffer.empty UInt8 128)).1 = true
  · have room := ((writes_status status).ok_iff (@Buffer.empty UInt8 128)).mp built
    rw [if_pos built, (writes_status status).of_room _ room]
    exact .inl rfl
  · exact .inr (if_neg built)

theorem isMessage_statusMessage (status : ℤ) : IsMessage (statusMessage status) := by
  have short : (statusMessage status).length ≤ 512 := by
    rw [statusMessage]
    by_cases built : (writeStatus status (@Buffer.empty UInt8 128)).1 = true
    · rw [if_pos built]
      exact (Buffer.within _).trans (by decide)
    · rw [if_neg built]
      decide
  rcases statusMessage_eq status with same | same
  · refine ⟨?_, ?_, short⟩
    · rw [same]
      exact isVerbatim_append (by decide)
        (isVerbatim_append (isVerbatim_digitsText _) (show IsVerbatim [0x29] by decide))
    · rw [same, List.all_append, List.all_append, all_isTextByte_digitsText]
      decide
  · rw [same]
    decide

theorem subset_unwrapSse (data : Bytes) : unwrapSse data ⊆ openBrace :: data := by
  unfold unwrapSse
  split
  · rename_i front rest cut
    refine List.cons_subset_cons _ fun b member => ?_
    have whole := append_of_cutAt cut
    have inRest : b ∈ rest := (List.takeWhile_prefix _).subset member
    exact whole ▸ List.mem_append_right _ (List.mem_append_right _ inRest)
  · exact List.subset_cons_self _ _

theorem noLost_unwrapSse {data : Bytes} (noLost : NoLost data) : NoLost (unwrapSse data) :=
  NoLost.of_subset (List.forall_mem_cons.mpr ⟨by decide, noLost⟩) (subset_unwrapSse data)

theorem noLost_of_responseBody {bodyRaw : Bytes} (noLost : NoLost resp)
    (found : responseBody resp = .ok bodyRaw) : NoLost bodyRaw := by
  unfold responseBody at found
  split at found
  · rename_i body read
    exact Except.ok.inj found ▸ noLost.extractStrField read
  · cases found

theorem noLost_errorMessage {mcpResp : Bytes} (noLost : NoLost mcpResp) :
    NoLost (errorMessage mcpResp) := by
  refine NoLost.unescapeInto ?_ 512
  cases message : extractStrField mcpResp (ascii "message") with
  | some raw => exact noLost.extractStrField message
  | none =>
    have default : IsMessage (ascii "DeepWiki MCP returned an error") := by decide
    exact noLost_of_isText default.isText

theorem fine_content (noLost : NoLost resp) : answering.Fine (content resp) := by
  refine Answering.Fine.bind (Answering.fine_of_explains (explains_checkResponse resp)) fun _ _ =>
    Answering.Fine.bind ?_ fun _ _ =>
    Answering.Fine.bind (Answering.fine_of_explains (explains_responseBody resp))
      fun bodyRaw found =>
    Answering.Fine.bind ?_ fun _ _ =>
    Answering.Fine.bind (Answering.fine_of_explains (explains_textContent _)) fun _ _ =>
    Answering.fine_ok _
  · unfold checkStatus
    simp only
    split_ifs
    · exact Answering.fine_of_explains (explains_error (isMessage_statusMessage _))
    · exact Answering.fine_ok _
  · unfold checkError
    split_ifs
    · rintro _ ⟨⟩
      have payload := noLost_unwrapSse
        ((noLost_of_responseBody noLost found).unescapeInto respMax)
      exact ⟨Answering.fits_of_noLost rfl (noLost_errorMessage payload),
        length_unescapeInto_le 512 _⟩
    · exact Answering.fine_ok _

theorem of_request {mode : Mode} {arg req : Bytes} (sent : request input = .ok (mode, arg, req)) :
    mode.arg = .ok arg := by
  obtain ⟨_, -, sent⟩ := bind_eq_ok.mp sent
  obtain ⟨mode', -, sent⟩ := bind_eq_ok.mp sent
  obtain ⟨arg', found, sent⟩ := bind_eq_ok.mp sent
  obtain ⟨_, -, sent⟩ := bind_eq_ok.mp sent
  obtain ⟨_, -, sent⟩ := bind_eq_ok.mp sent
  obtain ⟨rfl, rfl, -⟩ := Except.ok.inj sent
  exact found

theorem noLost_arg {mode : Mode} {arg : Bytes} (found : mode.arg = .ok arg) : NoLost arg := by
  have printable : ∀ raw, unescapeArg raw = .ok arg → NoLost arg := by
    intro raw unescaped
    obtain ⟨arg', -, checked⟩ := bind_eq_ok.mp unescaped
    split_ifs at checked with valid
    obtain rfl := Except.ok.inj checked
    rw [validateArg, Bool.and_eq_true] at valid
    rintro b member ⟨low, -⟩
    have high := List.all_eq_true.mp valid.2 b member
    rw [decide_eq_true low] at high
    exact Bool.false_ne_true high
  cases mode with
  | readWikiContents topic => exact printable topic found
  | askQuestion question => exact printable question found
  | readWikiStructure =>
    obtain rfl := Except.ok.inj found
    exact List.forall_mem_nil _

theorem label_fine (mode : Mode) : (ascii mode.label).length ≤ 20 ∧ NoLost (ascii mode.label) ∧
    ascii mode.label = encode mode.label.toList := by
  have all : ∀ label ∈ ["deepwiki topic: ", "deepwiki question: ", "deepwiki: structure"],
      (ascii label).length ≤ 20 ∧ (ascii label).all (fun b => !decide (IsLost b)) = true ∧
        ascii label = encode label.toList := by
    decide
  have isLabel : mode.label ∈
      ["deepwiki topic: ", "deepwiki question: ", "deepwiki: structure"] := by
    cases mode <;> simp [Mode.label]
  obtain ⟨short, fine, spelled⟩ := all mode.label isLabel
  exact ⟨short, fun b member => by simpa using List.all_eq_true.mp fine b member, spelled⟩

theorem summaryText_eq {mode : Mode} {arg : Bytes} (found : mode.arg = .ok arg) :
    summaryText mode arg = ascii mode.label ++ arg.take 60 := by
  have label := (label_fine mode).1
  have room : (@Buffer.empty UInt8 300).HasRoom (ascii mode.label) :=
    (Nat.zero_add _).trans_le (label.trans (by decide))
  have labelled := (writes_word (ascii mode.label)).of_room _ room
  have roomArg : ((@Buffer.empty UInt8 300).append (ascii mode.label) room).HasRoom
      (arg.take 60) :=
    (Nat.add_le_add label (List.length_take_le 60 arg)).trans (by decide)
  have shown := (writes_word (arg.take 60)).of_room _ roomArg
  have text : (((@Buffer.empty UInt8 300).append (ascii mode.label) room).append (arg.take 60)
      roomArg).written = ascii mode.label ++ arg.take 60 := rfl
  rw [summaryText.eq_def, writeBytes, labelled]
  cases mode with
  | readWikiContents topic => exact (congrArg (fun result => result.2.written) shown).trans text
  | askQuestion question => exact (congrArg (fun result => result.2.written) shown).trans text
  | readWikiStructure =>
    obtain rfl := Except.ok.inj found
    exact (List.append_nil _).symm

theorem isUtf8_summaryText_iff {mode : Mode} {arg : Bytes} (found : mode.arg = .ok arg) :
    IsUtf8 (summaryText mode arg) ↔ IsUtf8 (arg.take 60) := by
  rw [summaryText_eq found, (label_fine mode).2.2]
  exact isUtf8_encode_append

theorem noLost_summaryText {mode : Mode} {arg : Bytes} (found : mode.arg = .ok arg) :
    NoLost (summaryText mode arg) := by
  rw [summaryText_eq found]
  exact List.forall_mem_append.mpr ⟨(label_fine mode).2.1, fun b member =>
    noLost_arg found b (List.take_subset 60 arg member)⟩

theorem length_summaryText_le (mode : Mode) (arg : Bytes) :
    (summaryText mode arg).length ≤ 300 := by
  cases mode <;> exact Buffer.within _

/-- What is found in a response fits into a buffer, and has no control bytes if it has none. -/
theorem of_content {text : Bytes} (found : content resp = .ok text) :
    text.length ≤ respMax ∧ (NoLost resp → NoLost text) := by
  obtain ⟨_, -, found⟩ := bind_eq_ok.mp found
  obtain ⟨_, -, found⟩ := bind_eq_ok.mp found
  obtain ⟨bodyRaw, body, found⟩ := bind_eq_ok.mp found
  obtain ⟨_, -, found⟩ := bind_eq_ok.mp found
  obtain ⟨contentRaw, read, found⟩ := bind_eq_ok.mp found
  obtain rfl := Except.ok.inj found
  refine ⟨length_unescapeInto_le _ _, fun noLost => ?_⟩
  unfold textContent at read
  split at read
  · rename_i raw inPayload
    obtain rfl := Except.ok.inj read
    have payload := noLost_unwrapSse ((noLost_of_responseBody noLost body).unescapeInto respMax)
    exact (payload.extractStrField inPayload).unescapeInto respMax
  · cases read

theorem fine_answer (noLost : ∀ sent, request input = .ok sent → NoLost (httpCall sent.2.2)) :
    answering.Fine (answer httpCall input) :=
  (Answering.fine_of_explains explains_request).bind fun sent found =>
    (fine_content (noLost sent found)).bind fun _ _ => Answering.fine_ok _

def maxRequestBytes : ℕ := 256 * 1024

/-- **There is room for everything.** The plugin answers what it would answer with an arena without
an end. -/
theorem handleToolCall_eq
    (noLost : ∀ sent, request input = .ok sent → NoLost (httpCall sent.2.2))
    (small : input.length ≤ maxRequestBytes) : ∃ start, input.length ≤ start ∧
      start + (answering.answerText (answer httpCall input)).length ≤ heapSize ∧
      handleToolCall httpCall input input.length =
        some ⟨start, answering.answerText (answer httpCall input)⟩ := by
  have fine := @fine_answer httpCall input noLost
  refine @Answering.respond_of_yields answering input.length (steps httpCall input) stepsCost
    400000 (answer httpCall input) (yields_steps httpCall input) (fun msg isError => ?_)
    (fun summary output found => ?_) ?_
  · obtain ⟨fits, short⟩ := fine msg isError
    exact ⟨fits, by rw [align]; omega⟩
  · obtain ⟨⟨mode, arg, req⟩, -, found⟩ := bind_eq_ok.mp found
    obtain ⟨text, inResponse, found⟩ := bind_eq_ok.mp found
    obtain ⟨rfl, rfl⟩ := Prod.mk.inj (Except.ok.inj found)
    have summary := length_summaryText_le mode arg
    have output := (of_content inResponse).1
    have size : answering.resultSize (summaryText mode arg) text =
        64 + (summaryText mode arg).length * 2 + text.length * 2 := rfl
    have max : respMax = 196608 := rfl
    rw [Answering.finishCost, size, align]
    omega
  · have size : answering.heapSize = 2097152 := rfl
    have max : maxRequestBytes = 262144 := rfl
    rw [size, stepsCost]
    omega

end Room

end KelvinClaw.Plugin.WikiTool
