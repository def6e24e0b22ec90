import KelvinClaw.Plugin.WikiTool

/-!
# Replies of the wiki

A reply is an object of JSON-RPC, alone or behind the word `data` in a line of an event stream. It
has an error, or a result whose first item of content may be a text.

The plugin looks for three words in the bytes of the reply: for the line of an event, for a key with
an error, and for a key with a text. Each may stand in other places as well, such as in the text
that was asked for.
-/

namespace KelvinClaw.Plugin.WikiTool

open Systems Systems.Arena Systems.Json JsonScanner JsonStrings ToolCall

/-! ### Replies -/

def get (name : String) : JsonValue → Option JsonValue
  | .object _ members => (members.find? fun m => charsOf m.key = name.toList).map (·.value)
  | _ => none

def firstItem : JsonValue → Option JsonValue
  | .array _ items => items.head?.map fun item => item.2.1
  | _ => none

def stringOf : JsonValue → Option (List Char)
  | .string body => some (charsOf body)
  | _ => none

/-- A reply: an object as it is, or on one line behind the word of an event. -/
inductive McpReply where
  | plain (doc : Document)
  | event (doc : Document) (starts : doc.lead = noBlank)
      (oneLine : ∀ b ∈ doc.text, isLineEnd b = false)
      (ends : { ends : Bytes // ∀ b ∈ ends, isLineEnd b = true })

namespace McpReply

def document : McpReply → Document
  | plain doc => doc
  | event doc _ _ _ => doc

def bytes : McpReply → Bytes
  | plain doc => doc.text
  | event doc _ _ ends => ascii "data: " ++ (doc.text ++ ends.1)

def root (reply : McpReply) : JsonValue := .object reply.document.blank reply.document.members

def hasError (reply : McpReply) : Bool := (get "error" reply.root).isSome

def text? (reply : McpReply) : Option (List Char) := do
  let result ← get "result" reply.root
  let content ← get "content" result
  let item ← firstItem content
  let type ← (get "type" item).bind stringOf
  if type = "text".toList then (get "text" item).bind stringOf else none

theorem isText_bytes (reply : McpReply) : IsText reply.bytes := by
  cases reply with
  | plain doc => exact isText_document doc
  | event doc starts oneLine ends =>
    refine (isText_of_bytes (by decide)).append ((isText_document doc).append ?_)
    refine isText_of_bytes (List.all_eq_true.mpr fun b member => ?_)
    have isEnd := ends.2 b member
    rw [isLineEnd, Bool.or_eq_true, decide_eq_true_eq, decide_eq_true_eq] at isEnd
    rcases isEnd with rfl | rfl <;> decide

end McpReply

/-! ### Payloads -/

/-- What is taken of a reply: all of it, or what follows the first marker on its line. -/
inductive IsPayload : Bytes → Bytes → Prop
  | whole {data : Bytes} (never : ¬ marker <:+: data) : IsPayload data data
  | line {front line rest : Bytes} (first : ¬ marker <:+: front ++ marker.dropLast)
      (oneLine : ∀ b ∈ line, isLineEnd b = false) (ends : ∀ b ∈ rest.head?, isLineEnd b = true) :
      IsPayload (front ++ (marker ++ (line ++ rest))) (openBrace :: line)

theorem marker_ne_nil : marker ≠ [] := by decide

theorem takeWhile_line {line rest : Bytes} (oneLine : ∀ b ∈ line, isLineEnd b = false)
    (ends : ∀ b ∈ rest.head?, isLineEnd b = true) :
    (line ++ rest).takeWhile (fun b => !isLineEnd b) = line := by
  rw [List.takeWhile_append_of_pos fun b member => by rw [oneLine b member]; rfl]
  cases rest with
  | nil => exact List.append_nil line
  | cons b rest =>
    rw [List.takeWhile_cons_of_neg, List.append_nil]
    rw [ends b rfl]
    exact Bool.false_ne_true

theorem isPayload_unwrapSse (data : Bytes) : IsPayload data (unwrapSse data) := by
  unfold unwrapSse
  split
  · rename_i front rest cut
    obtain ⟨whole, first⟩ := (cutAt_eq_some_iff marker_ne_nil).mp cut
    have split := @List.takeWhile_append_dropWhile _ (fun b => !isLineEnd b) rest
    have stops := List.head?_dropWhile_not (fun b => !isLineEnd b) rest
    rw [whole]
    nth_rewrite 1 [← split]
    refine .line first (fun b member => ?_) fun b isFirst => ?_
    · simpa using List.mem_takeWhile_imp member
    · rw [Option.mem_def.mp isFirst] at stops
      simpa using stops
  · rename_i cut
    exact .whole (cutAt_eq_none_iff.mp cut)

theorem isPayload_iff {data payload : Bytes} :
    IsPayload data payload ↔ payload = unwrapSse data := by
  constructor
  · intro isPayload
    cases isPayload with
    | whole never =>
      unfold unwrapSse
      rw [cutAt_eq_none_iff.mpr never]
    | line first oneLine ends =>
      unfold unwrapSse
      rw [cutAt_append marker_ne_nil first]
      simp only [takeWhile_line oneLine ends]
  · rintro rfl
    exact isPayload_unwrapSse data

/-! ### What is found in a payload -/

def extract (payload : Bytes) : Except Bytes Bytes := do
  checkError payload
  let contentRaw ← textContent payload
  return unescapeInto respMax contentRaw

def ShowsText (payload : Bytes) (text : List Char) : Prop :=
  (∀ i, ¬ KeyAt (ascii "error") payload i) ∧
    ∃ raw, FirstString (ascii "text") payload raw ∧ unescaped raw = encode text

/-- A key speaks of an error, whose message is not cut inside of a character, or there is no
text. -/
def ShowsError (payload : Bytes) : Prop :=
  ((∃ i, KeyAt (ascii "error") payload i) →
      ∀ raw, FirstString (ascii "message") payload raw → IsUtf8 ((unescaped raw).take 512)) ∧
    ((∀ i, ¬ KeyAt (ascii "error") payload i) →
      ∀ raw, ¬ FirstString (ascii "text") payload raw)

section Extract

variable {payload : Bytes}

theorem checkError_eq_ok_iff :
    checkError payload = .ok () ↔ ∀ i, ¬ KeyAt (ascii "error") payload i := by
  rw [← findValue_eq_none_iff, checkError, findFieldValue]
  cases findValue (ascii "error") payload with
  | none => exact iff_of_true rfl rfl
  | some value =>
    refine iff_of_false (fun same => ?_) (Option.some_ne_none value)
    cases same

theorem length_le_of_isPayload {data : Bytes} (isPayload : IsPayload data payload) :
    payload.length ≤ data.length := by
  cases isPayload with
  | whole never => exact le_rfl
  | @line front line rest first oneLine ends =>
    have length : marker.length = 7 := by decide
    rw [List.length_cons, List.length_append, List.length_append, List.length_append, length]
    omega

/-- What is found in a payload: neither an error nor a text, an error, or a text. -/
inductive Extracted (payload : Bytes) : Except Bytes Bytes → Prop
  | nothing {msg : Bytes} (message : IsMessage msg)
      (noError : ∀ i, ¬ KeyAt (ascii "error") payload i)
      (noText : ∀ raw, ¬ FirstString (ascii "text") payload raw) : Extracted payload (.error msg)
  | error (error : ∃ i, KeyAt (ascii "error") payload i) :
      Extracted payload (.error (errorMessage payload))
  | text {raw : Bytes} (noError : ∀ i, ¬ KeyAt (ascii "error") payload i)
      (found : extractStrField payload (ascii "text") = some raw) :
      Extracted payload (.ok (unescapeInto respMax raw))

theorem extracted (payload : Bytes) : Extracted payload (extract payload) := by
  by_cases noError : ∀ i, ¬ KeyAt (ascii "error") payload i
  · have checked := checkError_eq_ok_iff.mpr noError
    cases found : extractStrField payload (ascii "text") with
    | some raw =>
      have isText : extract payload = .ok (unescapeInto respMax raw) := by
        rw [extract, checked, textContent, found]
        rfl
      rw [isText]
      exact .text noError found
    | none =>
      have none : extract payload = .error (ascii "no text content in DeepWiki response") := by
        rw [extract, checked, textContent, found]
        rfl
      rw [none]
      refine .nothing (by decide) noError fun raw first => ?_
      rw [extractStrField_eq_some_iff.mpr first] at found
      cases found
  · have isError : checkError payload = .error (errorMessage payload) := by
      rw [← checkError_eq_ok_iff] at noError
      unfold checkError at noError ⊢
      split_ifs at noError ⊢
      · rfl
      · exact absurd rfl noError
    have failed : extract payload = .error (errorMessage payload) := by
      rw [extract, isError]
      rfl
    rw [failed]
    refine .error ?_
    by_contra never
    exact noError fun i here => never ⟨i, here⟩

theorem unescapeInto_of_found {raw : Bytes} (short : payload.length ≤ respMax)
    (found : extractStrField payload (ascii "text") = some raw) :
    unescapeInto respMax raw = unescaped raw := by
  rw [unescapeInto_eq]
  exact List.take_of_length_le
    ((length_unescaped_le raw).trans ((infix_of_extractStrField found).length_le.trans short))

theorem extract_eq_ok_iff (short : payload.length ≤ respMax) {text : Bytes} :
    extract payload = .ok text ↔ (∀ i, ¬ KeyAt (ascii "error") payload i) ∧
      ∃ raw, FirstString (ascii "text") payload raw ∧ unescaped raw = text := by
  have found := extracted payload
  generalize extract payload = outcome at found ⊢
  cases found with
  | nothing message noError noText =>
    refine iff_of_false (fun same => ?_) fun shown => ?_
    · cases same
    · obtain ⟨-, raw, first, -⟩ := shown
      exact noText raw first
  | error error =>
    obtain ⟨i, here⟩ := error
    refine iff_of_false (fun same => ?_) fun shown => shown.1 i here
    cases same
  | @text raw noError found =>
    rw [unescapeInto_of_found short found]
    simp only [← extractStrField_eq_some_iff, found, Option.some_inj, exists_eq_left']
    exact ⟨fun same => ⟨noError, Except.ok.inj same⟩, fun shown => congrArg Except.ok shown.2⟩

theorem isUtf8_errorMessage_iff : IsUtf8 (errorMessage payload) ↔
    ∀ raw, FirstString (ascii "message") payload raw → IsUtf8 ((unescaped raw).take 512) := by
  rw [errorMessage, unescapeInto_eq]
  simp only [← extractStrField_eq_some_iff]
  cases extractStrField payload (ascii "message") with
  | none =>
    have default : IsText ((unescaped (ascii "DeepWiki MCP returned an error")).take 512) :=
      isText_of_bytes (by decide)
    exact iff_of_true default.isUtf8 nofun
  | some raw =>
    refine ⟨fun isUtf8 _ found => Option.some_inj.mp found ▸ isUtf8, fun all => all raw rfl⟩

/-- What is not found ends with a message that can be read, exactly if the reply shows an error. -/
theorem showsError_iff :
    ShowsError payload ↔ ∃ msg, extract payload = .error msg ∧ IsUtf8 msg := by
  have found := extracted payload
  generalize extract payload = outcome at found ⊢
  cases found with
  | @nothing msg message noError noText =>
    refine iff_of_true ⟨fun error => ?_, fun _ => noText⟩ ⟨msg, rfl, message.isText.isUtf8⟩
    obtain ⟨i, here⟩ := error
    exact absurd here (noError i)
  | error error =>
    have shows : ShowsError payload ↔ IsUtf8 (errorMessage payload) := by
      rw [isUtf8_errorMessage_iff]
      obtain ⟨i, here⟩ := error
      exact ⟨fun shown => shown.1 ⟨i, here⟩,
        fun all => ⟨fun _ => all, fun none => absurd here (none i)⟩⟩
    rw [shows]
    refine ⟨fun isUtf8 => ⟨_, rfl, isUtf8⟩, ?_⟩
    rintro ⟨msg, same, isUtf8⟩
    exact Except.error.inj same ▸ isUtf8
  | text noError found =>
    refine iff_of_false (fun shown => ?_) ?_
    · exact shown.2 noError _ (extractStrField_eq_some_iff.mp found)
    · rintro ⟨msg, same, -⟩
      cases same

end Extract

/-! ### What is found in a response -/

section Content

variable {body : List Char}

theorem length_encode_le {status : ℕ} (isText : ∀ c ∈ body, IsTextChar c) :
    (encode body).length ≤ (hostResponse status body).text.length := by
  rw [← unescaped_hostBody isText]
  exact (length_unescaped_le _).trans
    (infix_of_extractStrField extractStrField_hostResponse).length_le

theorem content_eq (fits : (hostResponse 200 body).text.length ≤ respMax) :
    content (hostResponse 200 body).text =
      extract (unwrapSse (unescaped (bodyText (hostSpelling.body body)))) := by
  have some : (hostResponse 200 body).text ≠ [] := by
    rw [text_hostResponse]
    exact List.append_ne_nil_of_left_ne_nil (by decide) _
  have response : checkResponse (hostResponse 200 body).text = .ok () := if_neg some
  have status : checkStatus (hostResponse 200 body).text = .ok () := by
    unfold checkStatus
    rw [extractIntField_hostResponse (by decide)]
    rfl
  have read := @extractStrField_hostResponse 200 body
  have found : responseBody (hostResponse 200 body).text =
      .ok (bodyText (hostSpelling.body body)) := by
    rw [responseBody, read]
  have whole : unescapeInto respMax (bodyText (hostSpelling.body body)) =
      unescaped (bodyText (hostSpelling.body body)) := by
    rw [unescapeInto_eq, List.take_of_length_le]
    exact (length_unescaped_le _).trans ((infix_of_extractStrField read).length_le.trans fits)
  rw [content, response, status, found]
  change (do
    checkError (unwrapSse (unescapeInto respMax (bodyText (hostSpelling.body body))))
    let contentRaw ← textContent
      (unwrapSse (unescapeInto respMax (bodyText (hostSpelling.body body))))
    return unescapeInto respMax contentRaw) = _
  rw [whole]
  rfl

theorem content_of_ok (isText : ∀ c ∈ body, IsTextChar c)
    (fits : (hostResponse 200 body).text.length ≤ respMax) :
    content (hostResponse 200 body).text = extract (unwrapSse (encode body)) := by
  rw [content_eq fits, unescaped_hostBody isText]

theorem content_of_status {status : ℕ} (other : status ≠ 200) (small : status ≤ Core.i64Max) :
    content (hostResponse status body).text = .error (statusMessage status) := by
  have some : (hostResponse status body).text ≠ [] := by
    rw [text_hostResponse]
    exact List.append_ne_nil_of_left_ne_nil (by decide) _
  have response : checkResponse (hostResponse status body).text = .ok () := if_neg some
  have failed : checkStatus (hostResponse status body).text = .error (statusMessage status) := by
    unfold checkStatus
    rw [extractIntField_hostResponse small]
    exact if_pos fun same => other (Int.ofNat_inj.mp same)
  rw [content, response, failed]
  rfl

end Content

/-! ### What is reported -/

def Reports (region : Option Region) (text : List Char) : Prop :=
  ∃ result, Answers region result ∧ result.output = text ∧ result.isError = false

def ReportsError (region : Option Region) : Prop :=
  ∃ result, Answers region result ∧ result.isError = true

section Reports

variable {start : ℕ} {msg summary output : Bytes} {text : List Char}

theorem errorText_eq (msg : Bytes) : answering.errorText msg = resultText msg msg none true := rfl

theorem reports_ok_iff (noLost : NoLost summary) (noLost' : NoLost output) :
    Reports (some ⟨start, answering.answerText (.ok (summary, output))⟩) text ↔
      output = encode text ∧ IsUtf8 summary := by
  rw [Answering.answerText_of_noLost rfl noLost noLost', Reports]
  simp only [answers_iff]
  constructor
  · rintro ⟨result, ⟨summaries, outputs, -, -⟩, rfl, -⟩
    exact ⟨outputs, result.summary, summaries.symm⟩
  · rintro ⟨outputs, chars, summaries⟩
    exact ⟨⟨chars, text, none, false⟩, ⟨summaries.symm, outputs, rfl, rfl⟩, rfl, rfl⟩

theorem not_reports_error : ¬ Reports (some ⟨start, answering.answerText (.error msg)⟩) text := by
  rw [Answering.answerText, errorText_eq, Reports]
  simp only [answers_iff]
  rintro ⟨result, ⟨-, -, -, isError⟩, -, noError⟩
  exact Bool.false_ne_true (noError.symm.trans isError.symm)

theorem not_reportsError_ok (noLost : NoLost summary) (noLost' : NoLost output) :
    ¬ ReportsError (some ⟨start, answering.answerText (.ok (summary, output))⟩) := by
  rw [Answering.answerText_of_noLost rfl noLost noLost', ReportsError]
  simp only [answers_iff]
  rintro ⟨result, ⟨-, -, -, noError⟩, isError⟩
  exact Bool.false_ne_true (noError.trans isError)

theorem reportsError_error_iff :
    ReportsError (some ⟨start, answering.answerText (.error msg)⟩) ↔ IsUtf8 msg := by
  rw [Answering.answerText, errorText_eq, ReportsError]
  simp only [answers_iff]
  constructor
  · rintro ⟨result, ⟨summaries, -, -, -⟩, -⟩
    exact ⟨result.summary, summaries.symm⟩
  · rintro ⟨chars, same⟩
    exact ⟨⟨chars, chars, none, true⟩, ⟨same.symm, same.symm, rfl, rfl⟩, rfl⟩

end Reports

def Extracts (reply : McpReply) (status : UInt16) (region : Option Region) : Prop :=
  (reply.hasError = false → status = 200 → ∀ text, reply.text? = some text → Reports region text) ∧
    (reply.hasError = true → ReportsError region)

section Extracts

variable {httpCall : Bytes → Bytes} {input arg req : Bytes} {mode : Mode} {body : List Char}

theorem answer_of_sent (sent : request input = .ok (mode, arg, req)) :
    answer httpCall input =
      content (httpCall req) >>= fun text => .ok (summaryText mode arg, text) := by
  rw [answer, sent]
  rfl

theorem region_of_sent {status : ℕ} (sent : request input = .ok (mode, arg, req))
    (answered : httpCall req = (hostResponse status body).text)
    (small : input.length ≤ maxRequestBytes) :
    ∃ start, handleToolCall httpCall input input.length = some ⟨start, answering.answerText
      (content (hostResponse status body).text >>= fun text =>
        .ok (summaryText mode arg, text))⟩ := by
  have noLost : ∀ sent, request input = .ok sent → NoLost (httpCall sent.2.2) := by
    intro sent' same
    obtain rfl := Except.ok.inj (same.symm.trans sent)
    exact answered.symm ▸ noLost_of_isText (isText_document _)
  obtain ⟨start, -, -, region⟩ := handleToolCall_eq noLost small
  rw [answer_of_sent sent, answered] at region
  exact ⟨start, region⟩

theorem reports_iff {start : ℕ} {payload : Bytes} {text : List Char}
    (found : mode.arg = .ok arg) (short : payload.length ≤ respMax) (noLost : NoLost payload) :
    Reports (some ⟨start, answering.answerText
        (extract payload >>= fun text => .ok (summaryText mode arg, text))⟩) text ↔
      ShowsText payload text ∧ IsUtf8 (arg.take 60) := by
  rw [ShowsText, ← extract_eq_ok_iff short]
  cases outcome : extract payload with
  | error msg => exact iff_of_false not_reports_error fun shown => nomatch shown.1
  | ok output =>
    have fine : NoLost output := by
      obtain ⟨-, raw, first, rfl⟩ := (extract_eq_ok_iff short).mp outcome
      exact (noLost.extractStrField (extractStrField_eq_some_iff.mpr first)).unescaped
    have same : (Except.ok output : Except Bytes Bytes) = .ok (encode text) ↔
        output = encode text := ⟨Except.ok.inj, congrArg Except.ok⟩
    rw [same, ← isUtf8_summaryText_iff found]
    exact reports_ok_iff (noLost_summaryText found) fine

theorem reportsError_iff {start : ℕ} {payload : Bytes}
    (found : mode.arg = .ok arg) (short : payload.length ≤ respMax) (noLost : NoLost payload) :
    ReportsError (some ⟨start, answering.answerText
        (extract payload >>= fun text => .ok (summaryText mode arg, text))⟩) ↔
      ShowsError payload := by
  rw [showsError_iff]
  cases outcome : extract payload with
  | error msg =>
    refine Iff.trans reportsError_error_iff ⟨fun isUtf8 => ⟨msg, rfl, isUtf8⟩, ?_⟩
    rintro ⟨_, ⟨⟩, isUtf8⟩
    exact isUtf8
  | ok output =>
    have fine : NoLost output := by
      obtain ⟨-, raw, first, rfl⟩ := (extract_eq_ok_iff short).mp outcome
      exact (noLost.extractStrField (extractStrField_eq_some_iff.mpr first)).unescaped
    refine iff_of_false (not_reportsError_ok (noLost_summaryText found) fine) ?_
    rintro ⟨msg, isError, -⟩
    cases isError

/-- **Replies of the wiki.** The text of a reply is reported exactly if it is shown by the payload
of the reply, and the summary is not cut inside of a character; an error is reported exactly if it
is shown. -/
theorem extracts_iff (reply : McpReply) (status : UInt16)
    (sent : request input = .ok (mode, arg, req)) (written : encode body = reply.bytes)
    (answered : httpCall req = (hostResponse status.toNat body).text)
    (fits : (hostResponse status.toNat body).text.length ≤ respMax)
    (small : input.length ≤ maxRequestBytes) :
    Extracts reply status (handleToolCall httpCall input input.length) ↔
      ∃ payload, IsPayload reply.bytes payload ∧
        (reply.hasError = false → status = 200 → ∀ text, reply.text? = some text →
          ShowsText payload text ∧ IsUtf8 (arg.take 60)) ∧
        (reply.hasError = true → status = 200 → ShowsError payload) := by
  obtain ⟨start, region⟩ := @region_of_sent httpCall input arg req mode body status.toNat sent
    answered small
  obtain ⟨text, spelled, isText⟩ := reply.isText_bytes
  obtain rfl := encode_inj (spelled.trans written.symm)
  have found := of_request sent
  have noLost := noLost_unwrapSse (noLost_of_isText reply.isText_bytes)
  have short : (unwrapSse reply.bytes).length ≤ respMax := by
    refine (length_le_of_isPayload (isPayload_unwrapSse _)).trans ?_
    exact spelled ▸ (length_encode_le isText).trans fits
  simp only [isPayload_iff, exists_eq_left]
  rw [Extracts, region]
  by_cases isOk : status = 200
  · subst isOk
    have outcome := content_of_ok isText fits
    rw [spelled] at outcome
    rw [show (200 : UInt16).toNat = 200 from rfl, outcome]
    refine and_congr ?_ ?_
    · exact imp_congr_right fun _ => imp_congr_right fun _ => forall₂_congr fun text _ =>
        reports_iff found short noLost
    · exact imp_congr_right fun _ => (reportsError_iff found short noLost).trans
        ⟨fun shown _ => shown, fun shown => shown rfl⟩
  · have other : status.toNat ≠ 200 := fun same => isOk (UInt16.toNat_inj.mp same)
    have below : status.toNat ≤ Core.i64Max := status.toNat_lt.le.trans (by decide)
    rw [content_of_status other below]
    have isUtf8 := (isMessage_statusMessage status.toNat).isText.isUtf8
    refine and_congr ?_ ?_
    · exact imp_congr_right fun _ => iff_of_true (fun same => absurd same isOk)
        fun same => absurd same isOk
    · exact imp_congr_right fun _ => iff_of_true (reportsError_error_iff.mpr isUtf8)
        fun same => absurd same isOk

end Extracts

/-! ### Pages -/

def plainString (text : String) : JsonValue := .string (plainBody text.toList)

def page (text : String) : McpReply := .plain
  { lead := noBlank
    blank := noBlank
    members := [field "jsonrpc" (plainString "2.0"), field "result" (.object noBlank
      [field "content" (.array noBlank [(noBlank, .object noBlank
        [field "type" (plainString "text"), field "text" (plainString text)], noBlank)])])]
    trail := noBlank }

def pageText (text : String) : List Char :=
  ("\x7b\"jsonrpc\":\"2.0\",\"result\":\x7b\"content\":[\x7b\"type\":\"text\",\"text\":\"" ++
    text ++ "\"\x7d]\x7d\x7d").toList

def pageResponse (text : String) : Bytes := (hostResponse 200 (pageText text)).text

theorem request_structure :
    ∃ req, request (ascii "\x7b\x7d") = .ok (.readWikiStructure, [], req) := by
  have chosen : chooseMode (ascii "\x7b\x7d") = .ok .readWikiStructure := by decide
  have body : mcpBody .readWikiStructure [] = .ok _ :=
    build_of_room ((writes_word _).andThen ((writes_word _).andThen ((writes_word _).andThen
      ((writes_jsonStr _).andThen (fills_done.toWrites.andThen (writes_word _))))))
      (by decide +kernel)
  refine ⟨_, bind_eq_ok.mpr ⟨(), rfl, bind_eq_ok.mpr ⟨_, chosen, bind_eq_ok.mpr ⟨[], rfl,
    bind_eq_ok.mpr ⟨_, body, bind_eq_ok.mpr ⟨_, build_of_room ((writes_word _).andThen
      ((writes_jsonStr _).andThen ((writes_word _).andThen ((writes_jsonStr _).andThen
        (writes_word _))))) ?_, rfl⟩⟩⟩⟩⟩⟩
  decide +kernel

/-- A text without such words is reported. -/
theorem page_is_reported : Extracts (page "Kelvin") 200
    (handleToolCall (fun _ => pageResponse "Kelvin") (ascii "\x7b\x7d")
      (ascii "\x7b\x7d").length) := by
  obtain ⟨req, sent⟩ := request_structure
  have written : encode (pageText "Kelvin") = (page "Kelvin").bytes := by decide +kernel
  have none : checkError (page "Kelvin").bytes = .ok () := by decide +kernel
  have first : extractStrField (page "Kelvin").bytes (ascii "text") = some (ascii "Kelvin") := by
    decide +kernel
  have payload : unwrapSse (page "Kelvin").bytes = (page "Kelvin").bytes := by decide +kernel
  refine (extracts_iff (page "Kelvin") 200 sent written rfl (by decide +kernel)
    (by decide)).mpr ⟨_, isPayload_iff.mpr payload.symm, fun _ _ text isText => ?_, ?_⟩
  · have same : (page "Kelvin").text? = some "Kelvin".toList := by decide +kernel
    obtain rfl := Option.some_inj.mp (isText.symm.trans same)
    refine ⟨⟨checkError_eq_ok_iff.mp none, _, extractStrField_eq_some_iff.mp first, ?_⟩, [], rfl⟩
    decide
  · exact fun isError => absurd isError (by decide +kernel)

/-- A text that speaks of events is not found: the plugin takes its end for an event. -/
theorem text_with_marker_is_lost :
    encode (pageText "data: \x7b\x7d") = (page "data: \x7b\x7d").bytes ∧
      (page "data: \x7b\x7d").hasError = false ∧
      (page "data: \x7b\x7d").text? = some "data: \x7b\x7d".toList ∧
      (pageResponse "data: \x7b\x7d").length ≤ respMax ∧
      ¬ Extracts (page "data: \x7b\x7d") 200
        (handleToolCall (fun _ => pageResponse "data: \x7b\x7d") (ascii "\x7b\x7d")
          (ascii "\x7b\x7d").length) := by
  have noError : (page "data: \x7b\x7d").hasError = false := by decide +kernel
  have isText : (page "data: \x7b\x7d").text? = some "data: \x7b\x7d".toList := by decide +kernel
  have written : encode (pageText "data: \x7b\x7d") = (page "data: \x7b\x7d").bytes := by
    decide +kernel
  have fits : (pageResponse "data: \x7b\x7d").length ≤ respMax := by decide +kernel
  refine ⟨written, noError, isText, fits, fun extracts => ?_⟩
  have reports := extracts.1 noError rfl _ isText
  obtain ⟨req, sent⟩ := request_structure
  obtain ⟨start, region⟩ := @region_of_sent (fun _ => pageResponse "data: \x7b\x7d") _ _ req _
    (pageText "data: \x7b\x7d") 200 sent rfl (by decide)
  obtain ⟨chars, spelled, isChars⟩ := (page "data: \x7b\x7d").isText_bytes
  obtain rfl := encode_inj (spelled.trans written.symm)
  rw [region, content_of_ok isChars fits, spelled] at reports
  have outcome : extract (unwrapSse (page "data: \x7b\x7d").bytes) =
      .error (ascii "no text content in DeepWiki response") := by
    decide +kernel
  rw [outcome] at reports
  exact not_reports_error reports

end KelvinClaw.Plugin.WikiTool
