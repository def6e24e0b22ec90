import KelvinClaw.Plugin.SearchListings
import KelvinClaw.Plugin.WikiReplies

/-!
# Answers of the tool plugins

The plugins answer every call with a word for a text, which the host reads. It is the object of a
result unless it contains a text that is cut inside of a character: the query or the argument that
the summary shows, an error of the wiki, or what is listed. Of Exa, which lists more, it may also be
longer than the host reads.
-/

namespace KelvinClaw.Plugin.ToolAnswers

open Systems Systems.Arena Systems.Json JsonScanner JsonStrings ToolCall SearchTools

/-! ### The host -/

/-- A JSON text that is no longer than what the host passes on. -/
structure Arguments where
  lead : Blank
  value : JsonValue
  trail : Blank
  fits : (lead.1 ++ (value.text ++ trail.1)).length ≤ WikiTool.maxRequestBytes

def Arguments.text (arguments : Arguments) : Bytes :=
  arguments.lead.1 ++ (arguments.value.text ++ arguments.trail.1)

/-- The status and the body of a response, which the host may have cut. -/
structure HostReply where
  status : UInt16
  body : List Char

/-- What is in the buffer of a response. There is nothing in it if the call fails. -/
def hostCall (respMax : ℕ) (replies : Bytes → Option HostReply) (req : Bytes) : Bytes :=
  match replies req with
  | none => []
  | some reply =>
    let text := (hostResponse reply.status.toNat reply.body).text
    if text.length ≤ respMax then text else []

section Host

variable {respMax : ℕ} {replies : Bytes → Option HostReply}

theorem isText_text (arguments : Arguments) : IsText arguments.text :=
  (isText_blank arguments.lead).append
    ((Json.isText_text arguments.value).append (isText_blank arguments.trail))

theorem text_ne_nil (arguments : Arguments) : arguments.text ≠ [] := by
  refine List.append_ne_nil_of_right_ne_nil _ (List.append_ne_nil_of_left_ne_nil ?_ _)
  intro none
  have first := head?_text arguments.value
  rw [none] at first
  cases first

theorem clean_hostCall (req : Bytes) :
    Clean (hostCall respMax replies req) ∧ (hostCall respMax replies req).length ≤ respMax := by
  unfold hostCall
  cases replies req with
  | none => exact ⟨⟨isUtf8_nil, List.forall_mem_nil _⟩, Nat.zero_le _⟩
  | some reply =>
    simp only
    split_ifs with fits
    · exact ⟨clean_of_isText (isText_document _), fits⟩
    · exact ⟨⟨isUtf8_nil, List.forall_mem_nil _⟩, Nat.zero_le _⟩

end Host

/-! ### The search tools -/

section Search

theorem clampCount_le {most : ℤ} {given : Option ℤ} (few : most ≤ 25) :
    clampCount most given ≤ 25 := by
  unfold clampCount
  omega

theorem clean_extractArrayField {json name found : Bytes} (clean : Clean json)
    (read : extractArrayField json name = some found) : Clean found := by
  obtain ⟨start, -, matching⟩ := Option.bind_eq_some_iff.mp read
  exact (clean_of_matchingText clean (by decide) (by decide) matching).1

theorem clean_extractObjectField {json name found : Bytes} (clean : Clean json)
    (read : extractObjectField json name = some found) : Clean found := by
  obtain ⟨start, -, matching⟩ := Option.bind_eq_some_iff.mp read
  exact (clean_of_matchingText clean (by decide) (by decide) matching).1

theorem hasBuffers_websearch : websearch.HasBuffers :=
  ⟨by decide, by decide, by decide, by decide, by decide, by decide⟩

theorem soundAll_description {result : Bytes} (clean : Clean result) :
    SoundAll (websearch.words result) := by
  change SoundAll ((extractStrField result (ascii "description")).map snippet).toList
  cases found : extractStrField result (ascii "description") with
  | none => exact List.forall_mem_nil _
  | some raw => exact soundAll_singleton (sound_snippet (clean.extractStrField found))

theorem sound_websearch : websearch.Sound where
  buffers := hasBuffers_websearch
  options _ := explains_ok _
  inner _ _ := explains_build (by decide)
  request _ _ := explains_build (by decide)
  results body := by
    unfold websearch
    dsimp only
    split
    · exact explains_error (by decide)
    · split
      · exact explains_error (by decide)
      · exact explains_ok _
  clean {body array} clean found := by
    unfold websearch at found
    dsimp only at found
    split at found
    · cases found
    · rename_i web isWeb
      split at found
      · cases found
      · rename_i results isResults
        obtain rfl := Except.ok.inj found
        exact clean_extractArrayField (clean_extractObjectField clean isWeb) isResults
  missingKey := by decide
  status := by decide
  label := by decide
  count {input options} chosen := by
    obtain rfl := Except.ok.inj chosen
    exact clampCount_le (by decide)
  words := soundAll_description
  room := by decide +kernel

theorem explains_allowedField {input : Bytes} {name error : String} {allowlist : List String}
    (message : IsMessage (ascii error)) : Explains (allowedField input name allowlist error) := by
  unfold allowedField
  split
  · exact explains_ok _
  · split_ifs
    · exact explains_ok _
    · exact explains_error message

theorem explains_exaOptions (input : Bytes) : Explains (exaOptions input) :=
  (explains_allowedField (by decide)).bind fun _ _ =>
    (explains_allowedField (by decide)).bind fun _ _ =>
      (explains_allowedField (by decide)).bind fun _ _ => explains_ok _

theorem numResults_le {input : Bytes} {options : ExaOptions}
    (chosen : exaOptions input = .ok options) : options.numResults ≤ 25 := by
  obtain ⟨_, -, chosen⟩ := bind_eq_ok.mp chosen
  obtain ⟨_, -, chosen⟩ := bind_eq_ok.mp chosen
  obtain ⟨_, -, chosen⟩ := bind_eq_ok.mp chosen
  obtain rfl := Except.ok.inj chosen
  exact clampCount_le le_rfl

theorem of_filled {raw : Option Bytes} {text : Bytes} (found : filled raw = some text) :
    raw = some text := (Option.filter_eq_some_iff.mp found).1

theorem soundAll_exaWords {result : Bytes} (clean : Clean result) :
    SoundAll (exaWords result) := by
  have highlight : ∀ raw, filled ((extractArrayField result (ascii "highlights")).bind
      fun highlights => nextString (arrayIter highlights)) = some raw → Clean raw := by
    intro raw found
    obtain ⟨highlights, isArray, next⟩ := Option.bind_eq_some_iff.mp (of_filled found)
    exact clean_nextString (clean_arrayIter (clean_extractArrayField clean isArray)) next
  have newlines : SoundAll [[.byte newline]] :=
    soundAll_singleton (List.forall_mem_singleton.mpr rfl)
  unfold exaWords
  dsimp only
  split
  · rename_i raw found
    refine soundAll_singleton (sound_snippet ?_)
    cases first : filled ((extractArrayField result (ascii "highlights")).bind
        fun highlights => nextString (arrayIter highlights)) with
    | some highlighted =>
      rw [first] at found
      obtain rfl := Option.some_inj.mp found
      exact highlight _ first
    | none =>
      rw [first] at found
      exact clean.extractStrField (of_filled found)
  · split
    · exact List.forall_mem_nil _
    · rename_i raw found
      have isClean := clean.extractStrField (of_filled found)
      have beginning : ∀ put ∈ [Put.bytes (ascii "   "), .unescape (raw.take 300)], put.Sound :=
        List.forall_mem_cons.mpr ⟨show IsMessage (ascii "   ") by decide,
          List.forall_mem_singleton.mpr ⟨raw, isClean, List.take_prefix 300 raw⟩⟩
      refine soundAll_append (soundAll_append (soundAll_singleton beginning) ?_) newlines
      split_ifs
      · exact soundAll_singleton (List.forall_mem_singleton.mpr
          (show IsMessage (ascii "...") by decide))
      · exact List.forall_mem_nil _

theorem hasBuffers_exa : exa.HasBuffers :=
  ⟨by decide, by decide, by decide, by decide, by decide, by decide⟩

theorem sound_exa : exa.Sound where
  buffers := hasBuffers_exa
  options := explains_exaOptions
  inner _ _ := explains_build (by decide)
  request _ _ := explains_build (by decide)
  results body := by
    unfold exa
    dsimp only
    split
    · exact explains_error (by decide)
    · exact explains_ok _
  clean {body array} clean found := by
    unfold exa at found
    dsimp only at found
    split at found
    · cases found
    · rename_i results isResults
      obtain rfl := Except.ok.inj found
      exact clean_extractArrayField clean isResults
  missingKey := by decide
  status := by decide
  label := by decide
  count := numResults_le
  words := soundAll_exaWords
  room := by decide +kernel

theorem resultLength_websearch_le {query : Bytes} {results : List Bytes} (clean : Clean query)
    (areClean : ∀ result ∈ results, Clean result) (few : results.length ≤ 25) :
    websearch.resultLength query results ≤ maxResponseBytes := by
  have summary := length_written_le
    (SearchTool.noLost_summarySpelled sound_websearch clean.noLost results.length)
  have output := length_written_le (SearchTool.noLost_outputText sound_websearch areClean)
  have short := @SearchTool.length_summarySpelled_le _ query sound_websearch _ few
  have small : (websearch.outputText results).length ≤ 32768 := Buffer.within _
  have max : maxResponseBytes = 262144 := rfl
  rw [length_written] at summary output
  rw [SearchTool.resultLength, ← SearchTool.outputText_eq, max]
  omega

end Search

/-! ### The wiki tool -/

/-- What is left of a response before the wiki tool looks for its members. -/
def wikiPayload (body : List Char) : Bytes :=
  WikiTool.unwrapSse (unescaped (bodyText (hostSpelling.body body)))

/-- Neither the argument, which is shown with a text, nor the message of an error is cut inside of
a character. -/
structure PayloadUncut (arg payload : Bytes) : Prop where
  text : (∀ i, ¬ KeyAt (ascii "error") payload i) →
    ∀ raw, FirstString (ascii "text") payload raw → IsUtf8 (arg.take 60)
  error : (∃ i, KeyAt (ascii "error") payload i) →
    ∀ raw, FirstString (ascii "message") payload raw → IsUtf8 ((unescaped raw).take 512)

/-- Nothing is cut inside of a character when a response with a body comes. -/
def WikiUncut (replies : Bytes → Option HostReply) (input : Bytes) : Prop :=
  ∀ mode arg req body, WikiTool.request input = .ok (mode, arg, req) →
    replies req = some ⟨200, body⟩ →
    (hostResponse 200 body).text.length ≤ WikiTool.respMax →
    PayloadUncut arg (wikiPayload body)

section Wiki

variable {body : List Char} {data payload : Bytes}

theorem infix_of_isPayload (isPayload : WikiTool.IsPayload data payload) : payload <:+: data := by
  cases isPayload with
  | whole never => exact List.infix_refl _
  | @line front line rest first oneLine ends =>
    have marker : WikiTool.marker = ascii "data: " ++ [openBrace] := by decide
    refine ⟨front ++ ascii "data: ", rest, ?_⟩
    rw [marker]
    simp only [List.append_assoc, List.cons_append, List.nil_append]

theorem clean_of_isPayload (isPayload : WikiTool.IsPayload data payload) (clean : Clean data) :
    Clean payload := by
  refine ⟨?_, clean.noLost.of_subset (infix_of_isPayload isPayload).subset⟩
  cases isPayload with
  | whole never => exact clean.isUtf8
  | @line front line rest first oneLine ends =>
    have marker : WikiTool.marker = ascii "data: " ++ [openBrace] := by decide
    have low : openBrace.toNat < 0x80 := by decide
    have isEnd : ∀ b, WikiTool.isLineEnd b = true → IsFirst b := by
      intro b isEnd
      rw [WikiTool.isLineEnd, Bool.or_eq_true, decide_eq_true_eq, decide_eq_true_eq] at isEnd
      rcases isEnd with rfl | rfl
      · exact .inl (by decide)
      · exact .inl (by decide)
    have whole : front ++ (WikiTool.marker ++ (line ++ rest)) =
        (front ++ ascii "data: ") ++ openBrace :: (line ++ rest) := by
      rw [marker]
      simp only [List.append_assoc, List.cons_append, List.nil_append]
    have isUtf8 := clean.isUtf8
    rw [whole] at isUtf8
    have inside := ((isUtf8_append_cons low).mp isUtf8).2
    have isLine := (isUtf8_split (fun b first => isEnd b (ends b first)) inside).1
    exact (isUtf8_of_ascii fun b member => List.mem_singleton.mp member ▸ low :
      IsUtf8 [openBrace]).append isLine

def IsAccepted (text : Bytes) : Prop := text.length ≤ maxResponseBytes ∧ IsAnswer text

theorem accepts_error_iff {msg : Bytes} (noLost : NoLost msg) (short : msg.length ≤ 512) :
    IsAccepted (WikiTool.answering.answerText (.error msg)) ↔ IsUtf8 msg := by
  have length := Answering.length_errorText WikiTool.answering msg
  have written := length_written_le noLost
  have hides : WikiTool.answering.shows ≠ true := Bool.false_ne_true
  have max : maxResponseBytes = 262144 := rfl
  rw [if_neg hides] at length
  rw [IsAccepted, Answering.answerText, length, WikiTool.errorText_eq,
    isAnswer_resultText_none_iff noLost noLost, max]
  constructor
  · exact fun accepted => accepted.2.1
  · exact fun isUtf8 => ⟨by omega, isUtf8, isUtf8⟩

theorem accepts_message {msg : Bytes} (message : IsMessage msg) :
    IsAccepted (WikiTool.answering.answerText (.error msg)) :=
  (accepts_error_iff (noLost_of_isText message.isText) message.short).mpr message.isText.isUtf8

theorem accepts_ok_iff {summary output : Bytes} (noLost : NoLost summary)
    (short : summary.length ≤ 300) (clean : Clean output)
    (small : spelled output ≤ WikiTool.respMax) :
    IsAccepted (WikiTool.answering.answerText (.ok (summary, output))) ↔ IsUtf8 summary := by
  have written := length_written_le noLost
  have max : maxResponseBytes = 262144 := rfl
  have most : WikiTool.respMax = 196608 := rfl
  rw [length_written] at written
  rw [IsAccepted, Answering.answerText_of_noLost rfl noLost clean.noLost, length_resultText,
    length_written, length_written, isAnswer_resultText_none_iff noLost clean.noLost, max]
  simp only [Bool.false_eq_true, if_false]
  constructor
  · exact fun accepted => accepted.2.1
  · exact fun isUtf8 => ⟨by omega, isUtf8, clean.isUtf8⟩

/-- The payload of a response is a text, which is not longer when it is written again. -/
theorem of_wikiPayload (fits : (hostResponse 200 body).text.length ≤ WikiTool.respMax) :
    Clean (wikiPayload body) ∧ (wikiPayload body).length ≤ WikiTool.respMax ∧
      spelled (wikiPayload body) ≤ WikiTool.respMax := by
  have read := @extractStrField_hostResponse 200 body
  have inside := (infix_of_extractStrField read).length_le.trans fits
  have isPayload := WikiTool.isPayload_unwrapSse (unescaped (bodyText (hostSpelling.body body)))
  have clean := ((clean_of_isText (isText_document _)).extractStrField read).unescaped
  refine ⟨clean_of_isPayload isPayload clean, ?_, ?_⟩
  · exact (infix_of_isPayload isPayload).length_le.trans ((length_unescaped_le _).trans inside)
  · exact (spelled_le_of_isInfix (infix_of_isPayload isPayload)).trans
      ((spelled_unescaped_bodyText_le _).trans inside)

theorem accepts_payload_iff {mode : WikiTool.Mode} {arg : Bytes} (isArg : mode.arg = .ok arg)
    (clean : Clean payload) (short : payload.length ≤ WikiTool.respMax)
    (small : spelled payload ≤ WikiTool.respMax) :
    IsAccepted (WikiTool.answering.answerText (WikiTool.extract payload >>= fun text =>
      .ok (WikiTool.summaryText mode arg, text))) ↔ PayloadUncut arg payload := by
  have found := WikiTool.extracted payload
  generalize WikiTool.extract payload = outcome at found ⊢
  cases found with
  | nothing message noError noText =>
    refine iff_of_true (accepts_message message) ⟨fun _ raw first => ?_, fun error => ?_⟩
    · exact absurd first (noText raw)
    · obtain ⟨i, here⟩ := error
      exact absurd here (noError i)
  | error error =>
    refine (accepts_error_iff (WikiTool.noLost_errorMessage clean.noLost)
      (length_unescapeInto_le 512 _)).trans ?_
    rw [WikiTool.isUtf8_errorMessage_iff]
    refine ⟨fun isUtf8 => ⟨fun noError => ?_, fun _ => isUtf8⟩, fun uncut => uncut.error error⟩
    obtain ⟨i, here⟩ := error
    exact absurd here (noError i)
  | @text raw noError found =>
    have isRaw := clean.extractStrField found
    have room : spelled (unescaped raw) ≤ WikiTool.respMax := (spelled_unescaped_le raw).trans
      ((spelled_le_of_isInfix (infix_of_extractStrField found)).trans small)
    rw [WikiTool.unescapeInto_of_found short found]
    refine (accepts_ok_iff (WikiTool.noLost_summaryText isArg)
      (WikiTool.length_summaryText_le mode arg) isRaw.unescaped room).trans ?_
    rw [WikiTool.isUtf8_summaryText_iff isArg]
    refine ⟨fun isUtf8 => ⟨fun _ _ _ => isUtf8, fun error => ?_⟩, fun uncut => ?_⟩
    · obtain ⟨i, here⟩ := error
      exact absurd here (noError i)
    · exact uncut.text noError raw (extractStrField_eq_some_iff.mp found)

theorem accepts_content_iff {replies : Bytes → Option HostReply} {mode : WikiTool.Mode}
    {arg req : Bytes} (isArg : mode.arg = .ok arg) :
    IsAccepted (WikiTool.answering.answerText
        (WikiTool.content (hostCall WikiTool.respMax replies req) >>= fun text =>
          .ok (WikiTool.summaryText mode arg, text))) ↔
      ∀ body, replies req = some ⟨200, body⟩ →
        (hostResponse 200 body).text.length ≤ WikiTool.respMax →
        PayloadUncut arg (wikiPayload body) := by
  have failed : IsAccepted (WikiTool.answering.answerText (WikiTool.content [] >>= fun text =>
      .ok (WikiTool.summaryText mode arg, text))) :=
    accepts_message (WikiTool.explains_checkResponse [] _ rfl)
  unfold hostCall
  cases replied : replies req with
  | none => exact iff_of_true failed nofun
  | some reply =>
    obtain ⟨status, body⟩ := reply
    simp only [Option.some_inj, HostReply.mk.injEq]
    by_cases fits : (hostResponse status.toNat body).text.length ≤ WikiTool.respMax
    · rw [if_pos fits]
      by_cases isOk : status = 200
      · subst isOk
        obtain ⟨clean, short, small⟩ := of_wikiPayload fits
        rw [show (200 : UInt16).toNat = 200 from rfl, WikiTool.content_eq fits]
        refine (accepts_payload_iff isArg clean short small).trans ⟨?_, fun all => ?_⟩
        · rintro uncut _ ⟨-, rfl⟩ -
          exact uncut
        · exact all body ⟨rfl, rfl⟩ fits
      · have other : status.toNat ≠ 200 := fun same => isOk (UInt16.toNat_inj.mp same)
        have below : status.toNat ≤ Core.i64Max := status.toNat_lt.le.trans (by decide)
        rw [WikiTool.content_of_status other below]
        exact iff_of_true (accepts_message (WikiTool.isMessage_statusMessage _))
          fun _ same => absurd same.1 isOk
    · rw [if_neg fits]
      refine iff_of_true failed ?_
      rintro _ ⟨rfl, rfl⟩ short
      exact absurd short fits

/-- **Answers of the wiki tool.** The host accepts what is answered exactly if nothing is cut inside
of a character. -/
theorem wiki_answered_iff {replies : Bytes → Option HostReply} {input : Bytes}
    (guest : Guest WikiTool.heapSize) (small : input.length ≤ WikiTool.maxRequestBytes) :
    Answered guest
        (WikiTool.handleToolCall (hostCall WikiTool.respMax replies) input input.length) ↔
      WikiUncut replies input := by
  have noLost : ∀ sent, WikiTool.request input = .ok sent →
      NoLost (hostCall WikiTool.respMax replies sent.2.2) :=
    fun sent _ => (clean_hostCall sent.2.2).1.noLost
  obtain ⟨start, -, inside, region⟩ := WikiTool.handleToolCall_eq noLost small
  rw [region]
  refine (answered_some_iff guest inside).trans ?_
  cases sent : WikiTool.request input with
  | error msg =>
    have answer : WikiTool.answer (hostCall WikiTool.respMax replies) input = .error msg := by
      rw [WikiTool.answer, sent]
      rfl
    rw [answer]
    refine iff_of_true (accepts_message (WikiTool.explains_request msg sent)) ?_
    intro mode arg req body same
    rw [sent] at same
    cases same
  | ok found =>
    obtain ⟨mode, arg, req⟩ := found
    rw [WikiTool.answer_of_sent sent]
    refine (accepts_content_iff (WikiTool.of_request sent)).trans ⟨?_, fun uncut body => ?_⟩
    · intro all _ _ _ body same
      rw [sent] at same
      cases same
      exact all body
    · exact uncut mode arg req body sent

end Wiki

/-! ### All of the tools -/

theorem fits_text (arguments : Arguments) : arguments.text.length ≤ WikiTool.maxRequestBytes :=
  arguments.fits

theorem search_answered_iff {tool : SearchTool} (sound : tool.Sound) (arguments : Arguments)
    (key : Bytes) (replies : Bytes → Option HostReply) (guest : Guest heapSize) :
    Answered guest (tool.handleToolCall key (hostCall tool.respMax replies) arguments.text
        arguments.text.length) ↔
      ∀ query results,
        tool.found key (hostCall tool.respMax replies) arguments.text = .ok (query, results) →
          tool.Uncut query results ∧ tool.resultLength query results ≤ maxResponseBytes :=
  SearchTool.answered_iff sound guest (clean_of_isText (isText_text arguments))
    (text_ne_nil arguments) (fits_text arguments) clean_hostCall

/-- **Answers of the tools.** The host accepts what is answered exactly if no text in it is cut
inside of a character and, of Exa, the object is not too long. -/
theorem tools_answer_iff (arguments : Arguments) (key : Bytes)
    (replies : Bytes → Option HostReply) (search : Guest heapSize)
    (wiki : Guest WikiTool.heapSize) :
    (Answered search (websearch.handleToolCall key (hostCall websearch.respMax replies)
        arguments.text arguments.text.length) ↔
      ∀ query results, websearch.found key (hostCall websearch.respMax replies) arguments.text =
        .ok (query, results) → websearch.Uncut query results) ∧
    (Answered search (exa.handleToolCall key (hostCall exa.respMax replies)
        arguments.text arguments.text.length) ↔
      ∀ query results, exa.found key (hostCall exa.respMax replies) arguments.text =
        .ok (query, results) →
          exa.Uncut query results ∧ exa.resultLength query results ≤ maxResponseBytes) ∧
    (Answered wiki (WikiTool.handleToolCall (hostCall WikiTool.respMax replies)
        arguments.text arguments.text.length) ↔ WikiUncut replies arguments.text) := by
  refine ⟨?_, search_answered_iff sound_exa arguments key replies search,
    wiki_answered_iff wiki (fits_text arguments)⟩
  refine (search_answered_iff sound_websearch arguments key replies search).trans ?_
  refine forall₃_congr fun query results found => and_iff_left ?_
  obtain ⟨isQuery, areClean, few⟩ := SearchTool.of_found sound_websearch
    (clean_of_isText (isText_text arguments)) clean_hostCall found
  exact resultLength_websearch_le isQuery areClean few

/-! ### A query with an accent -/

def accentQuery : List Char := List.replicate 59 'a' ++ ['é']

def accentArguments : Arguments where
  lead := noBlank
  value := .object noBlank [field "query" (.string (plainBody accentQuery))]
  trail := noBlank
  fits := by decide +kernel

def noResults : HostReply := ⟨200, "\x7b\"web\":\x7b\"results\":[]\x7d\x7d".toList⟩

def blankGuest : Guest heapSize where
  memory := ⟨List.replicate (1024 + heapSize) 0⟩
  base := 1024
  positive := by decide
  below := by decide
  inside := (List.length_replicate).ge

/-- The summary of such a query is cut inside of the accent. -/
theorem query_with_accent_is_refused :
    ¬ Answered blankGuest (websearch.handleToolCall (ascii "key")
      (hostCall websearch.respMax fun _ => some noResults) accentArguments.text
      accentArguments.text.length) := by
  have found : websearch.found (ascii "key")
      (hostCall websearch.respMax fun _ => some noResults) accentArguments.text =
        .ok (encode accentQuery, []) := by
    decide +kernel
  rw [search_answered_iff sound_websearch]
  intro all
  obtain ⟨⟨isUtf8, -⟩, -⟩ := all _ _ found
  have cut : (encode accentQuery).take 60 = encode (List.replicate 59 'a') ++ [0xC3] := by
    decide +kernel
  have isPart : IsPart [0xC3] := ⟨'é', ⟨[0xA9], by decide⟩, by decide⟩
  rw [cut, isUtf8_encode_append, isUtf8_part_iff isPart] at isUtf8
  cases isUtf8

end KelvinClaw.Plugin.ToolAnswers
