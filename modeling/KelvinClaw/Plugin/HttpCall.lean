import KelvinClaw.Library.AtomicText
import KelvinClaw.Library.LinearMemory
import KelvinClaw.Library.Words
import KelvinClaw.Plugin.HostAllowlist

/-!
# HTTP calls of skills

A skill hands the host a request in its memory and a region for the response. A request that the
host does not take gets zero and no bytes. For every other one the host writes a JSON object with a
status and a body, which is its own or the response of the network, and shrinks the body of a
response whose object does not fit into the region.

The body is cut in the middle of the region, counted in bytes, which panics if that is inside a
character. This is the only way in which a call goes wrong.

The libraries for JSON, URLs and HTTP are parameters, and so is what the network answers.
-/

namespace KelvinClaw.Plugin

open KelvinClaw.Core Systems

/-! ### Libraries -/

inductive Method where
  | get
  | post
  | put
  | delete
  | patch
  deriving DecidableEq, Repr

structure HttpRequest where
  method : Method
  url : String
  headers : List (String × String)
  body : Option String
  deriving DecidableEq, Repr

/-- A response; its text may fail to arrive. -/
structure HttpResponse where
  status : UInt16
  text : Except String String

/-- The libraries, with the client of the host and what the network answers. -/
structure HttpLibraries where
  parseJson : List UInt8 → Except String Value
  toJsonText : Value → String
  parseUrl : String → Except String Url
  toUppercase : String → String
  client : Except String Unit
  send : HttpRequest → Except String HttpResponse

/-- What the host sees of a skill: its memory, if it is exported, and the calls so far. -/
structure SkillCaller where
  memory : Option (LinearMemory UInt8)
  calls : List ClawCall

/-! ### Requests -/

def defaultMaxRequestBytes : ℕ := 256 * 1024

def blockedHeaders : List String :=
  ["host", "authorization", "proxy-authorization", "cookie", "set-cookie", "transfer-encoding",
    "te", "connection", "upgrade"]

def sentHeaders (req : Value) : List (String × String) :=
  (((req.get "headers").bind Value.asObject).getD []).filterMap fun (name, value) => do
    let value ← value.asStr
    guard (toAsciiLowercase name ∉ blockedHeaders)
    return (name, value)

variable (libraries : HttpLibraries) (allowHosts : List String)

namespace HttpLibraries

def buildRequest (req : Value) (url : String) : HttpRequest :=
  let body := ((req.get "body").bind Value.asStr).getD ""
  let request (method : Method) (body : Option String) : HttpRequest :=
    { method, url, headers := sentHeaders req, body }
  match libraries.toUppercase (((req.get "method").bind Value.asStr).getD "GET") with
  | "POST" => request .post (some body)
  | "PUT" => request .put (some body)
  | "DELETE" => request .delete none
  | "PATCH" => request .patch (some body)
  | _ => request .get none

/-- The request of a call and its URL; the call returns zero if there is none. -/
def takeRequest (caller : SkillCaller) (reqPtr reqLen respPtr respMaxLen : Int32) :
    Option (Value × String) := do
  guard (¬ (reqPtr < 0 ∨ reqLen ≤ 0 ∨ respPtr < 0 ∨ respMaxLen ≤ 0 ∨
    defaultMaxRequestBytes < reqLen.toNatClampNeg))
  let memory ← caller.memory
  let reqBytes ← memory.read reqPtr.toNatClampNeg reqLen.toNatClampNeg
  let req ← (libraries.parseJson reqBytes).toOption
  let url ← (req.get "url").bind Value.asStr
  return (req, url)

def hostname (url : String) : Option String :=
  ((libraries.parseUrl url).toOption.bind Url.hostStr).filter (· ≠ "")

/-! ### Replies -/

end HttpLibraries

def truncationMark : String := "...[truncated]"

def tooLarge : String := "[response too large]"

/-- What a request gets: an object of the host itself, or the response of the network. -/
inductive Reply where
  | own (status : ℕ) (body : String)
  | received (status : UInt16) (text : String)
  deriving DecidableEq, Repr

def Reply.status : Reply → ℕ
  | .own status _ => status
  | .received status _ => status.toNat

/-- The bodies of the smallest objects for a reply: the body as it is, or a notice in its place. -/
def Reply.bodies : Reply → List String
  | .own _ body => [body]
  | .received _ text => [text, tooLarge]

namespace HttpLibraries

def reply (req : Value) (url : String) : Reply :=
  match libraries.hostname url with
  | none => .own 400 "invalid or missing hostname in URL"
  | some hostname =>
    if clawHostAllowed hostname allowHosts = false then
      .own 403 "host not allowed by sandbox policy"
    else
      match libraries.client with
      | .error err => .own 0 s!"client error: {err}"
      | .ok () =>
        match libraries.send (libraries.buildRequest req url) with
        | .ok response => .received response.status (response.text.toOption.getD "")
        | .error err => .own 0 s!"request error: {err}"

def respJson (status : ℕ) (body : String) : String :=
  libraries.toJsonText (Value.object [("status", .num status), ("body", .str body)])

/-- The object for a response whose body is cut, or with a notice as its body. -/
def cutJson (status : ℕ) (head : List Char) (cap : ℕ) : String :=
  let json := libraries.respJson status (String.ofList head ++ truncationMark)
  if json.utf8ByteSize ≤ cap then json else libraries.respJson status tooLarge

/-- The object for a response, with a smaller body if it does not fit; a cut inside a character
panics. -/
def shrink (status : ℕ) (text : String) (cap : ℕ) : Option String :=
  let json := libraries.respJson status text
  if json.utf8ByteSize ≤ cap then some json
  else
    let half := cap / 2
    (AtomicText.splitAt text.toList (min text.utf8ByteSize half)).map fun (head, _) =>
      libraries.cutJson status head cap

def render (reply : Reply) (cap : ℕ) : Option String :=
  match reply with
  | .own status body => some (libraries.respJson status body)
  | .received status text => libraries.shrink status.toNat text cap

def Fits (reply : Reply) (cap : ℕ) : Prop :=
  ∃ body ∈ reply.bodies, (libraries.respJson reply.status body).utf8ByteSize ≤ cap

end HttpLibraries

/-- `write_resp_to_buf`. -/
def writeRespToBuf (caller : SkillCaller) (respJson : String) (respPtr respMaxLen : Int32) :
    Int32 × SkillCaller :=
  let respBytes := respJson.toUTF8.data.toList
  let writeLen := min respBytes.length respMaxLen.toNatClampNeg
  if writeLen = 0 then (0, caller)
  else
    match caller.memory with
    | none => (0, caller)
    | some memory =>
      match memory.write respPtr.toNatClampNeg (respBytes.take writeLen) with
      | none => (0, caller)
      | some memory => (Int32.ofNat writeLen, { caller with memory := some memory })

/-- `http_call`; a panic gives nothing. -/
def httpCall (caller : SkillCaller) (reqPtr reqLen respPtr respMaxLen : Int32) :
    Option (Int32 × SkillCaller) :=
  match libraries.takeRequest caller reqPtr reqLen respPtr respMaxLen with
  | none => some (0, caller)
  | some (req, url) => do
    let caller :=
      if (libraries.hostname url).isSome then
        { caller with calls := caller.calls ++ [.httpCall url] }
      else caller
    let respJson ← libraries.render (libraries.reply allowHosts req url) respMaxLen.toNatClampNeg
    return writeRespToBuf caller respJson respPtr respMaxLen

/-! ### Objects that fit -/

section Objects

variable {libraries : HttpLibraries} {status cap : ℕ} {text json : String}

theorem splitAt_eq_none_iff {half : ℕ} :
    AtomicText.splitAt text.toList (min text.utf8ByteSize half) = none ↔
      half < text.utf8ByteSize ∧ ¬ AtomicText.IsBoundary text.toList half := by
  rw [← Option.not_isSome_iff_eq_none, ← AtomicText.IsBoundary]
  rcases lt_or_ge half text.utf8ByteSize with inside | behind
  · rw [min_eq_right inside.le, and_iff_right inside]
  · refine iff_of_false (not_not.mpr ?_) fun cut => absurd cut.1 (not_lt.mpr behind)
    have whole := AtomicText.isBoundary_append text.toList []
    rwa [List.append_nil, AtomicText.byteLength_toList, ← min_eq_left behind] at whole

theorem shrink_eq_none_iff :
    libraries.shrink status text cap = none ↔
      cap < (libraries.respJson status text).utf8ByteSize ∧
        cap / 2 < text.utf8ByteSize ∧ ¬ AtomicText.IsBoundary text.toList (cap / 2) := by
  rw [← splitAt_eq_none_iff]
  unfold HttpLibraries.shrink
  by_cases fits : (libraries.respJson status text).utf8ByteSize ≤ cap
  · rw [if_pos fits]
    exact iff_of_false (Option.some_ne_none _) fun cut => absurd fits (not_le.mpr cut.1)
  · rw [if_neg fits, and_iff_right (not_le.mp fits), Option.map_eq_none_iff]

/-- What a response is shrunk to is an object with its status. It fits into the region, if the
whole object or the one with the notice does. -/
theorem of_shrink (shrunk : libraries.shrink status text cap = some json) :
    (∃ body, json = libraries.respJson status body) ∧
      ∀ body ∈ [text, tooLarge], (libraries.respJson status body).utf8ByteSize ≤ cap →
        json.utf8ByteSize ≤ cap := by
  simp only [HttpLibraries.shrink] at shrunk
  split_ifs at shrunk with fits
  · obtain rfl := Option.some.inj shrunk
    exact ⟨⟨text, rfl⟩, fun _ _ _ => fits⟩
  obtain ⟨⟨head, tail⟩, -, rfl⟩ := Option.map_eq_some_iff.mp shrunk
  simp only [HttpLibraries.cutJson]
  split_ifs with short
  · exact ⟨⟨_, rfl⟩, fun _ _ _ => short⟩
  · -- the whole object does not fit, so the one with the notice does
    refine ⟨⟨_, rfl⟩, fun body member small => ?_⟩
    rcases List.mem_pair.mp member with rfl | rfl
    · exact absurd small fits
    · exact small

theorem of_render {reply : Reply} (rendered : libraries.render reply cap = some json) :
    (∃ body, json = libraries.respJson reply.status body) ∧
      (libraries.Fits reply cap → json.utf8ByteSize ≤ cap) := by
  cases reply with
  | own status body =>
    obtain rfl := Option.some.inj rendered
    refine ⟨⟨body, rfl⟩, ?_⟩
    rintro ⟨_, member, small⟩
    obtain rfl := List.mem_singleton.mp member
    exact small
  | received status text =>
    obtain ⟨object, small⟩ := of_shrink rendered
    exact ⟨object, fun ⟨body, member, fits⟩ => small body member fits⟩

end Objects

/-! ### The call -/

section Call

variable {libraries : HttpLibraries} {allowHosts : List String} {caller : SkillCaller}
  {memory : LinearMemory UInt8} {reqPtr reqLen respPtr respMaxLen : Int32}

theorem length_toUTF8 (s : String) : s.toUTF8.data.toList.length = s.utf8ByteSize := by
  rfl

theorem writeRespToBuf_eq (json : String) (exported : caller.memory = some memory)
    (valid : respPtr.toNatClampNeg + respMaxLen.toNatClampNeg ≤ memory.size) :
    ∃ n memory', writeRespToBuf caller json respPtr respMaxLen =
        (n, { caller with memory := some memory' }) ∧
      0 ≤ n ∧ n.toNatClampNeg = min json.utf8ByteSize respMaxLen.toNatClampNeg ∧
      memory.AgreesOutside respPtr.toNatClampNeg n.toNatClampNeg memory' ∧
      memory'.read respPtr.toNatClampNeg n.toNatClampNeg =
        some (json.toUTF8.data.toList.take respMaxLen.toNatClampNeg) := by
  have length := length_toUTF8 json
  have bound := respMaxLen.toNatClampNeg_lt
  rw [writeRespToBuf, length, exported]
  generalize json.toUTF8.data.toList = bytes at length ⊢
  generalize counted : min json.utf8ByteSize respMaxLen.toNatClampNeg = count
  have taken : bytes.take respMaxLen.toNatClampNeg = bytes.take count := by
    rw [List.take_eq_take_iff, length]
    omega
  have size : (bytes.take count).length = count := by
    rw [List.length_take, length]
    omega
  have small : (Int32.ofNat count).toNatClampNeg = count := toNatClampNeg_ofNat (by omega)
  rw [taken]
  by_cases empty : count = 0
  · -- nothing is written
    refine ⟨0, memory, ?_, by decide, empty.symm, LinearMemory.AgreesOutside.refl, ?_⟩
    · rw [if_pos empty, ← exported]
    · rw [empty, List.take_zero]
      exact LinearMemory.read_zero (le_trans (Nat.le_add_right _ _) valid)
  · obtain ⟨memory', written⟩ : ∃ memory',
        memory.write respPtr.toNatClampNeg (bytes.take count) = some memory' :=
      LinearMemory.write_eq_some (by omega)
    refine ⟨Int32.ofNat count, memory', ?_, ofNat_nonneg (by omega), small, ?_, ?_⟩
    · simp only [if_neg empty, written]
    · rw [small, ← size]
      exact LinearMemory.agreesOutside_of_write written
    · have read := LinearMemory.read_of_write written
      rw [size] at read
      rw [small]
      exact read

variable (libraries allowHosts caller memory reqPtr reqLen respPtr respMaxLen) in
/-- What a call leaves: a number of bytes that is at most the length of the region, and the region
with as many bytes. They are one object with the status of the reply, if some object for the reply
fits; there are none without a request. -/
structure Answered (n : Int32) (memory' : LinearMemory UInt8) : Prop where
  nonneg : 0 ≤ n
  le : n.toNatClampNeg ≤ respMaxLen.toNatClampNeg
  frame : memory.AgreesOutside respPtr.toNatClampNeg n.toNatClampNeg memory'
  idle : libraries.takeRequest caller reqPtr reqLen respPtr respMaxLen = none → n = 0
  object : ∀ req url, libraries.takeRequest caller reqPtr reqLen respPtr respMaxLen =
    some (req, url) → libraries.Fits (libraries.reply allowHosts req url)
      respMaxLen.toNatClampNeg → ∃ body, memory'.read respPtr.toNatClampNeg n.toNatClampNeg =
        some (libraries.respJson (libraries.reply allowHosts req url).status
          body).toUTF8.data.toList

variable (libraries allowHosts caller memory reqPtr reqLen respPtr respMaxLen) in
def Answers : Prop :=
  ∃ n memory' calls,
    httpCall libraries allowHosts caller reqPtr reqLen respPtr respMaxLen =
      some (n, ⟨some memory', calls⟩) ∧
    Answered libraries allowHosts caller memory reqPtr reqLen respPtr respMaxLen n memory'

variable (libraries allowHosts caller reqPtr reqLen respPtr respMaxLen) in
/-- The network has responded with a text whose object does not fit into the region, and the middle
of the region, counted in bytes, is inside a character of the text. -/
def CutsCharacter : Prop :=
  ∃ req url status text,
    libraries.takeRequest caller reqPtr reqLen respPtr respMaxLen = some (req, url) ∧
    libraries.reply allowHosts req url = .received status text ∧
    respMaxLen.toNatClampNeg < (libraries.respJson status.toNat text).utf8ByteSize ∧
    respMaxLen.toNatClampNeg / 2 < text.utf8ByteSize ∧
    ¬ AtomicText.IsBoundary text.toList (respMaxLen.toNatClampNeg / 2)

theorem takeRequest_eq_some {reqBytes : List UInt8} {req : Value} {url : String}
    (pointers : ¬ (reqPtr < 0 ∨ reqLen ≤ 0 ∨ respPtr < 0 ∨ respMaxLen ≤ 0 ∨
      defaultMaxRequestBytes < reqLen.toNatClampNeg)) (exported : caller.memory = some memory)
    (read : memory.read reqPtr.toNatClampNeg reqLen.toNatClampNeg = some reqBytes)
    (parses : libraries.parseJson reqBytes = .ok req)
    (named : (req.get "url").bind Value.asStr = some url) :
    libraries.takeRequest caller reqPtr reqLen respPtr respMaxLen = some (req, url) := by
  rw [HttpLibraries.takeRequest, guard, if_pos pointers, exported]
  simp only [Option.pure_def, Option.bind_eq_bind, Option.bind_some, read, parses,
    Except.toOption, named]

theorem httpCall_of_not_taken
    (idle : libraries.takeRequest caller reqPtr reqLen respPtr respMaxLen = none) :
    httpCall libraries allowHosts caller reqPtr reqLen respPtr respMaxLen = some (0, caller) := by
  rw [httpCall, idle]

theorem httpCall_of_taken (allowHosts : List String) {req : Value} {url : String}
    (taken : libraries.takeRequest caller reqPtr reqLen respPtr respMaxLen = some (req, url)) :
    ∃ calls, httpCall libraries allowHosts caller reqPtr reqLen respPtr respMaxLen =
      (libraries.render (libraries.reply allowHosts req url) respMaxLen.toNatClampNeg).map
        fun json => writeRespToBuf ⟨caller.memory, calls⟩ json respPtr respMaxLen := by
  rw [httpCall, taken]
  cases found : (libraries.hostname url).isSome
  · refine ⟨caller.calls, ?_⟩
    simp only [found, Bool.false_eq_true, if_false]
    exact (Option.map_eq_bind).symm
  · refine ⟨caller.calls ++ [.httpCall url], ?_⟩
    simp only [found, if_true]
    exact (Option.map_eq_bind).symm

theorem render_eq_none_iff {reply : Reply} {cap : ℕ} :
    libraries.render reply cap = none ↔ ∃ status text, reply = .received status text ∧
      cap < (libraries.respJson status.toNat text).utf8ByteSize ∧
        cap / 2 < text.utf8ByteSize ∧ ¬ AtomicText.IsBoundary text.toList (cap / 2) := by
  cases reply with
  | own status body =>
    refine iff_of_false (Option.some_ne_none _) ?_
    rintro ⟨_, _, ⟨⟩, -⟩
  | received status text =>
    rw [HttpLibraries.render, shrink_eq_none_iff]
    constructor
    · exact fun cut => ⟨status, text, rfl, cut⟩
    · rintro ⟨_, _, ⟨⟩, cut⟩
      exact cut

theorem httpCall_eq_none_iff :
    httpCall libraries allowHosts caller reqPtr reqLen respPtr respMaxLen = none ↔
      CutsCharacter libraries allowHosts caller reqPtr reqLen respPtr respMaxLen := by
  cases taken : libraries.takeRequest caller reqPtr reqLen respPtr respMaxLen with
  | none =>
    rw [httpCall_of_not_taken taken]
    refine iff_of_false (Option.some_ne_none _) ?_
    rintro ⟨req, url, status, text, found, -⟩
    exact Option.some_ne_none _ (found.symm.trans taken)
  | some request =>
    obtain ⟨req, url⟩ := request
    obtain ⟨calls, same⟩ := httpCall_of_taken allowHosts taken
    rw [same, Option.map_eq_none_iff, render_eq_none_iff]
    constructor
    · rintro ⟨status, text, received, cut⟩
      exact ⟨req, url, status, text, taken, received, cut⟩
    · rintro ⟨req', url', status, text, found, received, cut⟩
      obtain ⟨rfl, rfl⟩ := Prod.mk.inj (Option.some.inj (taken.symm.trans found))
      exact ⟨status, text, received, cut⟩

theorem answers_of_httpCall (exported : caller.memory = some memory)
    (valid : respPtr.toNatClampNeg + respMaxLen.toNatClampNeg ≤ memory.size)
    (returns : httpCall libraries allowHosts caller reqPtr reqLen respPtr respMaxLen ≠ none) :
    Answers libraries allowHosts caller memory reqPtr reqLen respPtr respMaxLen := by
  cases taken : libraries.takeRequest caller reqPtr reqLen respPtr respMaxLen with
  | none =>
    refine ⟨0, memory, caller.calls, ?_, by decide, Nat.zero_le _, LinearMemory.AgreesOutside.refl,
      fun _ => rfl, fun req url found => ?_⟩
    · rw [httpCall_of_not_taken taken, ← exported]
    · exact absurd (found.symm.trans taken) (Option.some_ne_none _)
  | some request =>
    obtain ⟨req, url⟩ := request
    obtain ⟨calls, same⟩ := httpCall_of_taken allowHosts taken
    rw [same] at returns
    cases rendered : libraries.render (libraries.reply allowHosts req url)
        respMaxLen.toNatClampNeg with
    | none => exact absurd (by rw [rendered]; rfl) returns
    | some json =>
      obtain ⟨⟨body, object⟩, small⟩ := of_render rendered
      have kept : (⟨caller.memory, calls⟩ : SkillCaller).memory = some memory := exported
      obtain ⟨n, memory', written, nonneg, count, frame, read⟩ := writeRespToBuf_eq json kept valid
      refine ⟨n, memory', calls, ?_, nonneg, count ▸ min_le_right _ _, frame,
        fun idle => absurd (taken.symm.trans idle) (Option.some_ne_none _),
        fun req' url' found fits => ?_⟩
      · rw [same, rendered, Option.map_some, written]
      · obtain ⟨rfl, rfl⟩ := Prod.mk.inj (Option.some.inj (taken.symm.trans found))
        refine ⟨body, ?_⟩
        rw [read, ← object, List.take_of_length_le]
        rw [length_toUTF8]
        exact small fits

end Call

/-- A call with a valid region answers exactly if it does not cut a character. -/
theorem http_call_answers_iff (libraries : HttpLibraries) (allowHosts : List String)
    (caller : SkillCaller) (memory : LinearMemory UInt8) (reqPtr reqLen respPtr respMaxLen : Int32)
    (exported : caller.memory = some memory)
    (valid : respPtr.toNatClampNeg + respMaxLen.toNatClampNeg ≤ memory.size) :
    Answers libraries allowHosts caller memory reqPtr reqLen respPtr respMaxLen ↔
      ¬ CutsCharacter libraries allowHosts caller reqPtr reqLen respPtr respMaxLen := by
  rw [← httpCall_eq_none_iff]
  refine ⟨?_, answers_of_httpCall exported valid⟩
  rintro ⟨n, memory', calls, returns, -⟩ panics
  exact Option.some_ne_none _ (returns.symm.trans panics)

/-! ### A site -/

/-- The text of a response object without characters that JSON escapes. -/
def plainJsonText : Value → String
  | .obj [("body", .str body), ("status", .num status)] =>
    "\x7b\"body\":\"" ++ body ++ "\",\"status\":" ++ toString status ++ "\x7d"
  | _ => "null"

def siteLibraries (text : String) : HttpLibraries where
  parseJson _ := .ok (Value.object [("url", .str "https://example.com/")])
  toJsonText := plainJsonText
  parseUrl _ := .ok (hostUrl "example.com" (by decide))
  toUppercase method := String.ofList (method.toList.map Char.toUpper)
  client := .ok ()
  send _ := .ok ⟨200, .ok text⟩

def siteRequest : List UInt8 := "\x7b\"url\":\"https://example.com/\"\x7d".toUTF8.data.toList

def siteMemory : LinearMemory UInt8 := ⟨siteRequest ++ List.replicate 65506 0⟩

def siteCaller : SkillCaller := ⟨some siteMemory, []⟩

theorem size_siteMemory : siteMemory.size = 65536 := by
  have request : siteRequest.length = 30 := by decide
  rw [siteMemory, LinearMemory.size, List.length_append, List.length_replicate, request]

theorem short_text_answers :
    Answers (siteLibraries "ok") ["example.com"] siteCaller siteMemory 0 30 1024 50 := by
  refine (http_call_answers_iff _ _ siteCaller siteMemory 0 30 1024 50 rfl ?_).mpr ?_
  · rw [size_siteMemory]
    decide
  · rintro ⟨req, url, status, text, -, received, long, -⟩
    have reply : (siteLibraries "ok").reply ["example.com"] req url = .received 200 "ok" := rfl
    obtain ⟨rfl, rfl⟩ := Reply.received.inj (reply.symm.trans received)
    exact absurd long (by decide)

/-- A text of thirty accented letters: the middle of a region of fifty bytes is inside the
thirteenth. -/
theorem accented_text_panics :
    1024 + 50 ≤ siteMemory.size ∧
      httpCall (siteLibraries (String.ofList (List.replicate 30 'é'))) ["example.com"] siteCaller
        0 30 1024 50 = none := by
  have read : siteMemory.read (0 : Int32).toNatClampNeg (30 : Int32).toNatClampNeg =
      some siteRequest := LinearMemory.read_append siteRequest _
  refine ⟨by rw [size_siteMemory]; decide, httpCall_eq_none_iff.mpr
    ⟨Value.object [("url", .str "https://example.com/")], "https://example.com/", 200,
      String.ofList (List.replicate 30 'é'), ?_, rfl, by decide, by decide, by decide⟩⟩
  exact takeRequest_eq_some (by decide) rfl read rfl rfl

end KelvinClaw.Plugin
