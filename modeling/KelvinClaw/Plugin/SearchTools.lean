import KelvinClaw.Library.BufferStatements
import KelvinClaw.Plugin.ResultTexts
import KelvinClaw.Plugin.WikiTool

/-!
# The search tools

Two plugins ask a search engine and list what it has found, with a number, the title, the address
and a few words for each result. They take the same steps; they differ in their arguments, in the
requests that they build of these, in the place of the results in a reply, and in what they list of
a result.
-/

namespace KelvinClaw.Plugin.SearchTools

open Systems Systems.Arena Systems.Json JsonScanner JsonStrings ToolCall WikiTool

/-- Both plugins have an arena of one MiB, and show what they have found. -/
def heapSize : ℕ := 1024 * 1024

def answering : Answering := ⟨heapSize, true⟩

/-! ### Arrays -/

def skipTo (opens : UInt8) : Bytes → Option Bytes
  | [] => none
  | b :: rest =>
    if b = closeBracket then none
    else if b = opens then some (b :: rest)
    else skipTo opens rest

/-- `ArrayIter::new`: what is left of the array. -/
def arrayIter (array : Bytes) : Bytes :=
  if array.head? = some openBracket then array.tail else array

/-- `next_object`, and what is left behind it. -/
def nextObject (left : Bytes) : Option (Bytes × Bytes) := do
  let here ← skipTo openBrace left
  let object ← matchingText here 0 openBrace closeBrace
  return (object, here.drop object.length)

/-- `next_string`. -/
def nextString (left : Bytes) : Option Bytes := do
  let here ← skipTo quote left
  extractStrValue here 0

/-- The objects that the loop comes to, up to some number of them. -/
def objects : ℕ → Bytes → List Bytes
  | 0, _ => []
  | count + 1, left =>
    match nextObject left with
    | none => []
    | some (object, left) => object :: objects count left

/-! ### Listings -/

/-- What is written of a listing. -/
inductive Put where
  | bytes (text : Bytes)
  | byte (b : UInt8)
  | number (k : ℕ)
  | unescape (raw : Bytes)

def Put.write {n : ℕ} : Put → Write UInt8 n
  | bytes text => writeBytes text
  | byte b => writeByte b
  | number k => writeU32 k
  | unescape raw => unescapeJsonStr raw

def newline : UInt8 := 0x0A

def fieldLines (result : Bytes) (name : String) : List (List Put) :=
  ((extractStrField result (ascii name)).map fun raw => [Put.unescape raw]).toList

def snippet (raw : Bytes) : List Put := [.bytes (ascii "   "), .unescape raw, .byte newline]

def resultLines (number : ℕ) (result : Bytes) (words : List (List Put)) : List (List Put) :=
  [.number number, .bytes (ascii ". ")] :: (fieldLines result "title" ++
    [[.byte newline], [.bytes (ascii "   ")]] ++ fieldLines result "url" ++
      [[.byte newline]] ++ words ++ [[.byte newline]])

/-! ### Calls -/

/-- What the plugins differ in. -/
structure SearchTool where
  Options : Type
  queryBuf : ℕ
  options : Bytes → Except Bytes Options
  count : Options → ℕ
  missingKey : String
  innerBuf : ℕ
  inner : Bytes → Options → Except Bytes Bytes
  requestBuf : ℕ
  request : Bytes → Bytes → Except Bytes Bytes
  message : String
  respMax : ℕ
  statusLabel : String
  results : Bytes → Except Bytes Bytes
  outBuf : ℕ
  words : Bytes → List (List Put)
  label : String

namespace SearchTool

def queryField (input : Bytes) : Except Bytes Bytes :=
  match extractStrField input (ascii "query") with
  | some query => .ok query
  | none => .error (ascii "missing query argument")

/-- The host gives no bytes for a variable that is not set. -/
def checkKey (error : String) (key : Bytes) : Except Bytes Unit :=
  if key = [] then .error (ascii error) else .ok ()

variable (tool : SearchTool)

def statusMessage (status : ℤ) : Bytes :=
  (((writeBytes (ascii tool.statusLabel)).andThen (writeU32 ((max status 0).toNat % 2 ^ 32)))
    (@Buffer.empty UInt8 64)).2.written

def checkStatus (resp : Bytes) : Except Bytes Unit :=
  let status := (extractIntField resp (ascii "status")).getD 0
  if status ≠ 200 then .error (tool.statusMessage status) else .ok ()

def entries : ℕ → List Bytes → List (List Put)
  | _, [] => []
  | number, result :: rest =>
    resultLines number result (tool.words result) ++ entries (number + 1) rest

def listing (results : List Bytes) : List (List Put) :=
  tool.entries 1 results ++
    if results = [] then [[.bytes (ascii "No results found.")]] else []

def outputText (results : List Bytes) : Bytes :=
  (runAll ((tool.listing results).map fun puts => puts.map Put.write)
    (@Buffer.empty UInt8 tool.outBuf)).written

def summaryText (query : Bytes) (number : ℕ) : Bytes :=
  (((writeBytes (ascii tool.label)).andThen ((writeBytes (query.take 60)).andThen
    ((writeBytes (ascii " (")).andThen ((writeU32 number).andThen
      (writeBytes (ascii " results)")))))) (@Buffer.empty UInt8 128)).2.written

section Calls

variable (env : Bytes) (httpCall : Bytes → Bytes) (input : Bytes)

/-- The steps of `handle_tool_call` up to the result. -/
def steps : Step Bytes (Bytes × Bytes) := do
  let raw ← lift (queryField input)
  answering.claim tool.queryBuf "alloc failed"
  let query ← lift (build tool.queryBuf (unescapeJsonStr raw) "query too long")
  let options ← lift (tool.options input)
  answering.claim 512 "alloc failed"
  lift (checkKey tool.missingKey env)
  answering.claim tool.innerBuf "alloc failed"
  let inner ← lift (tool.inner query options)
  answering.claim tool.requestBuf "alloc failed"
  let req ← lift (tool.request env inner)
  answering.logStr tool.message
  answering.claim tool.respMax "alloc failed for response buffer"
  let resp := httpCall req
  lift (checkResponse resp)
  answering.check 64 "non-200 HTTP response" (tool.checkStatus resp)
  let bodyRaw ← lift (responseBody resp)
  answering.claim tool.respMax "alloc failed for body buffer"
  let array ← lift (tool.results (unescapeInto tool.respMax bodyRaw))
  answering.claim tool.outBuf "alloc failed for output"
  let found := objects (tool.count options) (arrayIter array)
  answering.claim 128 "alloc failed"
  return (tool.summaryText query found.length, tool.outputText found)

/-- `handle_tool_call`, with what is free of the arena. -/
def handleToolCall (next : ℕ) : Option Region :=
  if input = [] then none else answering.respond (tool.steps env httpCall input) next

def sent : Except Bytes (Bytes × tool.Options × Bytes) := do
  let raw ← queryField input
  let query ← build tool.queryBuf (unescapeJsonStr raw) "query too long"
  let options ← tool.options input
  checkKey tool.missingKey env
  let inner ← tool.inner query options
  let req ← tool.request env inner
  return (query, options, req)

def content (resp : Bytes) (count : ℕ) : Except Bytes (List Bytes) := do
  checkResponse resp
  tool.checkStatus resp
  let bodyRaw ← responseBody resp
  let array ← tool.results (unescapeInto tool.respMax bodyRaw)
  return objects count (arrayIter array)

def found : Except Bytes (Bytes × List Bytes) := do
  let (query, options, req) ← tool.sent env input
  let results ← tool.content (httpCall req) (tool.count options)
  return (query, results)

/-- What is answered if there is room for everything. -/
def answer : Except Bytes (Bytes × Bytes) := do
  let (query, results) ← tool.found env httpCall input
  return (tool.summaryText query results.length, tool.outputText results)

def stepsCost : ℕ :=
  tool.queryBuf + 512 + tool.innerBuf + tool.requestBuf + (ascii tool.message).length +
    tool.respMax + 64 + tool.respMax + tool.outBuf + 128 + 10 * (align - 1)

/-- The buffers of a tool are not empty. -/
structure HasBuffers : Prop where
  query : 0 < tool.queryBuf
  inner : 0 < tool.innerBuf
  request : 0 < tool.requestBuf
  message : 0 < (ascii tool.message).length
  response : 0 < tool.respMax
  output : 0 < tool.outBuf

variable {tool}

theorem answer_eq : tool.answer env httpCall input = (do
    let raw ← queryField input
    let query ← build tool.queryBuf (unescapeJsonStr raw) "query too long"
    let options ← tool.options input
    checkKey tool.missingKey env
    let inner ← tool.inner query options
    let req ← tool.request env inner
    checkResponse (httpCall req)
    tool.checkStatus (httpCall req)
    let bodyRaw ← responseBody (httpCall req)
    let array ← tool.results (unescapeInto tool.respMax bodyRaw)
    return (tool.summaryText query (objects (tool.count options) (arrayIter array)).length,
      tool.outputText (objects (tool.count options) (arrayIter array)))) := by
  simp only [answer, found, sent, content, bind_assoc, pure_bind]

theorem yields_steps (buffers : tool.HasBuffers) :
    Yields answering.heapSize (tool.steps env httpCall input) tool.stepsCost
      (tool.answer env httpCall input) := by
  rw [answer_eq]
  unfold steps
  refine Yields.mono (Yields.bind (yields_lift _) fun _ _ =>
    Yields.after (Answering.yields_claim buffers.query _) <|
    Yields.bind (yields_lift _) fun _ _ =>
    Yields.bind (yields_lift _) fun _ _ =>
    Yields.after (Answering.yields_claim (Nat.succ_pos 511) _) <|
    Yields.bind (yields_lift _) fun _ _ =>
    Yields.after (Answering.yields_claim buffers.inner _) <|
    Yields.bind (yields_lift _) fun _ _ =>
    Yields.after (Answering.yields_claim buffers.request _) <|
    Yields.bind (yields_lift _) fun _ _ =>
    Yields.after (Answering.yields_logStr buffers.message) <|
    Yields.after (Answering.yields_claim buffers.response _) <|
    Yields.bind (yields_lift _) fun _ _ =>
    Yields.bind (Answering.yields_check (Nat.succ_pos 63) _ _) fun _ _ =>
    Yields.bind (yields_lift _) fun _ _ =>
    Yields.after (Answering.yields_claim buffers.response _) <|
    Yields.bind (yields_lift _) fun _ _ =>
    Yields.after (Answering.yields_claim buffers.output _) <|
    Yields.after (Answering.yields_claim (Nat.succ_pos 127) _) (yields_pure _)) ?_
  rw [stepsCost]
  omega

end Calls

end SearchTool

/-! ### The web search -/

/-- A number of results, which has to be in bounds. -/
def clampCount (most : ℤ) (given : Option ℤ) : ℕ := (min (max (given.getD 5) 1) most).toNat

def urlDigit (digit : UInt8) : UInt8 := if digit < 10 then 0x30 + digit else 0x41 + digit - 10

/-- The letters, the digits, and `-`, `_`, `.` and `~`. -/
def isUnreserved (b : UInt8) : Bool :=
  (0x61 ≤ b && b ≤ 0x7A) || (0x41 ≤ b && b ≤ 0x5A) || isDigit b || b = 0x2D || b = 0x5F ||
    b = 0x2E || b = 0x7E

/-- `url_encode`. -/
def urlEncode {n : ℕ} : Bytes → Write UInt8 n
  | [] => Write.done
  | b :: rest =>
    (if isUnreserved b then writeByte b
      else if b = 0x20 then writeByte 0x2B
      else (writeByte 0x25).andThen
        ((writeByte (urlDigit (b >>> 4))).andThen (writeByte (urlDigit (b &&& 0xF))))).andThen
      (urlEncode rest)

def websearch : SearchTool where
  Options := ℕ
  queryBuf := 1024
  options input := .ok (clampCount 20 (extractIntField input (ascii "count")))
  count := id
  missingKey := "BRAVE_API_KEY not set"
  innerBuf := 4096
  inner query count := build 4096
    (Write.all [writeBytes (ascii "https://api.search.brave.com/res/v1/web/search?q="),
      urlEncode query, writeBytes (ascii "&count="), writeU32 count])
    "failed to build URL"
  requestBuf := 8192
  request key url := build 8192
    (Write.all [writeBytes (ascii "\x7b\"url\":"), writeJsonStr url,
      writeBytes (ascii ",\"method\":\"GET\",\"headers\":\x7b\"X-Subscription-Token\":"),
      writeJsonStr key,
      writeBytes (ascii ",\"Accept\":\"application/json\"\x7d,\"body\":\"\"\x7d")])
    "failed to build request"
  message := "kelvin_websearch: calling Brave Search API"
  respMax := 128 * 1024
  statusLabel := "HTTP "
  results body :=
    match extractObjectField body (ascii "web") with
    | none => .error (ascii "missing 'web' field in Brave response")
    | some web =>
      match extractArrayField web (ascii "results") with
      | none => .error (ascii "missing 'results' in Brave response")
      | some results => .ok results
  outBuf := 32768
  words result := ((extractStrField result (ascii "description")).map snippet).toList
  label := "web search: "

/-! ### Exa -/

/-- `extract_bool_field`. -/
def extractBoolField (json field : Bytes) : Option Bool :=
  (findFieldValue json field).bind fun i =>
    if ascii "true" <+: json.drop i then some true
    else if ascii "false" <+: json.drop i then some false
    else none

def validSearchTypes : List String := ["auto", "neural", "fast"]

def validLivecrawl : List String := ["never", "fallback", "preferred", "always"]

def validCategories : List String :=
  ["company", "research paper", "news", "personal site", "financial report", "people"]

def allowedField (input : Bytes) (name : String) (allowlist : List String) (error : String) :
    Except Bytes (Option Bytes) :=
  match extractStrField input (ascii name) with
  | none => .ok none
  | some value =>
    if value ∈ allowlist.map ascii then .ok (some value) else .error (ascii error)

structure ExaOptions where
  numResults : ℕ
  type : Option Bytes
  category : Option Bytes
  livecrawl : Option Bytes
  includeDomains : Option Bytes
  excludeDomains : Option Bytes
  startDate : Option Bytes
  endDate : Option Bytes
  wantSummary : Bool

def exaOptions (input : Bytes) : Except Bytes ExaOptions := do
  let type ← allowedField input "type" validSearchTypes
    "invalid 'type' (use auto, neural, or fast)"
  let category ← allowedField input "category" validCategories "invalid 'category'"
  let livecrawl ← allowedField input "livecrawl" validLivecrawl "invalid 'livecrawl'"
  return {
    numResults := clampCount 25 (extractIntField input (ascii "num_results"))
    type, category, livecrawl
    includeDomains := extractArrayField input (ascii "include_domains")
    excludeDomains := extractArrayField input (ascii "exclude_domains")
    startDate := extractStrField input (ascii "start_published_date")
    endDate := extractStrField input (ascii "end_published_date")
    wantSummary := (extractBoolField input (ascii "summary")).getD false }

def stringWrites {n : ℕ} (head : String) (value : Option Bytes) : List (Write UInt8 n) :=
  match value with
  | none => []
  | some text => [writeBytes (ascii head), writeJsonStr text]

/-- A member of the request that is copied, if it is there. -/
def copyWrites {n : ℕ} (head : String) (value : Option Bytes) : List (Write UInt8 n) :=
  match value with
  | none => []
  | some text => [writeBytes (ascii head), writeBytes text]

def exaBody (query : Bytes) (options : ExaOptions) : Except Bytes Bytes :=
  build 8192
    (Write.all ([writeBytes (ascii "\x7b\"query\":"), writeJsonStr query,
        writeBytes (ascii ",\"numResults\":"), writeU32 options.numResults] ++
      stringWrites ",\"type\":" options.type ++
      stringWrites ",\"category\":" options.category ++
      copyWrites ",\"includeDomains\":" options.includeDomains ++
      copyWrites ",\"excludeDomains\":" options.excludeDomains ++
      stringWrites ",\"startPublishedDate\":" options.startDate ++
      stringWrites ",\"endPublishedDate\":" options.endDate ++
      [writeBytes (ascii
        ",\"contents\":\x7b\"highlights\":true,\"text\":\x7b\"maxCharacters\":500\x7d")] ++
      (if options.wantSummary then [writeBytes (ascii ",\"summary\":\x7b\x7d")] else []) ++
      stringWrites ",\"livecrawl\":" options.livecrawl ++
      [writeBytes (ascii "\x7d\x7d")]))
    "failed to build request body"

def filled (raw : Option Bytes) : Option Bytes := raw.filter fun text => text ≠ []

/-- The words of a result: its first highlight, its summary, or the beginning of its text. -/
def exaWords (result : Bytes) : List (List Put) :=
  let highlight := filled ((extractArrayField result (ascii "highlights")).bind fun highlights =>
    nextString (arrayIter highlights))
  match highlight <|> filled (extractStrField result (ascii "summary")) with
  | some raw => [snippet raw]
  | none =>
    match filled (extractStrField result (ascii "text")) with
    | none => []
    | some raw =>
      [[.bytes (ascii "   "), .unescape (raw.take 300)]] ++
        (if 300 < raw.length then [[.bytes (ascii "...")]] else []) ++ [[.byte newline]]

def exa : SearchTool where
  Options := ExaOptions
  queryBuf := 2048
  options := exaOptions
  count := ExaOptions.numResults
  missingKey := "EXA_API_KEY not set"
  innerBuf := 8192
  inner := exaBody
  requestBuf := 16384
  request key body := build 16384
    (Write.all [writeBytes (ascii ("\x7b\"url\":\"https://api.exa.ai/search\"," ++
        "\"method\":\"POST\",\"headers\":\x7b\"x-api-key\":")),
      writeJsonStr key,
      writeBytes (ascii (",\"x-exa-integration\":\"kelvinclaw\",\"Content-Type\":" ++
        "\"application/json\",\"Accept\":\"application/json\"\x7d,\"body\":")),
      writeJsonStr body, writeBytes (ascii "\x7d")])
    "failed to build HTTP request"
  message := "kelvin_exa_search: calling Exa /search API"
  respMax := 192 * 1024
  statusLabel := "Exa API HTTP "
  results body :=
    match extractArrayField body (ascii "results") with
    | none => .error (ascii "missing 'results' in Exa response")
    | some results => .ok results
  outBuf := 64 * 1024
  words := exaWords
  label := "exa search: "

end KelvinClaw.Plugin.SearchTools
