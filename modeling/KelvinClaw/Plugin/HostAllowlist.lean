import KelvinClaw.Core.LowerCase
import KelvinClaw.Core.Splitting
import KelvinClaw.Library.Collect
import KelvinClaw.Plugin.ProviderTransport
import KelvinClaw.Sdk.SensitiveTools

/-!
# What a list of host patterns allows

A pattern names any host, a domain with its subdomains, a host, or a host with a port. Three places
decide whether a URL is allowed, and each gets the patterns in its own way: a call of a tool has
them as the manifest spells them, the transport of a model provider as the loader normalized them,
and the web tool reads them from one text, separated by commas.

All of them compare a pattern with the host alone, so that a pattern with a port allows nothing;
and the web tool does not know the pattern for any host.
-/

namespace KelvinClaw.Plugin

open KelvinClaw.Core KelvinClaw.Sdk Systems

/-! ### The meaning of patterns -/

/-- A parsed URL: its host, which is not blank if there is one, and its port, which may be that of
the scheme. -/
structure Url where
  hostStr : Option String
  port : Option ℕ
  named : ∀ host ∈ hostStr, trim host ≠ ""

def Url.host (url : Url) : Option String := url.hostStr.map fun host => toAsciiLowercase (trim host)

/-- The patterns that name a host without a port. -/
inductive DenotesHost : String → String → Prop
  | host (host : String) : DenotesHost host host
  | domain (domain : String) : DenotesHost domain ("*." ++ domain)
  | subdomain (label domain : String) : DenotesHost (label ++ "." ++ domain) ("*." ++ domain)

/-- A pattern in lower case denotes a URL. -/
inductive Denotes (url : Url) : String → Prop
  | any {host : String} (present : url.host = some host) : Denotes url "*"
  | named {host pattern : String} (present : url.host = some host)
      (denotes : DenotesHost host pattern) : Denotes url pattern
  | withPort {host digits : String} {port : ℕ} (present : url.host = some host)
      (reads : parseUsize digits.toList = some port) (same : url.port = some port) :
      Denotes url (host ++ ":" ++ digits)

/-! ### The places where a URL is allowed -/

/-- `claw_host_allowed`. -/
def clawHostAllowed (hostname : String) (allowed : List String) : Bool :=
  let host := toAsciiLowercase (trim hostname)
  allowed.any fun pattern => patternCovers host (toAsciiLowercase (trim pattern))

/-- The check of `http_call`, which refuses a URL without a host. -/
def httpCallPermits (allowHosts : List String) (url : Url) : Bool :=
  match url.hostStr with
  | some hostname => hostname ≠ "" && clawHostAllowed hostname allowHosts
  | none => false

/-- The check of the model transport, for a profile whose base URL is fixed. -/
def transportPermits (networkAllowHosts : List String) (url : Url) : Bool :=
  match url.hostStr with
  | some host => hostAllowed host networkAllowHosts
  | none => false

def webToolPermits (webAllowHosts : List String) (url : Url) : Bool :=
  match url.hostStr with
  | some host => SafeWebFetchTool.hostAllowed host webAllowHosts
  | none => false

/-- `Vec::dedup`: of equal neighbours one is kept. -/
def dedup {α : Type} [DecidableEq α] : List α → List α
  | [] => []
  | item :: rest =>
    match rest with
    | [] => [item]
    | next :: _ => if item = next then dedup rest else item :: dedup rest

/-- The patterns in a text that separates them by commas. -/
def parseHostAllowlist (raw : String) : List String :=
  let items := (raw.toList.splitOn ',').map fun item => trim (String.ofList item)
  dedup (sortByKey id ((items.filter fun item => item ≠ "").map toAsciiLowercase))

def joinHosts (patterns : List String) : String :=
  String.ofList ([','].intercalate (patterns.map String.toList))

/-! ### Normalized patterns -/

def normal (pattern : String) : String := toAsciiLowercase (trim pattern)

theorem normalizeHostPattern_eq_ok {input pattern : String}
    (accepted : normalizeHostPattern input = .ok pattern) :
    pattern = normal input ∧ pattern ≠ "" ∧
      ∀ c ∈ pattern.toList, isWhitespace c = false ∧ c ≠ ',' := by
  unfold normalizeHostPattern at accepted
  obtain ⟨nonempty, accepted⟩ := bind_unit_eq_ok.mp accepted
  obtain ⟨plain, accepted⟩ := bind_unit_eq_ok.mp accepted
  obtain ⟨valid, same⟩ := bind_unit_eq_ok.mp accepted
  obtain rfl := Except.ok.inj same
  refine ⟨rfl, refuseIf_eq_ok.mp nonempty, fun c member => ⟨?_, ?_⟩⟩
  · have none := refuseIf_eq_ok.mp plain
    rw [List.any_eq_true] at none
    by_contra white
    exact none ⟨c, member, by simp [Bool.eq_true_of_not_eq_false white]⟩
  · rintro rfl
    have all := refuseIf_eq_ok.mp valid
    rw [Bool.not_eq_false] at all
    exact absurd (List.all_eq_true.mp all ',' member) (by decide)

theorem mapM_normalizeHostPattern {patterns normalized : List String}
    (accepted : patterns.mapM normalizeHostPattern = .ok normalized) :
    normalized = patterns.map normal ∧ ∀ pattern ∈ normalized, pattern ≠ "" ∧
      ∀ c ∈ pattern.toList, isWhitespace c = false ∧ c ≠ ',' := by
  induction patterns generalizing normalized with
  | nil =>
    obtain rfl := pure_eq_ok.mp accepted
    exact ⟨rfl, nofun⟩
  | cons input rest ih =>
    rw [List.mapM_cons, bind_eq_ok] at accepted
    obtain ⟨pattern, here, accepted⟩ := accepted
    obtain ⟨others, there, packed⟩ := bind_eq_ok.mp accepted
    obtain rfl := pure_eq_ok.mp packed
    obtain ⟨rfl, valid⟩ := normalizeHostPattern_eq_ok here
    obtain ⟨rfl, all⟩ := ih there
    exact ⟨rfl, List.forall_mem_cons.mpr ⟨valid, all⟩⟩

theorem normal_eq_self {input : String} (plain : ∀ c ∈ (normal input).toList,
    isWhitespace c = false) : normal (normal input) = normal input := by
  rw [normal, trim_eq_self plain, normal, toAsciiLowercase_toAsciiLowercase]

/-! ### What a pattern covers -/

theorem denotesHost_iff {host pattern : String} :
    DenotesHost host pattern ↔ host = pattern ∨ ∃ domain, pattern = "*." ++ domain ∧
      (host = domain ∨ ∃ label, host = label ++ "." ++ domain) := by
  constructor
  · intro denotes
    cases denotes with
    | host => exact .inl rfl
    | domain => exact .inr ⟨_, rfl, .inl rfl⟩
    | subdomain label => exact .inr ⟨_, rfl, .inr ⟨label, rfl⟩⟩
  · rintro (rfl | ⟨domain, rfl, rfl | ⟨label, rfl⟩⟩)
    · exact .host _
    · exact .domain _
    · exact .subdomain _ _

theorem denotesHost_wildcard {host : String} {domain : List Char} :
    DenotesHost host (String.ofList ('*' :: '.' :: domain)) ↔
      host.toList = domain ∨ ('.' :: domain) <:+ host.toList := by
  rw [denotesHost_iff]
  constructor
  · rintro (rfl | ⟨name, same, rfl | ⟨label, rfl⟩⟩)
    · exact .inr (by simp [List.suffix_cons])
    · have chars := congrArg String.toList same
      simp only [String.toList_ofList, String.toList_append] at chars
      exact .inl (List.cons.inj (List.cons.inj chars).2).2.symm
    · have chars := congrArg String.toList same
      simp only [String.toList_ofList, String.toList_append] at chars
      obtain rfl : domain = name.toList := (List.cons.inj (List.cons.inj chars).2).2
      exact .inr ⟨label.toList, by simp⟩
  · have pattern : String.ofList ('*' :: '.' :: domain) = "*." ++ String.ofList domain := by
      apply String.ext
      simp
    rintro (same | ⟨label, split⟩)
    · exact .inr ⟨String.ofList domain, pattern, .inl (by rw [← same, String.ofList_toList])⟩
    · refine .inr ⟨String.ofList domain, pattern, .inr ⟨String.ofList label, ?_⟩⟩
      apply String.ext
      simp [← split]

theorem denotesHost_of_plain {host pattern : String}
    (plain : ∀ domain, pattern.toList ≠ '*' :: '.' :: domain) :
    DenotesHost host pattern ↔ host = pattern := by
  rw [denotesHost_iff]
  refine or_iff_left ?_
  rintro ⟨domain, rfl, -⟩
  exact plain domain.toList (by simp)

theorem patternCovers_iff {host pattern : String} (nonempty : pattern ≠ "") :
    patternCovers host pattern ↔ pattern = "*" ∨ DenotesHost host pattern := by
  unfold patternCovers
  rw [if_neg nonempty]
  by_cases star : pattern = "*"
  · simp [star]
  · rw [if_neg star, or_iff_right star]
    split
    · next domain chars =>
      have whole : pattern = String.ofList ('*' :: '.' :: domain) :=
        String.ext (by rw [chars, String.toList_ofList])
      rw [whole, denotesHost_wildcard]
      simp
    · next plain => simp [denotesHost_of_plain plain]

/-! ### What the places allow -/

section Places

variable {patterns normalized : List String} {url : Url}

def NamesHost (patterns : List String) (url : Url) : Prop :=
  ∃ pattern ∈ patterns, ∃ host ∈ url.host, DenotesHost host pattern

def Allows (patterns : List String) (url : Url) : Prop := ∃ pattern ∈ patterns, Denotes url pattern

def AllowsAny (patterns : List String) (url : Url) : Prop := "*" ∈ patterns ∧ url.host.isSome

def NamesPort (patterns : List String) (url : Url) : Prop :=
  ∃ host ∈ url.host, ∃ port ∈ url.port, ∃ digits : String,
    parseUsize digits.toList = some port ∧ host ++ ":" ++ digits ∈ patterns

theorem allows_iff :
    Allows patterns url ↔
      NamesHost patterns url ∨ AllowsAny patterns url ∨ NamesPort patterns url := by
  constructor
  · rintro ⟨pattern, member, denotes⟩
    cases denotes with
    | any present => exact .inr (.inl ⟨member, by simp [present]⟩)
    | named present denotes => exact .inl ⟨pattern, member, _, present, denotes⟩
    | withPort present reads same => exact .inr (.inr ⟨_, present, _, same, _, reads, member⟩)
  · rintro (⟨pattern, member, host, present, denotes⟩ | ⟨member, present⟩ |
      ⟨host, present, port, same, digits, reads, member⟩)
    · exact ⟨pattern, member, .named present denotes⟩
    · obtain ⟨host, present⟩ := Option.isSome_iff_exists.mp present
      exact ⟨"*", member, .any present⟩
    · exact ⟨_, member, .withPort present reads same⟩

theorem covers_iff {host : String} (present : url.host = some host)
    (nonempty : ∀ pattern ∈ normalized, pattern ≠ "") :
    (∃ pattern ∈ normalized, patternCovers host pattern) ↔
      NamesHost normalized url ∨ AllowsAny normalized url := by
  have here : AllowsAny normalized url ↔ "*" ∈ normalized := by simp [AllowsAny, present]
  have names : NamesHost normalized url ↔ ∃ pattern ∈ normalized, DenotesHost host pattern := by
    simp [NamesHost, present]
  rw [here, names]
  constructor
  · rintro ⟨pattern, member, covers⟩
    rcases (patternCovers_iff (nonempty pattern member)).mp covers with rfl | denotes
    · exact .inr member
    · exact .inl ⟨pattern, member, denotes⟩
  · rintro (⟨pattern, member, denotes⟩ | member)
    · exact ⟨pattern, member, (patternCovers_iff (nonempty pattern member)).mpr (.inr denotes)⟩
    · exact ⟨"*", member, (patternCovers_iff (nonempty _ member)).mpr (.inl rfl)⟩

theorem clawHostAllowed_eq (hostname : String) (allowed : List String) :
    clawHostAllowed hostname allowed =
      (allowed.map normal).any (patternCovers (normal hostname)) := by
  simp only [clawHostAllowed, List.any_map, Function.comp_def, normal]

theorem hostAllowed_eq (targetHost : String) (allowed : List String) :
    hostAllowed targetHost allowed =
      (allowed.map normal).any (patternCovers (normal targetHost)) := by
  simp only [hostAllowed, List.any_map, Function.comp_def, normal]

theorem host_eq {host : String} (found : url.hostStr = some host) :
    url.host = some (normal host) := by
  rw [Url.host, found]
  rfl

theorem not_allows_of_no_host (found : url.hostStr = none) :
    ¬ (NamesHost normalized url ∨ AllowsAny normalized url) := by
  have absent : url.host = none := by
    rw [Url.host, found]
    rfl
  simp [NamesHost, AllowsAny, absent]

/-- The spelling of a pattern in the manifest does not matter to a call of a tool. -/
theorem httpCallPermits_iff (accepted : patterns.mapM normalizeHostPattern = .ok normalized) :
    httpCallPermits patterns url ↔ NamesHost normalized url ∨ AllowsAny normalized url := by
  obtain ⟨rfl, valid⟩ := mapM_normalizeHostPattern accepted
  cases found : url.hostStr with
  | none => exact iff_of_false (by simp [httpCallPermits, found]) (not_allows_of_no_host found)
  | some hostname =>
    have nonempty : hostname ≠ "" := by
      rintro rfl
      exact url.named _ found (by decide)
    rw [← covers_iff (host_eq found) fun pattern member => (valid pattern member).1,
      httpCallPermits, found]
    simp only [clawHostAllowed_eq, nonempty, ne_eq, not_false_eq_true, decide_true, Bool.true_and,
      List.any_eq_true]

theorem transportPermits_iff (accepted : patterns.mapM normalizeHostPattern = .ok normalized) :
    transportPermits normalized url ↔ NamesHost normalized url ∨ AllowsAny normalized url := by
  obtain ⟨same, valid⟩ := mapM_normalizeHostPattern accepted
  cases found : url.hostStr with
  | none => exact iff_of_false (by simp [transportPermits, found]) (not_allows_of_no_host found)
  | some host =>
    -- the patterns were normalized before
    have again : normalized.map normal = normalized := by
      rw [same, List.map_map]
      refine List.map_congr_left fun input member => ?_
      have listed : normal input ∈ normalized := same ▸ List.mem_map_of_mem member
      exact normal_eq_self fun c inside => ((valid _ listed).2 c inside).1
    rw [← covers_iff (host_eq found) fun pattern member => (valid pattern member).1,
      transportPermits, found]
    simp only [hostAllowed_eq, again, List.any_eq_true]

theorem mem_dedup {α : Type} [DecidableEq α] {items : List α} {a : α} :
    a ∈ dedup items ↔ a ∈ items := by
  induction items with
  | nil => rfl
  | cons item rest ih =>
    cases rest with
    | nil => rfl
    | cons next rest =>
      rw [dedup]
      split_ifs with same
      · rw [ih, List.mem_cons, List.mem_cons, List.mem_cons, same, or_self_left]
      · rw [List.mem_cons, ih]
        exact List.mem_cons.symm

/-- An accepted pattern has no comma, so the text of the patterns can be taken apart again. -/
theorem not_mem_comma {pattern : String}
    (plain : ∀ c ∈ (normal pattern).toList, isWhitespace c = false ∧ c ≠ ',') :
    ',' ∉ pattern.toList := by
  intro comma
  have kept : ',' ∈ (trim pattern).toList := by
    rw [trim, String.toList_ofList]
    exact mem_trimChars comma (by decide)
  refine (plain ',' ?_).2 rfl
  rw [normal, toList_toAsciiLowercase]
  exact List.mem_map.mpr ⟨',', kept, by decide⟩

theorem mem_parseHostAllowlist {raw pattern : String} :
    pattern ∈ parseHostAllowlist raw ↔ ∃ item ∈ raw.toList.splitOn ',',
      trim (String.ofList item) ≠ "" ∧ normal (String.ofList item) = pattern := by
  simp only [parseHostAllowlist, mem_dedup, (sortByKey_perm id _).mem_iff, List.mem_map,
    List.mem_filter, decide_eq_true_eq]
  constructor
  · rintro ⟨_, ⟨⟨item, member, rfl⟩, nonempty⟩, same⟩
    exact ⟨item, member, nonempty, same⟩
  · rintro ⟨item, member, nonempty, same⟩
    exact ⟨_, ⟨⟨item, member, rfl⟩, nonempty⟩, same⟩

theorem mem_parseHostAllowlist_joinHosts
    (accepted : patterns.mapM normalizeHostPattern = .ok normalized) {pattern : String} :
    pattern ∈ parseHostAllowlist (joinHosts patterns) ↔ pattern ∈ normalized := by
  obtain ⟨rfl, valid⟩ := mapM_normalizeHostPattern accepted
  rw [mem_parseHostAllowlist, joinHosts, String.toList_ofList]
  rcases eq_or_ne patterns [] with rfl | some
  · -- of no patterns the text is empty
    simp [trim, trimChars]
  have plain : ∀ chars ∈ patterns.map String.toList, ',' ∉ chars := by
    simp only [List.forall_mem_map]
    exact fun input member => not_mem_comma (valid _ (List.mem_map_of_mem member)).2
  rw [List.splitOn_intercalate ',' plain (mt List.map_eq_nil_iff.mp some)]
  simp only [List.mem_map, exists_exists_and_eq_and, String.ofList_toList]
  refine exists_congr fun input => and_congr_right fun member => and_iff_right ?_
  exact mt toAsciiLowercase_eq_empty.mpr (valid _ (List.mem_map_of_mem member)).1

theorem webToolPermits_iff (accepted : patterns.mapM normalizeHostPattern = .ok normalized) :
    webToolPermits (parseHostAllowlist (joinHosts patterns)) url ↔ NamesHost normalized url := by
  cases found : url.hostStr with
  | none =>
    refine iff_of_false (by simp [webToolPermits, found]) fun names => ?_
    exact not_allows_of_no_host found (.inl names)
  | some host =>
    have nonempty : toAsciiLowercase (trim host) ≠ "" :=
      mt toAsciiLowercase_eq_empty.mp (url.named host found)
    have names : NamesHost normalized url ↔
        ∃ pattern ∈ normalized, DenotesHost (normal host) pattern := by
      simp [NamesHost, host_eq found]
    rw [names, webToolPermits, found]
    simp only [SafeWebFetchTool.hostAllowed, nonempty, ne_eq, not_false_eq_true, decide_true,
      Bool.true_and, List.any_eq_true, mem_parseHostAllowlist_joinHosts accepted]
    refine exists_congr fun pattern => and_congr_right fun _ => ?_
    split_ifs with wildcard
    · obtain ⟨domain, chars⟩ := List.isPrefixOf_iff_prefix.mp wildcard
      have whole : pattern = String.ofList ('*' :: '.' :: domain) :=
        String.ext (by simp [← chars])
      rw [whole, denotesHost_wildcard]
      simp [normal]
    · rw [denotesHost_of_plain]
      · simp [normal]
      · intro domain chars
        exact wildcard (by simp [chars])

/-- The three places permit the URLs that the patterns denote exactly for the URLs that, if the
pattern for any host or one with a port denotes them, are denoted by one that names the host
alone. -/
theorem host_allowlists_agree_iff {patterns normalized : List String}
    (accepted : patterns.mapM normalizeHostPattern = .ok normalized) (url : Url) :
    ((httpCallPermits patterns url ↔ Allows normalized url) ∧
      (transportPermits normalized url ↔ Allows normalized url) ∧
      (webToolPermits (parseHostAllowlist (joinHosts patterns)) url ↔ Allows normalized url)) ↔
    (AllowsAny normalized url ∨ NamesPort normalized url → NamesHost normalized url) := by
  rw [httpCallPermits_iff accepted, transportPermits_iff accepted, webToolPermits_iff accepted,
    allows_iff]
  constructor
  · rintro ⟨-, -, tool⟩ loose
    exact tool.mpr (.inr loose)
  · intro condition
    have tool : NamesHost normalized url ∨ AllowsAny normalized url ∨ NamesPort normalized url →
        NamesHost normalized url := fun allowed => allowed.elim id condition
    refine ⟨⟨fun allowed => ?_, fun allowed => .inl (tool allowed)⟩,
      ⟨fun allowed => ?_, fun allowed => .inl (tool allowed)⟩, ⟨.inl, tool⟩⟩
    all_goals exact allowed.elim .inl fun any => .inr (.inl any)

end Places

def hostUrl (host : String) (named : trim host ≠ "") : Url where
  hostStr := some host
  port := some 443
  named := by
    rintro _ ⟨⟩
    exact named

theorem plain_host_agrees :
    (httpCallPermits ["Example.com"] (hostUrl "example.com" (by decide)) ↔
        Allows ["example.com"] (hostUrl "example.com" (by decide))) ∧
      (transportPermits ["example.com"] (hostUrl "example.com" (by decide)) ↔
        Allows ["example.com"] (hostUrl "example.com" (by decide))) ∧
      (webToolPermits (parseHostAllowlist (joinHosts ["Example.com"]))
          (hostUrl "example.com" (by decide)) ↔
        Allows ["example.com"] (hostUrl "example.com" (by decide))) :=
  (host_allowlists_agree_iff (by decide) _).mpr fun _ =>
    ⟨"example.com", List.mem_singleton.mpr rfl, _, by decide, .host _⟩

/-- The web tool refuses what any host is allowed for, and every place refuses a host with the
port that the pattern names. -/
theorem loose_patterns_refused :
    (["*"].mapM normalizeHostPattern = .ok ["*"] ∧
        Allows ["*"] (hostUrl "example.com" (by decide)) ∧
        webToolPermits (parseHostAllowlist (joinHosts ["*"]))
          (hostUrl "example.com" (by decide)) = false) ∧
      (["example.com:443"].mapM normalizeHostPattern = .ok ["example.com:443"] ∧
        Allows ["example.com:443"] (hostUrl "example.com" (by decide)) ∧
        httpCallPermits ["example.com:443"] (hostUrl "example.com" (by decide)) = false ∧
        transportPermits ["example.com:443"] (hostUrl "example.com" (by decide)) = false) := by
  have star : ["*"].mapM normalizeHostPattern = .ok ["*"] := by decide
  refine ⟨⟨star, ⟨"*", List.mem_singleton.mpr rfl, .any rfl⟩, ?_⟩,
    by decide, ⟨"example.com:443", List.mem_singleton.mpr rfl, ?_⟩, by decide, by decide⟩
  · rw [← Bool.not_eq_true, webToolPermits_iff star]
    rintro ⟨pattern, member, host, present, denotes⟩
    obtain rfl := List.mem_singleton.mp member
    obtain rfl := (denotesHost_of_plain (by simp)).mp denotes
    exact absurd present (by decide)
  · exact @Denotes.withPort _ "example.com" "443" 443 rfl (by decide) rfl

end KelvinClaw.Plugin
