import KelvinClaw.Plugin.CircuitBreaker
import KelvinClaw.Plugin.Loader

/-!
# What a tool may read

A call of a tool that reads files names a path, and the manifest of the plugin lists the scopes that
such a path has to lie in. Both are trimmed and get `/` for their separators, and both are refused
if they are absolute or climb; then they are compared as they are spelled, with the empty segments
and the dots that a path may have.

So what is allowed lies in a scope, but not all that lies in a scope is allowed: `data/` is a
scope that `data/file.txt` does not lie in.
-/

namespace KelvinClaw.Plugin

open KelvinClaw.Core KelvinClaw.Brain Systems

/-! ### The normal form of a path -/

/-- A path as the check compares it: without blanks around it, and with `/` for `\`. -/
def separated (raw : String) : String :=
  String.ofList ((trimChars raw.toList).map fun c => if c = '\\' then '/' else c)

def spelling (raw : String) : List (List Char) := segments (separated raw).toList

/-- A path without its empty segments and its dots. -/
def lexicalForm (raw : String) : List String := components (separated raw)

/-- A relative path that does not climb and lies in one of the scopes. -/
structure InScope (scopes : List String) (target : String) : Prop where
  relative : ¬ IsAbsolute (separated target)
  down : ".." ∉ lexicalForm target
  below : ∃ scope ∈ scopes, lexicalForm scope <+: lexicalForm target

def SpelledInScope (scopes : List String) (target : String) : Prop :=
  ∃ scope ∈ scopes, spelling scope <+: spelling target

theorem lexicalForm_prefix_of_spelling {scope target : String}
    (begins : spelling scope <+: spelling target) : lexicalForm scope <+: lexicalForm target :=
  components_prefix_of_segments begins

/-! ### Paths that are accepted -/

theorem normalizeSafeRelativePath_eq_ok {raw fieldName text : String} :
    normalizeSafeRelativePath raw fieldName = .ok text ↔
      separated raw = text ∧ separated raw ≠ "" ∧ ¬ IsAbsolute (separated raw) ∧
        ".." ∉ lexicalForm raw := by
  rw [normalizeSafeRelativePath, ← separated, ← lexicalForm]
  split_ifs <;> simp_all

theorem mapM_normalizeSafeRelativePath {paths normalized : List String} {fieldName : String}
    (accepted : (paths.mapM fun path => normalizeSafeRelativePath path fieldName) =
      .ok normalized) :
    normalized = paths.map separated ∧ ∀ path ∈ paths, separated path ≠ "" := by
  induction paths generalizing normalized with
  | nil =>
    obtain rfl := pure_eq_ok.mp accepted
    exact ⟨rfl, List.forall_mem_nil _⟩
  | cons path rest ih =>
    rw [List.mapM_cons, bind_eq_ok] at accepted
    obtain ⟨here, first, accepted⟩ := accepted
    obtain ⟨others, there, packed⟩ := bind_eq_ok.mp accepted
    obtain rfl := pure_eq_ok.mp packed
    obtain ⟨rfl, nonempty, -⟩ := normalizeSafeRelativePath_eq_ok.mp first
    obtain ⟨rfl, all⟩ := ih there
    exact ⟨rfl, List.forall_mem_cons.mpr ⟨nonempty, all⟩⟩

theorem normalizeScopes_eq_ok {manifest : PackageManifest} {scopes : CapabilityScopes}
    (accepted : normalizeScopes manifest = .ok scopes) :
    scopes.fsReadPaths = manifest.capabilityScopes.fsReadPaths.map separated ∧
      ∀ path ∈ manifest.capabilityScopes.fsReadPaths, separated path ≠ "" := by
  obtain ⟨paths, normalized, accepted⟩ := bind_eq_ok.mp accepted
  obtain ⟨-, accepted⟩ := bind_unit_eq_ok.mp accepted
  obtain ⟨-, accepted⟩ := bind_unit_eq_ok.mp accepted
  obtain ⟨hosts, -, accepted⟩ := bind_eq_ok.mp accepted
  obtain ⟨-, accepted⟩ := bind_unit_eq_ok.mp accepted
  obtain ⟨-, accepted⟩ := bind_unit_eq_ok.mp accepted
  obtain rfl := Except.ok.inj accepted
  exact mapM_normalizeSafeRelativePath normalized

/-! ### The check -/

theorem scopeMatch_iff {target : String} {allowlist : List String} :
    scopeMatch target allowlist = true ↔
      ∃ scope ∈ allowlist, segments scope.toList <+: segments target.toList := by
  rw [scopeMatch, List.any_eq_true]
  refine exists_congr fun scope => and_congr_right fun _ => ?_
  rw [segments_prefix_iff, Bool.or_eq_true, beq_iff_eq, List.isPrefixOf_iff_prefix,
    String.toList_inj, eq_comm]

section Check

variable {manifest : PackageManifest} {scopes : CapabilityScopes} {tool : InstalledWasmTool}
  {args : Value} {target : String}

theorem separated_ne_empty_of_spelled {paths : List String}
    (named : ∀ path ∈ paths, separated path ≠ "") (spelled : SpelledInScope paths target) :
    separated target ≠ "" := by
  intro empty
  obtain ⟨scope, member, begins⟩ := spelled
  rw [spelling, spelling, empty, segments_prefix_iff] at begins
  rcases begins with same | further
  · exact named scope member (String.toList_inj.mp same)
  · exact absurd (List.prefix_nil.mp further) (by simp)

theorem enforceScopedArguments_iff (accepted : normalizeScopes manifest = .ok scopes)
    (limited : tool.scopes = scopes) (reads : tool.allowFsRead = true)
    (given : args.get "target_path" = some (.str target)) :
    tool.enforceScopedArguments args = .ok () ↔
      ¬ IsAbsolute (separated target) ∧ ".." ∉ lexicalForm target ∧
        SpelledInScope manifest.capabilityScopes.fsReadPaths target := by
  obtain ⟨paths, named⟩ := normalizeScopes_eq_ok accepted
  have names : (args.get "target_path").bind Value.asStr = some target := by
    rw [given]
    rfl
  have spelled : scopeMatch (separated target) tool.scopes.fsReadPaths = true ↔
      SpelledInScope manifest.capabilityScopes.fsReadPaths target := by
    rw [scopeMatch_iff, limited, paths]
    simp only [List.mem_map, exists_exists_and_eq_and]
    rfl
  rw [InstalledWasmTool.enforceScopedArguments, if_pos reads, names, bind_eq_ok]
  constructor
  · rintro ⟨text, normalized, checked⟩
    obtain ⟨rfl, -, relative, down⟩ := normalizeSafeRelativePath_eq_ok.mp normalized
    rw [refuseIf_eq_ok, Bool.not_eq_false] at checked
    exact ⟨relative, down, spelled.mp checked⟩
  · rintro ⟨relative, down, inside⟩
    have nonempty := separated_ne_empty_of_spelled named inside
    refine ⟨_, normalizeSafeRelativePath_eq_ok.mpr ⟨rfl, nonempty, relative, down⟩, ?_⟩
    rw [refuseIf_eq_ok, Bool.not_eq_false]
    exact spelled.mpr inside

theorem inScope_of_enforceScopedArguments (accepted : normalizeScopes manifest = .ok scopes)
    (limited : tool.scopes = scopes) (reads : tool.allowFsRead = true)
    (given : args.get "target_path" = some (.str target))
    (allowed : tool.enforceScopedArguments args = .ok ()) :
    InScope manifest.capabilityScopes.fsReadPaths target := by
  obtain ⟨relative, down, scope, member, begins⟩ :=
    (enforceScopedArguments_iff accepted limited reads given).mp allowed
  exact ⟨relative, down, scope, member, lexicalForm_prefix_of_spelling begins⟩

/-- The check decides whether a path lies in a scope unless it lies in one and is spelled as none
of them. -/
theorem fs_read_scope_exact_iff (accepted : normalizeScopes manifest = .ok scopes)
    (limited : tool.scopes = scopes) (reads : tool.allowFsRead = true)
    (given : args.get "target_path" = some (.str target)) :
    (tool.enforceScopedArguments args = .ok () ↔
        InScope manifest.capabilityScopes.fsReadPaths target) ↔
      IsAbsolute (separated target) ∨ ".." ∈ lexicalForm target ∨
        (∀ scope ∈ manifest.capabilityScopes.fsReadPaths,
          ¬ lexicalForm scope <+: lexicalForm target) ∨
        ∃ scope ∈ manifest.capabilityScopes.fsReadPaths, spelling scope <+: spelling target := by
  have sound := inScope_of_enforceScopedArguments accepted limited reads given
  rw [enforceScopedArguments_iff accepted limited reads given] at sound ⊢
  constructor
  · intro exact
    by_contra otherwise
    push Not at otherwise
    obtain ⟨relative, down, below, strange⟩ := otherwise
    obtain ⟨-, -, scope, member, begins⟩ := exact.mpr ⟨relative, down, below⟩
    exact strange scope member begins
  · intro condition
    refine ⟨sound, fun inside => ?_⟩
    rcases condition with absolute | climbs | outside | spelled
    · exact absurd absolute inside.relative
    · exact absurd climbs inside.down
    · obtain ⟨scope, member, begins⟩ := inside.below
      exact absurd begins (outside scope member)
    · exact ⟨inside.relative, inside.down, spelled⟩

end Check

/-! ### A scope with a separator at its end -/

/-- A plugin that reads below `path`. -/
def readerManifest (path : String) : PackageManifest :=
  { echoManifest none with
    capabilities := [.fsRead]
    capabilityScopes := ⟨[path], [], []⟩ }

def readerTool (path : String) : InstalledWasmTool :=
  { clockTool with
    allowFsRead := true
    scopes := ⟨[path], []⟩ }

def readArgs (target : String) : Value := .obj [("target_path", .str target)]

theorem plain_scope_exact :
    (readerTool "data").enforceScopedArguments (readArgs "data//file.txt") = .ok () ↔
      InScope ["data"] "data//file.txt" :=
  have spelled : SpelledInScope ["data"] "data//file.txt" :=
    ⟨"data", List.mem_singleton.mpr rfl, by decide⟩
  (@fs_read_scope_exact_iff (readerManifest "data") ⟨["data"], []⟩ (readerTool "data") _ _
    (by decide) rfl rfl rfl).mpr (.inr (.inr (.inr spelled)))

/-- The files of a directory are refused if its scope ends with a separator. -/
theorem separator_scope_refuses : ¬ ∀ (manifest : PackageManifest) (scopes : CapabilityScopes)
    (tool : InstalledWasmTool) (args : Value) (target : String),
    normalizeScopes manifest = .ok scopes → tool.scopes = scopes → tool.allowFsRead = true →
    args.get "target_path" = some (.str target) →
      (tool.enforceScopedArguments args = .ok () ↔
        InScope manifest.capabilityScopes.fsReadPaths target) := by
  intro exact
  have inside : InScope ["data/"] "data/file.txt" :=
    ⟨by decide, by decide, "data/", List.mem_singleton.mpr rfl, by decide⟩
  have allowed := (exact (readerManifest "data/") ⟨["data/"], []⟩ (readerTool "data/")
    (readArgs "data/file.txt") "data/file.txt" (by decide) rfl rfl rfl).mpr inside
  exact absurd allowed (by decide)

end KelvinClaw.Plugin
