import KelvinClaw.Plugin.Installed
import KelvinClaw.Plugin.TrustPolicy

/-!
# The manifest of an installed package

What the loader checks of a `plugin.json` once its publisher is trusted: the fields that the core
knows, the scopes of its capabilities, the sandbox of a tool, and the profile of a model provider.
The versions are read by a library, which is a parameter.
-/

namespace KelvinClaw.Plugin

open KelvinClaw.Core Systems

def invalidInput {α : Type} (message : String) : KelvinResult α := .error (.invalidInput message)

/-! ### Data -/

inductive PluginCapability where
  | modelProvider
  | memoryProvider
  | sessionStore
  | eventSink
  | toolProvider
  | fsRead
  | fsWrite
  | networkEgress
  | commandExecution
  | commandProvider
  | envAccess
  deriving DecidableEq, Repr

/-- The `Debug` text of a capability. -/
def PluginCapability.debug : PluginCapability → String
  | .modelProvider => "ModelProvider"
  | .memoryProvider => "MemoryProvider"
  | .sessionStore => "SessionStore"
  | .eventSink => "EventSink"
  | .toolProvider => "ToolProvider"
  | .fsRead => "FsRead"
  | .fsWrite => "FsWrite"
  | .networkEgress => "NetworkEgress"
  | .commandExecution => "CommandExecution"
  | .commandProvider => "CommandProvider"
  | .envAccess => "EnvAccess"

structure CapabilityScopesManifest where
  fsReadPaths : List String
  networkAllowHosts : List String
  envAllow : List String
  deriving DecidableEq, Repr

inductive ModelProviderProtocolFamily where
  | openAiResponses
  | openAiChatCompletions
  | anthropicMessages
  deriving DecidableEq, Repr

inductive ModelProviderAuthScheme where
  | bearer
  | raw
  deriving DecidableEq, Repr

structure ModelProviderHeader where
  name : String
  value : String
  deriving DecidableEq, Repr

structure ModelProviderProfile where
  id : String
  providerName : String
  protocolFamily : ModelProviderProtocolFamily
  apiKeyEnv : Option String
  baseUrlEnv : String
  defaultBaseUrl : String
  endpointPath : String
  authHeader : String
  authScheme : ModelProviderAuthScheme
  staticHeaders : List ModelProviderHeader
  defaultAllowHosts : List String
  dynamicBaseUrl : Bool
  deriving DecidableEq, Repr

/-- The manifest of a package, with the fields that the trust policy reads. -/
structure PackageManifest extends InstalledPluginPackageManifest where
  name : String
  version : String
  apiVersion : String
  description : Option String
  homepage : Option String
  capabilities : List PluginCapability
  minCoreVersion : Option String
  maxCoreVersion : Option String
  runtime : Option String
  toolName : Option String
  providerName : Option String
  providerProfile : Option ModelProviderProfile
  modelName : Option String
  entrypoint : String
  entrypointSha256 : Option String
  capabilityScopes : CapabilityScopesManifest
  operationalControls : OperationalControlsManifest
  fuelBudget : Option ℕ
  deriving DecidableEq, Repr

/-! ### Texts -/

def isIdentifierChar (c : Char) : Bool := c.isAlphanum || c = '_' || c = '-' || c = '.'

def preview (value : String) (maxChars : ℕ) : String :=
  if value.toList.length ≤ maxChars then value
  else String.ofList (value.toList.take maxChars) ++ "..."

def displayPreviewMaxLen : ℕ := 64

def checkText (label : String) (maxLen : ℕ) (cleaned : List Char) : KelvinResult Unit := do
  refuseIf (cleaned = []) (.invalidInput s!"{label} must not be empty")
  refuseIf (maxLen < cleaned.length) (.invalidInput s!"{label} exceeds max length {maxLen}")

def validatePluginId (value : String) : KelvinResult Unit := do
  let cleaned := trimChars value.toList
  checkText "plugin id" 128 cleaned
  refuseIf (cleaned.any isControl)
    (.invalidInput "plugin id must not include control characters")
  refuseIf (cleaned.all isIdentifierChar = false) (.invalidInput
    ("plugin id has invalid characters: " ++
      preview (String.ofList cleaned) displayPreviewMaxLen))

def validatePluginName (value : String) : KelvinResult Unit := do
  let cleaned := trimChars value.toList
  checkText "plugin name" 128 cleaned
  refuseIf (cleaned.any isControl)
    (.invalidInput "plugin name must not include control characters")

/-- `validate_semver`, with `parseVersion` for `Version::parse`. -/
def validateSemver (parseVersion : String → Except String Unit) (label value : String) :
    KelvinResult Unit := do
  refuseIf (trim value = "") (.invalidInput s!"{label} must not be empty")
  match parseVersion value with
  | .ok () => .ok ()
  | .error err =>
    invalidInput s!"{label} must be valid semver, got '{preview value displayPreviewMaxLen}': {err}"

def validateOptionalTextField (label : String) (value : Option String) (maxLen : ℕ) :
    KelvinResult Unit :=
  match value with
  | none => .ok ()
  | some raw => do
    let cleaned := trimChars raw.toList
    checkText label maxLen cleaned
    refuseIf (cleaned.any isControl)
      (.invalidInput s!"{label} must not include control characters")

def startsWith (start : String) (text : List Char) : Bool := start.toList.isPrefixOf text

def validateHomepage (value : Option String) : KelvinResult Unit :=
  match value with
  | none => .ok ()
  | some raw => do
    let cleaned := trimChars raw.toList
    checkText "plugin homepage" 2048 cleaned
    refuseIf (cleaned.any fun c => isControl c || isWhitespace c)
      (.invalidInput "plugin homepage must not include whitespace/control characters")
    refuseIf (startsWith "https://" cleaned = false ∧ startsWith "http://" cleaned = false)
      (.invalidInput "plugin homepage must use http:// or https://")

def firstRepeated : (seen capabilities : List PluginCapability) → Option PluginCapability
  | _, [] => none
  | seen, capability :: rest =>
    if capability ∈ seen then some capability else firstRepeated (capability :: seen) rest

def validateCapabilities (capabilities : List PluginCapability) : KelvinResult Unit := do
  refuseIf (32 < capabilities.length)
    (.invalidInput "plugin capabilities exceed max length 32")
  match firstRepeated [] capabilities with
  | none => .ok ()
  | some capability =>
    invalidInput s!"plugin capabilities contain duplicate value: {capability.debug}"

/-- `PluginManifest::validate` of the core manifest. -/
def validateCoreManifest (parseVersion : String → Except String Unit)
    (manifest : PackageManifest) : KelvinResult Unit := do
  validatePluginId manifest.id
  validatePluginName manifest.name
  validateSemver parseVersion "plugin version" manifest.version
  validateSemver parseVersion "api version" manifest.apiVersion
  validateOptionalTextField "plugin description" manifest.description 4096
  validateHomepage manifest.homepage
  validateCapabilities manifest.capabilities
  match manifest.minCoreVersion with
  | none => .ok ()
  | some least => validateSemver parseVersion "min core version" least
  match manifest.maxCoreVersion with
  | none => .ok ()
  | some most => validateSemver parseVersion "max core version" most

/-! ### Runtimes and names -/

def defaultToolRuntimeKind : String := "wasm_tool_v1"

def defaultModelRuntimeKind : String := "wasm_model_v1"

namespace PackageManifest

variable (manifest : PackageManifest)

def runtimeKind : String := trim (manifest.runtime.getD defaultToolRuntimeKind)

def nameFromId : String :=
  String.ofList (manifest.id.toList.map fun c => if c = '.' then '_' else c)

def resolveName (field : String) (value : Option String) (fallback : String) :
    KelvinResult String := do
  let candidate := trim (value.getD fallback)
  refuseIf (candidate = "") (.invalidInput s!"plugin '{manifest.id}' has empty {field}")
  refuseIf (candidate.toList.all isIdentifierChar = false)
    (.invalidInput s!"plugin '{manifest.id}' has invalid {field} '{candidate}'")
  .ok candidate

def resolveToolName : KelvinResult String :=
  manifest.resolveName "tool_name" manifest.toolName manifest.nameFromId

def resolveModelProviderName (profile : ModelProviderProfile) : KelvinResult String := do
  let candidate ← manifest.resolveName "provider_name" manifest.providerName profile.providerName
  refuseIf (candidate ≠ profile.providerName) (.invalidInput
    (s!"plugin '{manifest.id}' provider_name '{candidate}' does not match provider_profile " ++
      s!"'{profile.id}'"))
  .ok candidate

def resolvedModelName : KelvinResult String := do
  let candidate := trim (manifest.modelName.getD "default")
  refuseIf (candidate = "") (.invalidInput s!"plugin '{manifest.id}' has empty model_name")
  .ok candidate

end PackageManifest

/-! ### Provider profiles -/

/-- A text that is not blank and consists of the given characters. -/
def validateChars (label : String) (allowed : Char → Bool) (value : String) :
    KelvinResult Unit := do
  let value := trim value
  refuseIf (value = "") (.invalidInput s!"{label} must not be empty")
  refuseIf (value.toList.all allowed = false)
    (.invalidInput s!"{label} has invalid characters: {value}")

def validateIdentifier (label value : String) : KelvinResult Unit :=
  validateChars label isIdentifierChar value

def validateHeaderName (label value : String) : KelvinResult Unit :=
  validateChars label (fun c => c.isAlphanum || c = '-' || c = '_') value

def validateHttpUrl (label value : String) : KelvinResult Unit := do
  let value := trimChars value.toList
  refuseIf (startsWith "https://" value = false ∧ startsWith "http://" value = false)
    (.invalidInput s!"{label} must start with http:// or https://")
  refuseIf (value.any isWhitespace) (.invalidInput s!"{label} must not contain whitespace")

def validateEndpointPath (value : String) : KelvinResult Unit := do
  let value := trimChars value.toList
  refuseIf (value = []) (.invalidInput "provider_profile.endpoint_path must not be empty")
  refuseIf (value.head? = some '/' ∨ ['.', '.'] <:+: value)
    (.invalidInput "provider_profile.endpoint_path must be a safe relative path")

def validateHostPattern (value : String) : KelvinResult Unit := do
  let value := trim value
  refuseIf (value = "")
    (.invalidInput "provider_profile.default_allow_hosts entries must not be empty")
  let candidate :=
    if startsWith "*." value.toList then value.toList.drop 2 else value.toList
  refuseIf (value ≠ "*" ∧ candidate.all (fun c => c.isAlphanum || c = '.' || c = '-') = false)
    (.invalidInput s!"provider_profile.default_allow_hosts has invalid host pattern: {value}")

def validateStaticHeader (header : ModelProviderHeader) : KelvinResult Unit := do
  validateHeaderName "provider_profile.static_headers[].name" header.name
  refuseIf (trim header.value = "")
    (.invalidInput "provider_profile.static_headers[].value must not be empty")

def validateEach {α : Type} (check : α → KelvinResult Unit) : List α → KelvinResult Unit
  | [] => .ok ()
  | entry :: rest => do
    check entry
    validateEach check rest

def ModelProviderProfile.validate (profile : ModelProviderProfile) : KelvinResult Unit := do
  validateIdentifier "provider_profile.id" profile.id
  validateIdentifier "provider_profile.provider_name" profile.providerName
  match profile.apiKeyEnv with
  | none => .ok ()
  | some envName => validateIdentifier "provider_profile.api_key_env" envName
  validateIdentifier "provider_profile.base_url_env" profile.baseUrlEnv
  validateHeaderName "provider_profile.auth_header" profile.authHeader
  validateHttpUrl "provider_profile.default_base_url" profile.defaultBaseUrl
  validateEndpointPath profile.endpointPath
  refuseIf (profile.dynamicBaseUrl = false ∧ profile.defaultAllowHosts = [])
    (.invalidInput "provider_profile.default_allow_hosts must not be empty")
  validateEach validateHostPattern profile.defaultAllowHosts
  validateEach validateStaticHeader profile.staticHeaders

/-! ### Scopes and sandbox -/

def normalizeHostPattern (input : String) : KelvinResult String := do
  let cleaned := toAsciiLowercase (trim input)
  refuseIf (cleaned = "") (.invalidInput "network allowlist host must not be empty")
  refuseIf (cleaned.toList.any fun c => isControl c || isWhitespace c)
    (.invalidInput "network allowlist host must not contain whitespace/control characters")
  refuseIf (cleaned.toList.all
      (fun c => c.isAlphanum || c = '.' || c = '-' || c = '*' || c = ':') = false)
    (.invalidInput s!"invalid network allowlist host pattern: {cleaned}")
  .ok cleaned

def normalizeScopes (manifest : PackageManifest) : KelvinResult CapabilityScopes := do
  let hasFsRead := PluginCapability.fsRead ∈ manifest.capabilities
  let hasNetwork := PluginCapability.networkEgress ∈ manifest.capabilities
  let runtimeRequiresNetworkScope := manifest.runtimeKind = defaultModelRuntimeKind
  let fsReadPaths ← manifest.capabilityScopes.fsReadPaths.mapM fun path =>
    normalizeSafeRelativePath path "capability_scopes.fs_read_paths"
  refuseIf (hasFsRead ∧ fsReadPaths = []) (.invalidInput
    s!"plugin '{manifest.id}' declares fs_read but has no fs_read scope paths")
  refuseIf (¬ hasFsRead ∧ fsReadPaths ≠ []) (.invalidInput
    s!"plugin '{manifest.id}' has fs_read scope paths but does not declare fs_read capability")
  let networkAllowHosts ← manifest.capabilityScopes.networkAllowHosts.mapM normalizeHostPattern
  let hasDynamicBaseUrl := manifest.providerProfile.any (·.dynamicBaseUrl)
  refuseIf ((hasNetwork ∨ runtimeRequiresNetworkScope) ∧ networkAllowHosts = [] ∧
      hasDynamicBaseUrl = false)
    (.invalidInput
      s!"plugin '{manifest.id}' requires network allowlist but has no network allow hosts")
  refuseIf (¬ hasNetwork ∧ ¬ runtimeRequiresNetworkScope ∧ networkAllowHosts ≠ [])
    (.invalidInput (s!"plugin '{manifest.id}' has network allowlist but does not declare " ++
      "network_egress capability"))
  .ok ⟨fsReadPaths, networkAllowHosts⟩

structure SandboxPolicy where
  allowMoveServo : Bool
  allowFsRead : Bool
  networkAllowHosts : List String
  envAllow : List String
  maxModuleBytes : ℕ
  fuelBudget : ℕ
  maxRequestBytes : ℕ
  maxResponseBytes : ℕ
  deriving DecidableEq, Repr

def SandboxPolicy.lockedDown : SandboxPolicy :=
  ⟨false, false, [], [], 512 * 1024, 1000000, 256 * 1024, 256 * 1024⟩

def maxFuelBudget : ℕ := 100000000

def sandboxFromManifest (manifest : PackageManifest) : KelvinResult SandboxPolicy := do
  let envAllow := manifest.capabilityScopes.envAllow
  refuseIf (envAllow ≠ [] ∧ PluginCapability.envAccess ∉ manifest.capabilities)
    (.invalidInput
      s!"plugin '{manifest.id}' declares env_allow scopes but lacks 'env_access' capability")
  refuseIf (PluginCapability.fsWrite ∈ manifest.capabilities ∨
      PluginCapability.commandExecution ∈ manifest.capabilities)
    (.invalidInput s!"plugin '{manifest.id}' requests unsupported runtime capability")
  .ok
    { SandboxPolicy.lockedDown with
      allowFsRead := decide (PluginCapability.fsRead ∈ manifest.capabilities)
      networkAllowHosts :=
        if PluginCapability.networkEgress ∈ manifest.capabilities then
          manifest.capabilityScopes.networkAllowHosts
        else []
      envAllow
      fuelBudget := match manifest.fuelBudget with
        | none => SandboxPolicy.lockedDown.fuelBudget
        | some budget => min budget maxFuelBudget }

end KelvinClaw.Plugin
