import KelvinClaw.Plugin.Manifest

/-!
# Loading an installed package

The loader reads the manifest in the version directory of a plugin, checks its publisher and its
signature, its fields and its entrypoint, and makes a tool or a model provider of it. The
signature covers the manifest. The manifest may name the hash of the entrypoint, and only then
the payload is compared with it.

The version directory is given; `resolve_version_dir` picks it. JSON, versions, SHA-256, and the
reading of WASM imports are libraries.
-/

namespace KelvinClaw.Plugin

open KelvinClaw.Core Systems

variable {κ ς : Type}

/-! ### Hashes -/

def hexDigit (n : ℕ) : Char := "0123456789abcdef".toList.getD n '0'

def hexByte (byte : UInt8) : List Char := [hexDigit (byte.toNat / 16), hexDigit (byte.toNat % 16)]

def hexDigits (digest : List UInt8) : List Char := digest.flatMap hexByte

/-- `str::eq_ignore_ascii_case`. -/
def eqIgnoreAsciiCase (a b : List Char) : Bool := a.map Char.toLower == b.map Char.toLower

theorem toLower_hexDigit {n : ℕ} (digit : n < 16) : (hexDigit n).toLower = hexDigit n := by
  revert digit
  revert n
  decide

theorem hexDigit_injective {m n : ℕ} (small : m < 16) (small' : n < 16)
    (same : hexDigit m = hexDigit n) : m = n := by
  have table : ∀ m < 16, ∀ n < 16, hexDigit m = hexDigit n → m = n := by decide
  exact table m small n small' same

theorem hexByte_injective {a b : UInt8} (same : hexByte a = hexByte b) : a = b := by
  have below := a.toNat_lt
  have below' := b.toNat_lt
  obtain ⟨high, low⟩ := List.cons.inj same
  have highs := hexDigit_injective (by omega) (by omega) high
  have lows := hexDigit_injective (by omega) (by omega) (List.cons.inj low).1
  exact UInt8.toNat_inj.mp (by omega)

theorem hexDigits_injective : Function.Injective hexDigits := by
  intro a
  induction a with
  | nil =>
    intro b same
    cases b with
    | nil => rfl
    | cons byte rest => cases same
  | cons byte rest ih =>
    intro b same
    cases b with
    | nil => cases same
    | cons byte' rest' =>
      obtain ⟨first, others⟩ := List.append_inj same rfl
      rw [hexByte_injective first, ih others]

theorem map_toLower_hexDigits (digest : List UInt8) :
    (hexDigits digest).map Char.toLower = hexDigits digest := by
  refine (List.map_congr_left fun c member => ?_).trans (List.map_id _)
  obtain ⟨byte, _, here⟩ := List.mem_flatMap.mp member
  have below := byte.toNat_lt
  rcases List.mem_cons.mp here with rfl | here
  · exact toLower_hexDigit (by omega)
  · obtain rfl := List.mem_singleton.mp here
    exact toLower_hexDigit (by omega)

theorem digest_eq_of_matches {digest digest' : List UInt8} {expected : List Char}
    (first : eqIgnoreAsciiCase (hexDigits digest) expected = true)
    (second : eqIgnoreAsciiCase (hexDigits digest') expected = true) : digest = digest' := by
  have lower := eq_of_beq first
  have lower' := eq_of_beq second
  rw [map_toLower_hexDigits] at lower lower'
  exact hexDigits_injective (lower.trans lower'.symm)

/-! ### Imports of a model plugin -/

/-- What the parser of a WASM module yields: an import, or an error of the module or of its import
section. -/
inductive ImportItem where
  | imported (module name : String)
  | invalidModule (err : String)
  | invalidSection (err : String)
  deriving DecidableEq, Repr

structure ModelPluginAbiUsage where
  usesOpenaiImport : Bool
  usesProviderProfileImport : Bool
  deriving DecidableEq, Repr

def ModelPluginAbiUsage.note (pluginId : String) (usage : ModelPluginAbiUsage) :
    ImportItem → KelvinResult ModelPluginAbiUsage
  | .invalidModule err => invalidInput s!"invalid model wasm: {err}"
  | .invalidSection err => invalidInput s!"invalid model wasm import section: {err}"
  | .imported module name =>
    if module ≠ "kelvin_model_host_v1" then
      invalidInput s!"model plugin '{pluginId}' has forbidden import module '{module}'"
    else if name = "openai_responses_call" then .ok { usage with usesOpenaiImport := true }
    else if name = "provider_profile_call" then
      .ok { usage with usesProviderProfileImport := true }
    else if name = "log" ∨ name = "clock_now_ms" then .ok usage
    else invalidInput s!"model plugin '{pluginId}' has forbidden import '{module}.{name}'"

def validateModelPluginImports (items : List ImportItem) (pluginId : String) :
    KelvinResult ModelPluginAbiUsage := do
  let usage ← items.foldlM (ModelPluginAbiUsage.note pluginId) ⟨false, false⟩
  refuseIf (usage.usesOpenaiImport = true ∧ usage.usesProviderProfileImport = true)
    (.invalidInput s!"model plugin '{pluginId}' mixes legacy and provider-profile imports")
  .ok usage

def resolveModelProviderProfile (manifest : PackageManifest) (abiUsage : ModelPluginAbiUsage) :
    KelvinResult ModelProviderProfile :=
  match manifest.providerProfile with
  | none => invalidInput s!"plugin '{manifest.id}' requires a structured provider_profile object"
  | some profile => do
    profile.validate
    refuseIf (abiUsage.usesOpenaiImport = true ∧ profile.protocolFamily ≠ .openAiResponses)
      (.invalidInput (s!"plugin '{manifest.id}' uses legacy openai import but provider_profile " ++
        s!"'{profile.id}' is not compatible"))
    .ok profile

/-! ### The loader -/

/-- The libraries behind the loader. -/
structure LoaderLibraries (κ ς : Type) where
  signatures : SignatureLibrary κ ς
  parseManifest : List UInt8 → Except String PackageManifest
  parseVersion : String → Except String Unit
  sha256 : List UInt8 → List UInt8
  parseImports : List UInt8 → List ImportItem
  reading : ModelProviderProfile → OutputReading ModelOutput

/-- What the loader finds in a version directory: the content of `plugin.json`, the signature, and
the regular files below `payload`. -/
structure VersionDir where
  path : String
  manifestBytes : Except String (List UInt8)
  signature : SignatureFile
  payload : String → Option (Except String (List UInt8))

inductive LoadedRuntime where
  | tool (tool : InstalledWasmTool) (sandbox : SandboxPolicy)
  | modelProvider (provider : InstalledWasmModelProvider)

structure LoadedPluginFactoryData where
  manifest : PackageManifest
  entrypointRel : String
  runtime : LoadedRuntime

def ioResult {α : Type} : Except String α → KelvinResult α
  | .ok a => .ok a
  | .error err => .error (.io err)

variable (libraries : LoaderLibraries κ ς)

/-- The place of the entrypoint below `payload`. Its bytes are read where the manifest has a hash
of them. -/
def checkEntrypoint (dir : VersionDir) (manifest : PackageManifest) : KelvinResult String := do
  let entrypointRel ← normalizeSafeRelativePath manifest.entrypoint "entrypoint"
  match dir.payload entrypointRel with
  | none =>
    invalidInput
      s!"plugin '{manifest.id}' entrypoint file not found: payload/{entrypointRel}"
  | some file =>
    match manifest.entrypointSha256 with
    | none => .ok entrypointRel
    | some expectedSha => do
      let entrypointBytes ← ioResult file
      refuseIf (eqIgnoreAsciiCase (hexDigits (libraries.sha256 entrypointBytes))
          (trimChars expectedSha.toList) = false)
        (.invalidInput s!"plugin '{manifest.id}' entrypoint_sha256 mismatch")
      .ok entrypointRel

/-- The refusal of a capability that a tool may not have. -/
def refuseCapability (manifest : PackageManifest) (capability : PluginCapability)
    (text : String) : KelvinResult Unit :=
  refuseIf (capability ∈ manifest.capabilities) (.invalidInput
    (s!"plugin '{manifest.id}' declares unsupported capability '{text}' for runtime " ++
      s!"'{defaultToolRuntimeKind}'"))

def requireCapability (manifest : PackageManifest) (capability : PluginCapability)
    (text runtime : String) : KelvinResult Unit :=
  refuseIf (capability ∉ manifest.capabilities) (.invalidInput
    s!"plugin '{manifest.id}' runtime '{runtime}' requires capability '{text}'")

def loadTool (manifest : PackageManifest) (entrypointAbs : String) (scopes : CapabilityScopes)
    (controls : OperationalControls) : KelvinResult LoadedRuntime := do
  requireCapability manifest .toolProvider "tool_provider" defaultToolRuntimeKind
  refuseCapability manifest .fsWrite "fs_write"
  refuseCapability manifest .commandExecution "command_execution"
  let toolName ← manifest.resolveToolName
  let sandbox ← sandboxFromManifest manifest
  .ok (.tool
    { pluginId := manifest.id
      pluginVersion := manifest.version
      toolName
      entrypointAbs
      allowFsRead := sandbox.allowFsRead
      scopes
      controls } sandbox)

def loadModelProvider (manifest : PackageManifest) (file : Except String (List UInt8))
    (controls : OperationalControls) : KelvinResult LoadedRuntime := do
  requireCapability manifest .modelProvider "model_provider" defaultModelRuntimeKind
  refuseIf (PluginCapability.fsRead ∈ manifest.capabilities ∨
      PluginCapability.fsWrite ∈ manifest.capabilities ∨
      PluginCapability.commandExecution ∈ manifest.capabilities)
    (.invalidInput (s!"plugin '{manifest.id}' runtime '{defaultModelRuntimeKind}' only supports " ++
      "model_provider and optional network_egress capabilities"))
  let entrypointBytes ← ioResult file
  let abiUsage ←
    validateModelPluginImports (libraries.parseImports entrypointBytes) manifest.id
  let profile ← resolveModelProviderProfile manifest abiUsage
  let providerName ← manifest.resolveModelProviderName profile
  let modelName ← manifest.resolvedModelName
  .ok (.modelProvider
    { pluginId := manifest.id
      pluginVersion := manifest.version
      providerName
      modelName
      reading := libraries.reading profile
      controls })

def loadRuntime (dir : VersionDir) (manifest : PackageManifest) (entrypointRel : String)
    (scopes : CapabilityScopes) (controls : OperationalControls) : KelvinResult LoadedRuntime :=
  if manifest.runtimeKind = defaultToolRuntimeKind then
    loadTool manifest (join (join dir.path "payload") entrypointRel) scopes controls
  else
    loadModelProvider libraries manifest
      ((dir.payload entrypointRel).getD (.error "No such file or directory")) controls

def instantiate (dir : VersionDir) (manifest : PackageManifest) (entrypointRel : String) :
    KelvinResult LoadedPluginFactoryData := do
  let scopes ← normalizeScopes manifest
  let controls ← normalizeControls manifest.id manifest.operationalControls
  let runtime ← loadRuntime libraries dir manifest entrypointRel scopes controls
  .ok ⟨manifest, entrypointRel, runtime⟩

/-- `load_one_plugin` of the plugin directory with the given name, where `resolve_version_dir`
gives the version directory. -/
def loadOnePlugin (policy : PublisherTrustPolicy κ) (pluginDirName : Option String)
    (versionDir : KelvinResult VersionDir) : KelvinResult LoadedPluginFactoryData :=
  match pluginDirName with
  | none => invalidInput "invalid plugin directory name"
  | some pluginId => do
    let dir ← versionDir
    let manifestBytes ← ioResult dir.manifestBytes
    let manifestPath := join dir.path "plugin.json"
    let manifest ← mapInvalid s!"invalid plugin manifest at {manifestPath}: "
      (libraries.parseManifest manifestBytes)
    refuseIf (manifest.id ≠ pluginId) (.invalidInput
      s!"plugin id mismatch: directory '{pluginId}' but manifest id '{manifest.id}'")
    refuseIf (manifest.runtimeKind ≠ defaultToolRuntimeKind ∧
        manifest.runtimeKind ≠ defaultModelRuntimeKind)
      (.invalidInput (s!"unsupported plugin runtime '{manifest.runtimeKind}'; expected " ++
        s!"'{defaultToolRuntimeKind}' or '{defaultModelRuntimeKind}'"))
    policy.verifyManifestSignature libraries.signatures manifest.toInstalledPluginPackageManifest
      manifestBytes dir.signature
    validateCoreManifest libraries.parseVersion manifest
    let entrypointRel ← checkEntrypoint libraries dir manifest
    instantiate libraries dir manifest entrypointRel

/-! ### What is loaded -/

section Accepted

variable {libraries} {policy : PublisherTrustPolicy κ} {name : Option String}
  {dir dir' : VersionDir} {manifest : PackageManifest} {loaded loaded' : LoadedPluginFactoryData}

@[simp] theorem ioResult_eq_ok {α : Type} {result : Except String α} {a : α} :
    ioResult result = .ok a ↔ result = .ok a := by
  cases result <;> simp [ioResult]

theorem checkEntrypoint_eq_ok {rel : String}
    (passes : checkEntrypoint libraries dir manifest = .ok rel) :
    normalizeSafeRelativePath manifest.entrypoint "entrypoint" = .ok rel ∧
      ∃ file, dir.payload rel = some file ∧
        ∀ expectedSha, manifest.entrypointSha256 = some expectedSha → ∃ bytes, file = .ok bytes ∧
          eqIgnoreAsciiCase (hexDigits (libraries.sha256 bytes))
            (trimChars expectedSha.toList) = true := by
  obtain ⟨normalized, path, found⟩ := bind_eq_ok.mp passes
  cases present : dir.payload normalized with
  | none =>
    rw [present] at found
    cases found
  | some file =>
    rw [present] at found
    cases hash : manifest.entrypointSha256 with
    | none =>
      rw [hash] at found
      cases found
      exact ⟨path, file, present, fun _ some => by cases some⟩
    | some expectedSha =>
      rw [hash] at found
      obtain ⟨bytes, read, compared⟩ := bind_eq_ok.mp found
      obtain ⟨matched, result⟩ := bind_unit_eq_ok.mp compared
      cases result
      refine ⟨path, file, present, fun other same => ⟨bytes, ioResult_eq_ok.mp read, ?_⟩⟩
      obtain rfl := Option.some_inj.mp same
      exact Bool.of_not_eq_false (refuseIf_eq_ok.mp matched)

theorem instantiate_eq_ok {rel : String}
    (made : instantiate libraries dir manifest rel = .ok loaded) :
    loaded.manifest = manifest ∧ loaded.entrypointRel = rel := by
  obtain ⟨_, _, made⟩ := bind_eq_ok.mp made
  obtain ⟨_, _, made⟩ := bind_eq_ok.mp made
  obtain ⟨_, _, made⟩ := bind_eq_ok.mp made
  cases made
  exact ⟨rfl, rfl⟩

/-- A package that is loaded: its manifest is the parsed one, the trust policy accepts it, and its
entrypoint passes. -/
theorem loadOnePlugin_eq_ok
    (accepts : loadOnePlugin libraries policy name (.ok dir) = .ok loaded) :
    ∃ manifestBytes, dir.manifestBytes = .ok manifestBytes ∧
      libraries.parseManifest manifestBytes = .ok loaded.manifest ∧
      policy.verifyManifestSignature libraries.signatures
        loaded.manifest.toInstalledPluginPackageManifest manifestBytes dir.signature = .ok () ∧
      checkEntrypoint libraries dir loaded.manifest = .ok loaded.entrypointRel := by
  cases name with
  | none => cases accepts
  | some pluginId =>
    unfold loadOnePlugin at accepts
    dsimp only at accepts
    obtain ⟨_, opened, accepts⟩ := bind_eq_ok.mp accepts
    cases opened
    obtain ⟨manifestBytes, read, accepts⟩ := bind_eq_ok.mp accepts
    obtain ⟨parsed, parses, accepts⟩ := bind_eq_ok.mp accepts
    obtain ⟨_, accepts⟩ := bind_unit_eq_ok.mp accepts
    obtain ⟨_, accepts⟩ := bind_unit_eq_ok.mp accepts
    obtain ⟨verified, accepts⟩ := bind_unit_eq_ok.mp accepts
    obtain ⟨_, accepts⟩ := bind_unit_eq_ok.mp accepts
    obtain ⟨rel, checked, made⟩ := bind_eq_ok.mp accepts
    obtain ⟨rfl, rfl⟩ := instantiate_eq_ok made
    exact ⟨manifestBytes, ioResult_eq_ok.mp read, mapInvalid_eq_ok.mp parses, verified, checked⟩

/-- Two packages that are accepted because of a verified signature, with one manifest and one
signature, have one entrypoint hash. -/
def PayloadDetermined (libraries : LoaderLibraries κ ς) (policy : PublisherTrustPolicy κ) :
    Prop :=
  ∀ name dir dir' loaded loaded' manifestBytes bytes bytes',
    loadOnePlugin libraries policy name (.ok dir) = .ok loaded →
      loadOnePlugin libraries policy name (.ok dir') = .ok loaded' →
        dir.manifestBytes = .ok manifestBytes → dir'.manifestBytes = .ok manifestBytes →
          dir.signature = dir'.signature →
            PublisherTrustPolicy.Signed libraries.signatures policy
                loaded.manifest.toInstalledPluginPackageManifest manifestBytes dir.signature →
              dir.payload loaded.entrypointRel = some (.ok bytes) →
                dir'.payload loaded'.entrypointRel = some (.ok bytes') →
                  libraries.sha256 bytes = libraries.sha256 bytes'

/-- **The payload of a manifest with a hash.** Two packages that the loader accepts under one trust
policy, with the same manifest, which has an `entrypoint_sha256`, load the same file of the
payload, with one hash; where hashes do not collide, with the same bytes. -/
theorem entrypoint_determined (libraries : LoaderLibraries κ ς) (policy : PublisherTrustPolicy κ)
    (name : Option String) (dir dir' : VersionDir) (loaded loaded' : LoadedPluginFactoryData)
    (accepts : loadOnePlugin libraries policy name (.ok dir) = .ok loaded)
    (accepts' : loadOnePlugin libraries policy name (.ok dir') = .ok loaded')
    (sameManifest : dir.manifestBytes = dir'.manifestBytes)
    (hashed : loaded.manifest.entrypointSha256 ≠ none) :
    loaded.entrypointRel = loaded'.entrypointRel ∧
      ∃ bytes bytes', dir.payload loaded.entrypointRel = some (.ok bytes) ∧
        dir'.payload loaded'.entrypointRel = some (.ok bytes') ∧
        libraries.sha256 bytes = libraries.sha256 bytes' ∧
        (Function.Injective libraries.sha256 → bytes = bytes') := by
  obtain ⟨manifestBytes, read, parsed, _, checked⟩ := loadOnePlugin_eq_ok accepts
  obtain ⟨manifestBytes', read', parsed', _, checked'⟩ := loadOnePlugin_eq_ok accepts'
  rw [sameManifest, read'] at read
  cases read
  rw [parsed] at parsed'
  have same := Except.ok.inj parsed'
  rw [← same] at checked'
  obtain ⟨expectedSha, hash⟩ := Option.ne_none_iff_exists'.mp hashed
  obtain ⟨path, file, present, compared⟩ := checkEntrypoint_eq_ok checked
  obtain ⟨path', file', present', compared'⟩ := checkEntrypoint_eq_ok checked'
  obtain ⟨bytes, rfl, matched⟩ := compared expectedSha hash
  obtain ⟨bytes', rfl, matched'⟩ := compared' expectedSha hash
  have digests := digest_eq_of_matches matched matched'
  exact ⟨Except.ok.inj (path.symm.trans path'), bytes, bytes', present, present', digests,
    fun collisionFree => collisionFree digests⟩

theorem exists_loaded {rel : String} (facts : (loadOnePlugin libraries policy name (.ok dir)).map
      (fun loaded => (loaded.manifest, loaded.entrypointRel)) = .ok (manifest, rel)) :
    ∃ loaded, loadOnePlugin libraries policy name (.ok dir) = .ok loaded ∧
      loaded.manifest = manifest ∧ loaded.entrypointRel = rel := by
  cases ran : loadOnePlugin libraries policy name (.ok dir) with
  | error err =>
    rw [ran] at facts
    cases facts
  | ok loaded =>
    rw [ran] at facts
    cases facts
    exact ⟨loaded, rfl, rfl, rfl⟩

end Accepted

/-! ### A signed package whose payload is replaced -/

def emptyDigest : String := "e3b0c44298fc1c149afbf4c8996fb92427ae41e4649b934ca495991b7852b855"

def hexValue (c : Char) : ℕ := if c.isDigit then c.toNat - 48 else c.toNat - 87

def digestOfHex : List Char → List UInt8
  | high :: low :: rest => UInt8.ofNat (16 * hexValue high + hexValue low) :: digestOfHex rest
  | _ => []

/-- The manifest of a tool, with the given hash of its entrypoint. -/
def echoManifest (entrypointSha256 : Option String) : PackageManifest where
  id := "acme.echo"
  publisher := some "acme"
  qualityTier := some "signed_community"
  name := "Echo"
  version := "1.0.0"
  apiVersion := "1.0.0"
  description := none
  homepage := none
  capabilities := [.toolProvider]
  minCoreVersion := none
  maxCoreVersion := none
  runtime := none
  toolName := none
  providerName := none
  providerProfile := none
  modelName := none
  entrypoint := "echo.wasm"
  entrypointSha256
  capabilityScopes := ⟨[], [], []⟩
  operationalControls := ⟨2000, 0, 100, 2, 1000⟩
  fuelBudget := none

/-- The manifest `h` has a hash, any other has none. Only the empty file is hashed as it should. -/
def echoLibraries : LoaderLibraries (List UInt8) (List UInt8) where
  signatures := PublisherTrustPolicy.plainLibrary
  parseManifest bytes := .ok (echoManifest (if bytes = [104] then some emptyDigest else none))
  parseVersion _ := .ok ()
  sha256 bytes := if bytes = [] then digestOfHex emptyDigest.toList else []
  parseImports _ := []
  reading _ := ⟨fun _ => .error "not read", fun _ => none, fun _ => .ok (), none⟩

/-- The key of `acme` is trusted. -/
def acmeTrusted : PublisherTrustPolicy (List UInt8) :=
  PublisherTrustPolicy.default.insertTrusted "acme" [107]

/-- A package with the manifest, which `acme` has signed, and with the payload. -/
def signedEcho (manifest : Char) (payload : List UInt8) : VersionDir where
  path := "/plugins/acme.echo/1.0.0"
  manifestBytes := .ok [UInt8.ofNat manifest.toNat]
  signature := .present (String.ofList ['k', manifest])
  payload rel := if rel = "echo.wasm" then some (.ok payload) else none

/-- The package with the hash in another place, with a second file in its payload. -/
def copiedEcho : VersionDir :=
  { signedEcho 'h' [] with
    path := "/backup/acme.echo/1.0.0"
    payload := fun rel =>
      if rel = "notes.txt" then some (.ok [110]) else (signedEcho 'h' []).payload rel }

/-- The manifest with the hash is accepted in both places, with the empty payload. -/
theorem hashed_payload_loads : ∃ loaded loaded' bytes bytes',
    loadOnePlugin echoLibraries acmeTrusted (some "acme.echo") (.ok (signedEcho 'h' [])) =
        .ok loaded ∧
      loadOnePlugin echoLibraries acmeTrusted (some "acme.echo") (.ok copiedEcho) = .ok loaded' ∧
      loaded.entrypointRel = loaded'.entrypointRel ∧
      (signedEcho 'h' []).payload loaded.entrypointRel = some (.ok bytes) ∧
      copiedEcho.payload loaded'.entrypointRel = some (.ok bytes') ∧
      echoLibraries.sha256 bytes = echoLibraries.sha256 bytes' := by
  obtain ⟨loaded, accepts, manifest, _⟩ := exists_loaded
    (show (loadOnePlugin echoLibraries acmeTrusted (some "acme.echo")
        (.ok (signedEcho 'h' []))).map (fun loaded => (loaded.manifest, loaded.entrypointRel)) =
      .ok (echoManifest (some emptyDigest), "echo.wasm") by decide +kernel)
  obtain ⟨loaded', accepts', _, _⟩ := exists_loaded
    (show (loadOnePlugin echoLibraries acmeTrusted (some "acme.echo")
        (.ok copiedEcho)).map (fun loaded => (loaded.manifest, loaded.entrypointRel)) =
      .ok (echoManifest (some emptyDigest), "echo.wasm") by decide +kernel)
  have hashed : loaded.manifest.entrypointSha256 ≠ none := by
    rw [manifest]
    exact Option.some_ne_none _
  obtain ⟨rel, bytes, bytes', present, present', digests, _⟩ :=
    entrypoint_determined echoLibraries acmeTrusted (some "acme.echo") (signedEcho 'h' [])
      copiedEcho loaded loaded' accepts accepts' rfl hashed
  exact ⟨loaded, loaded', bytes, bytes', accepts, accepts', rel, present, present', digests⟩

/-- A signed package without the hash is accepted with either of two payloads. -/
theorem payload_replaced : ¬ PayloadDetermined echoLibraries acmeTrusted := by
  intro determined
  obtain ⟨loaded, accepts, manifest, rel⟩ := exists_loaded
    (show (loadOnePlugin echoLibraries acmeTrusted (some "acme.echo")
        (.ok (signedEcho 'm' []))).map (fun loaded => (loaded.manifest, loaded.entrypointRel)) =
      .ok (echoManifest none, "echo.wasm") by decide +kernel)
  obtain ⟨loaded', accepts', _, rel'⟩ := exists_loaded
    (show (loadOnePlugin echoLibraries acmeTrusted (some "acme.echo")
        (.ok (signedEcho 'm' [0]))).map (fun loaded => (loaded.manifest, loaded.entrypointRel)) =
      .ok (echoManifest none, "echo.wasm") by decide +kernel)
  have signed : PublisherTrustPolicy.Signed echoLibraries.signatures acmeTrusted
      loaded.manifest.toInstalledPluginPackageManifest [109] (signedEcho 'm' []).signature := by
    rw [manifest]
    exact ⟨"acme", [107], "km", [107, 109], [107, 109], rfl, rfl, rfl, by decide +kernel,
      by decide +kernel, rfl, by decide +kernel⟩
  have digests := determined (some "acme.echo") (signedEcho 'm' []) (signedEcho 'm' [0]) loaded
    loaded' [109] [] [0] accepts accepts' rfl rfl rfl signed (by rw [rel]; rfl) (by rw [rel']; rfl)
  revert digests
  decide +kernel

end KelvinClaw.Plugin
