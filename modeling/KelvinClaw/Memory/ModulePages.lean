import KelvinClaw.Core.Text
import KelvinClaw.Library.Growth

/-!
# The memory of a module

A module is loaded if the memories that it declares begin with no more pages than are allowed,
and do not declare more as their maximum. A memory that declares no maximum passes. The engine
lets a memory grow up to its maximum, and without bound where there is none, so that the limit
holds of the loaded modules whose memories all declare a maximum.

The parser of the binary format and the engine are parameters.
-/

namespace KelvinClaw.Memory.ModuleRuntime

open KelvinClaw.Core Systems

/-! ### Modules -/

/-- What a memory section says of a memory. -/
structure MemoryType where
  initial : ℕ
  maximum : Option ℕ
  deriving DecidableEq, Repr

/-- A part of a module, as the parser reads it. -/
inductive Payload where
  | memorySection (memories : List (Except String MemoryType))
  | other

/-- The types of a function of the host. -/
inductive ValType where
  | i32
  | i64
  | other
  deriving DecidableEq, Repr

inductive ExternType where
  | func (params results : List ValType)
  | memory (memory : MemoryType)
  | other
  deriving DecidableEq, Repr

structure Import where
  module : String
  name : String
  type : ExternType
  deriving DecidableEq, Repr

/-- A module as the engine compiles it: its imports, its exports, and the memories it declares. -/
structure CompiledModule where
  imports : List Import
  exports : List String
  memories : List MemoryType
  deriving DecidableEq, Repr

/-- The parser, which reads the parts of a module up to the first error, and the engine. -/
structure WasmLibraries where
  parseAll : List UInt8 → List (Except String Payload)
  newEngine : Except String Unit
  compile : List UInt8 → Except String CompiledModule

structure MemoryModuleManifest where
  moduleId : String
  version : String
  apiVersion : String
  capabilities : List String
  requiredHostFeatures : List String
  entrypoint : String
  publisher : String
  signature : String
  deriving DecidableEq, Repr

structure ModuleRuntimeConfig where
  maxModuleBytes : ℕ
  maxMemoryPages : ℕ
  defaultFuel : ℕ
  defaultTimeoutMs : ℕ
  deriving DecidableEq, Repr

/-! ### Loading -/

/-- The text of an `ApiError`, as the error of the loader carries it. -/
def invalidManifest (message : String) : KelvinError := .invalidInput ("invalid input: " ++ message)

def checkCapabilities (seen : List String) : List String → KelvinResult Unit
  | [] => .ok ()
  | capability :: rest => do
    let normalized := trim capability
    refuseIf (normalized = "") (invalidManifest "capabilities must not include empty value")
    refuseIf (normalized ∈ seen) (invalidManifest s!"duplicate capability: {normalized}")
    checkCapabilities (normalized :: seen) rest

def MemoryModuleManifest.validate (manifest : MemoryModuleManifest) : KelvinResult Unit := do
  refuseIf (trim manifest.moduleId = "") (invalidManifest "module_id must not be empty")
  refuseIf (trim manifest.version = "") (invalidManifest "version must not be empty")
  refuseIf (trim manifest.apiVersion = "") (invalidManifest "api_version must not be empty")
  refuseIf (trim manifest.entrypoint = "") (invalidManifest "entrypoint must not be empty")
  refuseIf (trim manifest.publisher = "") (invalidManifest "publisher must not be empty")
  refuseIf (trim manifest.signature = "") (invalidManifest "signature must not be empty")
  checkCapabilities [] manifest.capabilities

def checkMemory (maxMemoryPages : ℕ) (memory : MemoryType) : KelvinResult Unit := do
  refuseIf (maxMemoryPages < memory.initial) (.invalidInput
    s!"module initial memory pages {memory.initial} exceed limit {maxMemoryPages}")
  match memory.maximum with
  | none => .ok ()
  | some maximum => refuseIf (maxMemoryPages < maximum) (.invalidInput
      s!"module max memory pages {maximum} exceed limit {maxMemoryPages}")

def checkMemories (maxMemoryPages : ℕ) : List (Except String MemoryType) → KelvinResult Unit
  | [] => .ok ()
  | .error err :: _ => .error (.invalidInput err)
  | .ok memory :: rest => do
    checkMemory maxMemoryPages memory
    checkMemories maxMemoryPages rest

/-- The loop of `validate_memory_pages`. -/
def checkPayloads (maxMemoryPages : ℕ) : List (Except String Payload) → KelvinResult Unit
  | [] => .ok ()
  | .error err :: _ => .error (.invalidInput err)
  | .ok (.memorySection memories) :: rest => do
    checkMemories maxMemoryPages memories
    checkPayloads maxMemoryPages rest
  | .ok .other :: rest => checkPayloads maxMemoryPages rest

def validateMemoryPages (libraries : WasmLibraries) (bytes : List UInt8) (maxMemoryPages : ℕ) :
    KelvinResult Unit :=
  checkPayloads maxMemoryPages (libraries.parseAll bytes)

def requiredExports : List String :=
  ["handle_upsert", "handle_query", "handle_read", "handle_delete", "handle_health"]

structure LoadedMemoryModule where
  manifest : MemoryModuleManifest
  module : CompiledModule
  config : ModuleRuntimeConfig

def checkExports (manifest : MemoryModuleManifest) (module : CompiledModule) :
    List String → KelvinResult Unit
  | [] => .ok ()
  | required :: rest => do
    refuseIf (required ∉ module.exports) (.invalidInput
      s!"module '{manifest.moduleId}' missing required export '{required}'")
    checkExports manifest module rest

def LoadedMemoryModule.new (libraries : WasmLibraries) (manifest : MemoryModuleManifest)
    (wasmBytes : List UInt8) (config : ModuleRuntimeConfig) : KelvinResult LoadedMemoryModule := do
  manifest.validate
  refuseIf (config.maxModuleBytes < wasmBytes.length) (.invalidInput
    s!"module '{manifest.moduleId}' exceeds max bytes {config.maxModuleBytes}")
  validateMemoryPages libraries wasmBytes config.maxMemoryPages
  match libraries.newEngine with
  | .error err => .error (.backend s!"engine init failed: {err}")
  | .ok _ =>
    match libraries.compile wasmBytes with
    | .error err => .error (.invalidInput s!"invalid wasm module: {err}")
    | .ok module => do
      checkExports manifest module requiredExports
      return ⟨manifest, module, config⟩

/-! ### Running -/

def memoryHostImportModule : String := "memory_host"

def hostFunctions : List (String × ExternType) :=
  (["kv_get", "kv_put", "blob_get", "blob_put", "emit_metric", "log"].map fun name =>
    (name, .func [.i32] [.i32])) ++ [("clock_now_ms", .func [] [.i64])]

def CompiledModule.Links (module : CompiledModule) : Prop :=
  ∀ item ∈ module.imports,
    item.module = memoryHostImportModule ∧ (item.name, item.type) ∈ hostFunctions

instance (module : CompiledModule) : Decidable module.Links := by
  unfold CompiledModule.Links
  infer_instance

def CompiledModule.growables (module : CompiledModule) : List Growable :=
  module.memories.map fun memory => ⟨memory.initial, memory.maximum⟩

/-- The pages of the memories of an instance, which begins with the initial ones if the module
links. The engine lets a memory grow up to its maximum. -/
def LoadedMemoryModule.pages (loaded : LoadedMemoryModule) :
    TransitionSystem (List ℕ) (ℕ × ℕ) where
  init sizes := loaded.module.Links ∧ (growth loaded.module.growables).init sizes
  step := (growth loaded.module.growables).step

/-! ### The limit -/

def sectionMemories (payloads : List (Except String Payload)) : List (Except String MemoryType) :=
  payloads.flatMap fun
    | .ok (.memorySection memories) => memories
    | _ => []

def WasmLibraries.Agree (libraries : WasmLibraries) : Prop :=
  ∀ bytes module, libraries.compile bytes = .ok module →
    sectionMemories (libraries.parseAll bytes) = module.memories.map .ok

/-- A memory begins within a limit, and declares no more as its maximum. -/
def Admitted (maxMemoryPages : ℕ) (memory : MemoryType) : Prop :=
  memory.initial ≤ maxMemoryPages ∧ ∀ maximum ∈ memory.maximum, maximum ≤ maxMemoryPages

section Limit

variable {maxMemoryPages : ℕ}

theorem admitted_of_checkMemory {memory : MemoryType}
    (checked : checkMemory maxMemoryPages memory = .ok ()) : Admitted maxMemoryPages memory := by
  obtain ⟨first, checked⟩ := bind_unit_eq_ok.mp checked
  rw [refuseIf_eq_ok, Nat.not_lt] at first
  refine ⟨first, fun maximum declared => ?_⟩
  rw [Option.mem_def.mp declared] at checked
  rwa [refuseIf_eq_ok, Nat.not_lt] at checked

theorem admitted_of_checkMemories {memories : List (Except String MemoryType)}
    (checked : checkMemories maxMemoryPages memories = .ok ()) {memory : MemoryType}
    (member : .ok memory ∈ memories) : Admitted maxMemoryPages memory := by
  induction memories with
  | nil => cases member
  | cons first rest ih =>
    cases first with
    | error err => cases checked
    | ok first =>
      obtain ⟨here, later⟩ := bind_unit_eq_ok.mp checked
      rcases List.mem_cons.mp member with same | member
      · cases same
        exact admitted_of_checkMemory here
      · exact ih later member

theorem admitted_of_checkPayloads {payloads : List (Except String Payload)}
    (checked : checkPayloads maxMemoryPages payloads = .ok ()) {memory : MemoryType}
    (member : .ok memory ∈ sectionMemories payloads) : Admitted maxMemoryPages memory := by
  induction payloads with
  | nil => cases member
  | cons payload rest ih =>
    rw [sectionMemories, List.flatMap_cons, List.mem_append] at member
    match payload, checked, member with
    | .error err, checked, _ => cases checked
    | .ok .other, checked, member => exact ih checked (member.resolve_left (List.not_mem_nil))
    | .ok (.memorySection memories), checked, member =>
      obtain ⟨here, later⟩ := bind_unit_eq_ok.mp checked
      rcases member with inSection | member
      · exact admitted_of_checkMemories here inSection
      · exact ih later member

variable {libraries : WasmLibraries} {manifest : MemoryModuleManifest} {bytes : List UInt8}
  {config : ModuleRuntimeConfig} {loaded : LoadedMemoryModule}

theorem admitted_of_new (agree : libraries.Agree)
    (accepted : LoadedMemoryModule.new libraries manifest bytes config = .ok loaded)
    {memory : MemoryType} (declared : memory ∈ loaded.module.memories) :
    Admitted config.maxMemoryPages memory := by
  simp only [LoadedMemoryModule.new, bind_unit_eq_ok] at accepted
  obtain ⟨_, _, checked, accepted⟩ := accepted
  split at accepted
  · cases accepted
  · split at accepted
    · cases accepted
    · next module compiled =>
      obtain ⟨_, same⟩ := bind_unit_eq_ok.mp accepted
      obtain rfl := pure_eq_ok.mp same
      apply admitted_of_checkPayloads checked
      rw [agree bytes module compiled]
      exact List.mem_map_of_mem declared

theorem reachable_pages_iff {sizes : List ℕ} : loaded.pages.Reachable sizes ↔
    loaded.module.Links ∧ (growth loaded.module.growables).Reachable sizes := by
  constructor
  · intro reached
    induction reached with
    | init starts => exact ⟨starts.1, .init starts.2⟩
    | step _ meets moves ih => exact ⟨ih.1, TransitionSystem.ReachableWhen.step ih.2 meets moves⟩
  · rintro ⟨links, reached⟩
    induction reached with
    | init starts => exact .init ⟨links, starts⟩
    | step _ meets moves ih => exact TransitionSystem.ReachableWhen.step ih meets moves

/-- The memories of a loaded module stay within the limit exactly when each of them declares a
maximum, or the module imports what the host does not provide. -/
theorem module_page_limit_iff (agree : libraries.Agree)
    (accepted : LoadedMemoryModule.new libraries manifest bytes config = .ok loaded) :
    (∀ sizes, loaded.pages.Reachable sizes → ∀ size ∈ sizes, size ≤ config.maxMemoryPages) ↔
      ¬ loaded.module.Links ∨ ∀ memory ∈ loaded.module.memories, memory.maximum ≠ none := by
  have admitted : ∀ item ∈ loaded.module.growables, item.start ≤ config.maxMemoryPages ∧
      ∀ ceiling ∈ item.ceiling, ceiling ≤ config.maxMemoryPages := by
    intro item listed
    obtain ⟨memory, declared, rfl⟩ := List.mem_map.mp listed
    exact admitted_of_new agree accepted declared
  have limits := bounded_iff (fun item listed => (admitted item listed).1)
    fun item listed => (admitted item listed).2
  simp only [reachable_pages_iff]
  by_cases links : loaded.module.Links
  · simp only [links, true_and, not_true_eq_false, false_or]
    rw [limits, CompiledModule.growables, List.forall_mem_map]
  · exact iff_of_true (fun _ reached => absurd reached.1 links) (.inl links)

end Limit

/-! ### A memory without a maximum -/

def echoManifest : MemoryModuleManifest where
  moduleId := "memory.echo"
  version := "0.1.0"
  apiVersion := "v1alpha1"
  capabilities := ["memory_read"]
  requiredHostFeatures := []
  entrypoint := "memory_echo.wasm"
  publisher := "kelvin"
  signature := "signature"

def defaultConfig : ModuleRuntimeConfig := ⟨2 * 1024 * 1024, 64, 100000, 2000⟩

/-- A module with the exports of a memory module and one memory of a page. Every export is the
function that grows the memory by 65 pages. -/
def growingModule (maximum : Option UInt8) : List UInt8 :=
  let limits := match maximum with
    | none => [0x05, 0x03, 0x01, 0x00, 0x01]
    | some maximum => [0x05, 0x04, 0x01, 0x01, 0x01, maximum]
  let exported := requiredExports.flatMap fun name =>
    UInt8.ofNat name.length :: name.toList.map (fun c => UInt8.ofNat c.toNat) ++ [0x00, 0x00]
  [0x00, 0x61, 0x73, 0x6d, 0x01, 0x00, 0x00, 0x00] ++
    [0x01, 0x05, 0x01, 0x60, 0x00, 0x01, 0x7f] ++ [0x03, 0x02, 0x01, 0x00] ++ limits ++
    [0x07, 0x4e, 0x05] ++ exported ++
    [0x0a, 0x0c, 0x01, 0x0a, 0x00, 0x41, 0xc1, 0x00, 0x40, 0x00, 0x1a, 0x41, 0x00, 0x0b]

def moduleWith (maximum : Option UInt8) : CompiledModule where
  imports := []
  exports := requiredExports
  memories := [⟨1, maximum.map UInt8.toNat⟩]

def librariesWith (maximum : Option UInt8) : WasmLibraries where
  parseAll _ := [.ok .other, .ok .other, .ok .other,
    .ok (.memorySection [.ok ⟨1, maximum.map UInt8.toNat⟩]), .ok .other, .ok .other, .ok .other,
    .ok .other]
  newEngine := .ok ()
  compile _ := .ok (moduleWith maximum)

theorem agree_librariesWith (maximum : Option UInt8) : (librariesWith maximum).Agree := by
  rintro bytes module compiled
  obtain rfl := Except.ok.inj compiled
  rfl

theorem module_page_limit_two_pages :
    (∀ sizes, (⟨echoManifest, moduleWith (some 2), defaultConfig⟩ :
        LoadedMemoryModule).pages.Reachable sizes → ∀ size ∈ sizes, size ≤ 64) ↔
      ¬ (moduleWith (some 2)).Links ∨ ∀ memory ∈ (moduleWith (some 2)).memories,
        memory.maximum ≠ none :=
  @module_page_limit_iff (librariesWith (some 2)) echoManifest (growingModule (some 2))
    defaultConfig ⟨echoManifest, moduleWith (some 2), defaultConfig⟩ (agree_librariesWith (some 2))
    rfl

/-- A module whose memory declares no maximum is loaded, and grows it beyond the limit. -/
theorem undeclared_maximum_exceeds_limit :
    ∃ loaded, LoadedMemoryModule.new (librariesWith none) echoManifest (growingModule none)
        defaultConfig = .ok loaded ∧
      ∃ sizes, loaded.pages.Reachable sizes ∧
        ∃ size ∈ sizes, defaultConfig.maxMemoryPages < size := by
  refine ⟨⟨echoManifest, moduleWith none, defaultConfig⟩, rfl, ?_⟩
  have links : (moduleWith none).Links := by decide
  obtain ⟨sizes, reached, beyond⟩ := exists_reachable_gt
    (show (⟨1, none⟩ : Growable) ∈ (moduleWith none).growables by decide) rfl
    defaultConfig.maxMemoryPages
  exact ⟨sizes, reachable_pages_iff.mpr ⟨links, reached⟩, beyond⟩

end KelvinClaw.Memory.ModuleRuntime
