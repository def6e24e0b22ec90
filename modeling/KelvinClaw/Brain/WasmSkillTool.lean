import KelvinClaw.Library.Annotation
import KelvinClaw.Sdk.FsSafeWrite

/-!
# The tool that runs skills

A call names a module of the workspace and a policy, runs the module in a sandbox, and appends a
line to a file of the memory. Some arguments are checked before the module runs and some after it:
the place and the text of the line are looked at when the module has ended.
-/

namespace KelvinClaw.Brain.WasmSkillTool

open Systems KelvinClaw.Core KelvinClaw.Plugin KelvinClaw.Sdk

/-! ### Skills -/

/-- How a module ends that is linked and run. -/
inductive ModuleRun where
  | returned (exitCode : ℤ) (calls : List ClawCall)
  | outOfFuel
  | failed (context err : String)

/-- A compiled module: the modules and names of its imports, and what it does in a sandbox. -/
structure WasmModule where
  imports : List (String × String)
  run : SandboxPolicy → ModuleRun

abbrev Engine := List UInt8 → Except String WasmModule

/-- What a call does: it touches a file, or lets a module run. -/
inductive SkillEvent where
  | touched (access : FileAccess)
  | executed (bytes : List UInt8)
  deriving DecidableEq, Repr

abbrev SkillAction := Action WorkspaceFiles SkillEvent KelvinError

/-- A computation on the files as a part of a call. -/
def onFiles {α : Type} (act : WorkspaceAction α) : SkillAction α :=
  Action.mapJournal (List.map .touched) act

/-- `validate_imports`, for one import. -/
def validateImport (policy : SandboxPolicy) : String × String → KelvinResult Unit
  | (module, name) => do
    refuseIf (module ≠ "claw") (.invalidInput
      s!"unsupported import module '{module}' for ABI 1.0.0 (expected 'claw')")
    let denied := KelvinError.invalidInput s!"capability import '{name}' denied by sandbox policy"
    if name ∈ ["send_message", "log"] then .ok ()
    else if name = "move_servo" then refuseIf (¬ policy.allowMoveServo) denied
    else if name = "fs_read" then refuseIf (¬ policy.allowFsRead) denied
    else if name ∈ ["network_send", "http_call"] then
      refuseIf (policy.networkAllowHosts = []) denied
    else if name = "get_env" then refuseIf (policy.envAllow = []) denied
    else .error (.invalidInput s!"unsupported ABI 1.0.0 import '{module}.{name}'")

/-- `run_bytes`. -/
def runBytes (engine : Engine) (bytes : List UInt8) (policy : SandboxPolicy) :
    SkillAction SkillExecution :=
  if policy.maxModuleBytes < bytes.length then
    Action.fail (.invalidInput
      s!"wasm module size {bytes.length} exceeds limit {policy.maxModuleBytes}")
  else
    match engine bytes with
    | .error err => Action.fail (.backend s!"compile wasm module: {err}")
    | .ok module => do
      let _ ← Action.ofExcept (module.imports.mapM (validateImport policy))
      -- the code of the module may run from its instantiation on
      Action.log (.executed bytes)
      match module.run policy with
      | .returned exitCode calls => pure ⟨exitCode, calls, none⟩
      | .outOfFuel => Action.fail (.timeout "skill execution exceeded fuel budget")
      | .failed context err => Action.fail (.backend s!"{context}: {err}")

/-! ### Arguments -/

/-- What is fixed for a tool, with the lower case and the printer of JSON values. -/
structure SkillEnvironment where
  name : String
  defaultPolicy : SandboxPolicy
  workingDir : Location
  toLowercase : String → String
  toJsonText : Value → String

/-- How the system answers during a call, where the files do not decide it. -/
structure SkillSurroundings where
  readFails : Option String
  writes : WriteSurroundings

def defaultMemoryAppendPath : String := "memory/skill-events.md"

section Arguments

variable (env : SkillEnvironment) (args : List (String × Value))

def requireString (key : String) : KelvinResult String :=
  match Value.lookup key args with
  | none => .error (.invalidInput s!"{env.name} tool requires '{key}' argument")
  | some value =>
    match value.asStr with
    | none => .error (.invalidInput s!"{env.name} tool argument '{key}' must be a string")
    | some text => .ok text

def optional {α : Type} (read : Value → Option α) (key kind : String) : KelvinResult (Option α) :=
  match Value.lookup key args with
  | none => .ok none
  | some value =>
    match read value with
    | some a => .ok (some a)
    | none => .error (.invalidInput s!"'{key}' must be {kind}")

def optionalBool (key : String) : KelvinResult (Option Bool) :=
  optional args Value.asBool key "a boolean"

def optionalStringArray (key : String) : KelvinResult (Option (List String)) :=
  optional args (fun value => value.asArray.bind (·.mapM Value.asStr)) key "an array of strings"

def optionalU64 (key : String) : KelvinResult (Option ℕ) := optional args asU64 key "a u64"

/-- A `usize` has the width of a `u64`. -/
def optionalUsize (key : String) : KelvinResult (Option ℕ) := optional args asU64 key "a usize"

/-- `sanitize_rel_path`. -/
def sanitizeRelPath (raw field : String) : KelvinResult String :=
  normalizeWorkspaceRelativePath raw s!"'{field}'"

/-- `validate_memory_path_scope`. -/
def validateMemoryPathScope (path : String) : KelvinResult Unit :=
  refuseIf
    (¬ (path = "MEMORY.md" ∨ "memory/".toList <+: path.toList ∧ ".md".toList <:+ path.toList))
    (.invalidInput "memory append path must be MEMORY.md or memory/*.md")

/-- `SandboxPreset::parse` and `policy`. -/
def presetPolicy (raw : String) : Option SandboxPolicy :=
  let name := env.toLowercase (trim raw)
  if name ∈ ["locked_down", "locked-down", "locked"] then some SandboxPolicy.lockedDown
  else if name ∈ ["dev_local", "dev-local", "dev"] then
    some { SandboxPolicy.lockedDown with allowFsRead := true }
  else if name ∈ ["hardware_control", "hardware-control", "hardware"] then
    some { SandboxPolicy.lockedDown with allowMoveServo := true }
  else none

def resolvePolicy : KelvinResult SandboxPolicy := do
  let preset ← optionalString args "policy_preset" s!"{env.name} tool"
  let policy ← match preset with
    | none => .ok env.defaultPolicy
    | some raw =>
      match presetPolicy env raw with
      | some policy => .ok policy
      | none => .error (.invalidInput s!"unknown policy preset: {raw}")
  let allowMoveServo ← optionalBool args "allow_move_servo"
  let allowFsRead ← optionalBool args "allow_fs_read"
  let networkAllowHosts ← optionalStringArray args "network_allow_hosts"
  let maxModuleBytes ← optionalUsize args "max_module_bytes"
  let fuelBudget ← optionalU64 args "fuel_budget"
  pure
    { policy with
      allowMoveServo := allowMoveServo.getD policy.allowMoveServo
      allowFsRead := allowFsRead.getD policy.allowFsRead
      networkAllowHosts := networkAllowHosts.getD policy.networkAllowHosts
      maxModuleBytes := maxModuleBytes.getD policy.maxModuleBytes
      fuelBudget := fuelBudget.getD policy.fuelBudget }

def moduleArguments : KelvinResult (String × SandboxPolicy) := do
  let raw ← requireString env args "wasm_path"
  let wasmPath ← sanitizeRelPath raw "wasm_path"
  let policy ← resolvePolicy env args
  pure (wasmPath, policy)

/-- The arguments that are checked when it has ended. -/
def memoryArguments : KelvinResult (String × Option String) := do
  let raw ← optionalString args "memory_append_path" s!"{env.name} tool"
  let memoryPath ← sanitizeRelPath (raw.getD defaultMemoryAppendPath) "memory_append_path"
  validateMemoryPathScope memoryPath
  let memoryEntry ← optionalString args "memory_entry" s!"{env.name} tool"
  pure (memoryPath, memoryEntry)

end Arguments

/-! ### Calls -/

def clawCallLabel : ClawCall → String
  | .sendMessage messageCode => s!"send_message({messageCode})"
  | .moveServo channel position => s!"move_servo({channel},{position})"
  | .fsRead handle => s!"fs_read({handle})"
  | .networkSend packet => s!"network_send({packet})"
  | .httpCall url => s!"http_call({url})"
  | .envAccess key => s!"env_access({key})"

def defaultEntry (runId : String) (execution : SkillExecution) : String :=
  let labels := ",".intercalate (execution.calls.map clawCallLabel)
  s!"run_id={runId} exit_code={execution.exitCode} calls={labels}"

def resultOf (env : SkillEnvironment) (wasmPath memoryPath : String) (execution : SkillExecution) :
    ToolCallResult :=
  let callsJson := execution.calls.map clawCallJson
  let summary := s!"wasm skill exit={execution.exitCode} calls={callsJson.length}"
  let output := Value.object [("wasm_path", .str wasmPath), ("memory_path", .str memoryPath),
    ("exit_code", .num execution.exitCode), ("calls", .arr callsJson)]
  { summary := summary, output := some (env.toJsonText output), visibleText := some summary
    isError := false }

/-- `fs::read`. -/
def readModule (env : SkillEnvironment) (surroundings : SkillSurroundings) (path : String) :
    WorkspaceAction (List UInt8) :=
  match filePlace env.workingDir path with
  | none => Action.fail (.io surroundings.writes.conflict)
  | some place => do
    let held ← Action.look place
    match held, surroundings.readFails with
    | some (.file bytes), none => do
      Action.log (.read place)
      pure bytes
    | some (.file _), some err => Action.fail (.io err)
    | _, _ => Action.fail (.io surroundings.writes.conflict)

/-- `create_dir_all` of the parent of a path. -/
def createParent (env : SkillEnvironment) (surroundings : WriteSurroundings) (path : String) :
    WorkspaceAction PUnit :=
  let places := SessionToolsTool.directoriesAbove env.workingDir path
  if (components path).dropLast.any hasNul then Action.fail (.io SessionToolsTool.nulMessage)
  else
    match surroundings.createDirFails with
    | none => SafeFsWriteTool.makeDirectories surroundings.conflict places
    | some (made, err) => do
      SafeFsWriteTool.makeDirectories surroundings.conflict (places.take made)
      Action.fail (.io err)

def appendLine (env : SkillEnvironment) (surroundings : WriteSurroundings) (path line : String) :
    WorkspaceAction PUnit := do
  createParent env surroundings path
  match filePlace env.workingDir path with
  | none => Action.fail (.io surroundings.conflict)
  | some place => do
    let start ← SafeFsWriteTool.openFile surroundings place true
    SafeFsWriteTool.writeAll surroundings place start (line ++ "\n").toUTF8.data.toList

def call (env : SkillEnvironment) (engine : Engine) (surroundings : SkillSurroundings)
    (input : ToolCallInput) : SkillAction ToolCallResult := do
  let args ← Action.ofExcept (argsObject input.arguments s!"{env.name} tool")
  let (wasmPath, policy) ← Action.ofExcept (moduleArguments env args)
  let bytes ← onFiles (readModule env surroundings (join input.workspaceDir wasmPath))
  let execution ← runBytes engine bytes policy
  let (memoryPath, memoryEntry) ← Action.ofExcept (memoryArguments env args)
  let line := memoryEntry.getD (defaultEntry input.runId execution)
  onFiles (appendLine env surroundings.writes (join input.workspaceDir memoryPath) line)
  pure (resultOf env wasmPath memoryPath execution)

/-! ### What is written -/

/-- The files of the memory of a workspace: one beside the directory of the memory, and those below
it whose names have the ending. -/
def InMemoryScope (workingDir : Location) (workspaceDir : String) (place : Location) : Prop :=
  place = locate workingDir workspaceDir ++ ["MEMORY.md"] ∨
    ∃ directories name, ".md".toList <:+ String.toList name ∧
      place = locate workingDir workspaceDir ++ "memory" :: (directories ++ [name])

/-- A part of a call that changes no file outside of the memory and opens none there for writing. -/
abbrev WritesMemory {α : Type} (workingDir : Location) (workspaceDir : String)
    (act : SkillAction α) : Prop :=
  Action.Frames (ContentsOutside (InMemoryScope workingDir workspaceDir))
    (fun _ event => ∀ place, event = .touched (.wrote place) →
      InMemoryScope workingDir workspaceDir place) act

variable {workingDir : Location} {workspaceDir : String} {α β : Type}

theorem frames_onFiles {V : Type} {view : WorkspaceFiles → V} {allowed : V → FileAccess → Prop}
    {allowed' : V → SkillEvent → Prop} {act : WorkspaceAction α}
    (frames : Action.Frames view allowed act)
    (lifts : ∀ v access, allowed v access → allowed' v (.touched access)) :
    Action.Frames view allowed' (onFiles act) := by
  intro files
  obtain ⟨same, logged⟩ := frames files
  refine ⟨same, fun event member => ?_⟩
  obtain ⟨access, among, rfl⟩ := List.mem_map.mp member
  exact lifts _ access (logged access among)

theorem writesMemory_onFiles {act : WorkspaceAction α}
    (within : WritesWithin (InMemoryScope workingDir workspaceDir) act) :
    WritesMemory workingDir workspaceDir (onFiles act) :=
  frames_onFiles within fun _ _ inside place wrote => inside place (SkillEvent.touched.inj wrote)

theorem segments_append_plain (path : List Char) {ending : List Char} (plain : '/' ∉ ending) :
    ∃ init last, segments (path ++ ending) = init ++ [last ++ ending] := by
  induction path with
  | nil => exact ⟨[], [], segments_of_not_mem plain⟩
  | cons c path ih =>
    obtain ⟨init, last, split⟩ := ih
    rw [List.cons_append, segments, split]
    split_ifs
    · exact ⟨[] :: init, last, rfl⟩
    · cases init with
      | nil => exact ⟨[], c :: last, rfl⟩
      | cons first init => exact ⟨(c :: first) :: init, last, rfl⟩

theorem components_of_ending {path : List Char} (ends : ".md".toList <:+ path) :
    ∃ directories name, ".md".toList <:+ String.toList name ∧
      components (String.ofList path) = directories ++ [name] := by
  obtain ⟨front, rfl⟩ := ends
  obtain ⟨init, last, split⟩ := @segments_append_plain front ".md".toList (by decide)
  have named : String.ofList (last ++ ".md".toList) ≠ "" ∧
      String.ofList (last ++ ".md".toList) ≠ "." := by
    -- the name is as long as the ending
    have long : 2 < (String.ofList (last ++ ".md".toList)).toList.length := by
      rw [String.toList_ofList, List.length_append]
      exact Nat.lt_add_left _ (by decide)
    constructor <;> intro same <;> rw [same] at long <;> exact absurd long (by decide)
  refine ⟨(init.map String.ofList).filter fun part => part ≠ "" ∧ part ≠ ".",
    String.ofList (last ++ ".md".toList), ⟨last, String.toList_ofList.symm⟩, ?_⟩
  rw [components, String.toList_ofList, split, List.map_append, List.filter_append]
  exact congrArg _ (List.filter_eq_self.mpr fun part member => by
    rw [List.map_singleton, List.mem_singleton] at member
    exact member ▸ decide_eq_true named)

variable {env : SkillEnvironment} {args : List (String × Value)} {path : String}

theorem memoryArguments_eq_ok {entry : Option String}
    (checked : memoryArguments env args = .ok (path, entry)) :
    ¬ IsAbsolute path ∧ ".." ∉ components path ∧
      (path = "MEMORY.md" ∨ "memory/".toList <+: path.toList ∧ ".md".toList <:+ path.toList) := by
  obtain ⟨raw, _, checked⟩ := bind_eq_ok.mp checked
  obtain ⟨normalized, sanitized, checked⟩ := bind_eq_ok.mp checked
  obtain ⟨inScope, checked⟩ := bind_unit_eq_ok.mp checked
  obtain ⟨entry', _, same⟩ := bind_eq_ok.mp checked
  obtain ⟨rfl, rfl⟩ := Prod.mk.inj (pure_eq_ok.mp same)
  obtain ⟨_, _, relative, down⟩ := normalizeWorkspaceRelativePath_eq_ok.mp sanitized
  exact ⟨relative, down, not_not.mp (refuseIf_eq_ok.mp inScope)⟩

theorem inMemoryScope_of_memoryArguments {entry : Option String} {place : Location}
    (checked : memoryArguments env args = .ok (path, entry))
    (named : filePlace env.workingDir (join workspaceDir path) = some place) :
    InMemoryScope env.workingDir workspaceDir place := by
  obtain ⟨relative, down, scope⟩ := memoryArguments_eq_ok checked
  unfold filePlace at named
  split_ifs at named
  obtain rfl := Option.some.inj named
  rw [locate_join relative, resolve_of_down down]
  rcases scope with rfl | ⟨⟨tail, begins⟩, ends⟩
  · exact .inl rfl
  · -- the ending has no separator, so it stands behind the one of the directory
    have inTail : ".md".toList <:+ tail := by
      obtain ⟨front, whole⟩ := ends
      rw [← begins] at whole
      rcases List.append_eq_append_iff.mp whole with ⟨more, split, rest⟩ | ⟨more, _, rest⟩
      · rcases List.eq_nil_or_concat more with rfl | ⟨more, c, rfl⟩
        · exact rest ▸ List.suffix_rfl
        · have last : '/' = c := by
            have lasts := congrArg List.getLast? split
            rw [List.concat_eq_append, ← List.append_assoc, List.getLast?_concat] at lasts
            exact Option.some_inj.mp lasts
          have inside : c ∈ ".md".toList := by
            rw [rest]
            simp
          exact absurd (last ▸ inside) (by decide)
      · exact ⟨more, rest.symm⟩
    obtain ⟨directories, name, ending, below⟩ := components_of_ending inTail
    refine .inr ⟨directories, name, ending, ?_⟩
    have separated : "memory/".toList = "memory".toList ++ ['/'] := rfl
    rw [components_of_separator separated begins.symm, below]
    rfl

theorem writesMemory_createParent (surroundings : WriteSurroundings) (path : String) :
    WritesWithin (InMemoryScope workingDir workspaceDir) (createParent env surroundings path) := by
  unfold createParent
  dsimp only
  split_ifs
  · exact Action.frames_fail _
  · split
    · exact SafeFsWriteTool.writesWithin_makeDirectories _ _
    · exact Action.frames_bind (SafeFsWriteTool.writesWithin_makeDirectories _ _) fun _ =>
        Action.frames_fail _

theorem writesMemory_appendLine {entry : Option String}
    (checked : memoryArguments env args = .ok (path, entry)) (surroundings : WriteSurroundings)
    (line : String) :
    WritesWithin (InMemoryScope env.workingDir workspaceDir)
      (appendLine env surroundings (join workspaceDir path) line) := by
  unfold appendLine
  apply Action.frames_bind (writesMemory_createParent surroundings _)
  intro _
  split
  · exact Action.frames_fail _
  · next place named =>
    have inside := inMemoryScope_of_memoryArguments checked named
    exact Action.frames_bind (SafeFsWriteTool.writesWithin_openFile inside surroundings true)
      fun _ => SafeFsWriteTool.writesWithin_writeAll inside surroundings _ _

theorem writesMemory_readModule (surroundings : SkillSurroundings) (path : String) :
    WritesWithin (InMemoryScope workingDir workspaceDir)
      (readModule env surroundings path) := by
  unfold readModule
  split
  · exact Action.frames_fail _
  · next place _ =>
    apply Action.frames_bind (writesWithin_look place)
    intro held
    split
    · apply Action.frames_bind
      · apply Action.frames_log
        intro _ _ same
        cases same
      · exact fun _ => Action.frames_pure _
    · exact Action.frames_fail _
    · exact Action.frames_fail _

theorem writesMemory_runBytes (engine : Engine) (bytes : List UInt8) (policy : SandboxPolicy) :
    WritesMemory workingDir workspaceDir (runBytes engine bytes policy) := by
  unfold runBytes
  split_ifs
  · exact Action.frames_fail _
  · split
    · exact Action.frames_fail _
    · apply Action.frames_bind (Action.frames_ofExcept _)
      intro _
      apply Action.frames_bind
      · apply Action.frames_log
        intro _ _ same
        cases same
      · intro _
        split
        · exact Action.frames_pure _
        · exact Action.frames_fail _
        · exact Action.frames_fail _

theorem writesMemory_call (env : SkillEnvironment) (engine : Engine)
    (surroundings : SkillSurroundings) (input : ToolCallInput) :
    WritesMemory env.workingDir input.workspaceDir (call env engine surroundings input) := by
  unfold call
  apply Action.frames_bind (Action.frames_ofExcept _)
  intro args
  apply Action.frames_bind (Action.frames_ofExcept _)
  rintro ⟨wasmPath, policy⟩
  apply Action.frames_bind (writesMemory_onFiles (writesMemory_readModule surroundings _))
  intro bytes
  apply Action.frames_bind (writesMemory_runBytes engine bytes policy)
  intro execution
  apply Action.frames_check
  rintro ⟨memoryPath, memoryEntry⟩ checked
  apply Action.frames_bind (writesMemory_onFiles (writesMemory_appendLine checked _ _))
  exact fun _ => Action.frames_pure _

/-! ### When a refusal comes too late -/

/-- A part of a call that leaves the files as they are and does nothing but read one. -/
abbrev OnlyReads {α : Type} (act : SkillAction α) : Prop :=
  Action.Frames id (fun _ event => ∃ place, event = .touched (.read place)) act

/-- A refusal of the arguments comes before any module runs and any file changes. -/
def RefusesCleanly {α : Type} (act : SkillAction α) : Prop :=
  ∀ files text, (act files).result = .error (.invalidInput text) →
    (act files).state = files ∧
      ∀ event ∈ (act files).journal, ∃ place, event = .touched (.read place)

/-- A computation that does not refuse the arguments. -/
def NeverRefuses {α ε : Type} (act : Action WorkspaceFiles ε KelvinError α) : Prop :=
  ∀ files text, (act files).result ≠ .error (.invalidInput text)

section Refusals

variable {act : SkillAction α} {next : α → SkillAction β}

theorem OnlyReads.refusesCleanly (reads : OnlyReads act) : RefusesCleanly act :=
  fun files _ _ => reads files

theorem NeverRefuses.refusesCleanly (never : NeverRefuses act) : RefusesCleanly act :=
  fun files text refused => absurd refused (never files text)

theorem refusesCleanly_bind (reads : OnlyReads act)
    (later : ∀ files a, (act files).result = .ok a → RefusesCleanly (next a)) :
    RefusesCleanly (act >>= next) := by
  intro files text refused
  obtain ⟨same, logged⟩ := reads files
  cases ran : (act files).result with
  | error e =>
    rw [Action.bind_apply_of_error ran]
    exact ⟨same, logged⟩
  | ok a =>
    rw [Action.bind_apply_of_result ran] at refused ⊢
    obtain ⟨sameToo, loggedToo⟩ := later files a ran _ text refused
    refine ⟨sameToo.trans same, fun event member => ?_⟩
    rcases List.mem_append.mp member with early | late
    · exact logged event early
    · exact loggedToo event late

/-- Nothing refuses the arguments after a part that does so cleanly. -/
theorem RefusesCleanly.bind (clean : RefusesCleanly act)
    (never : ∀ a, NeverRefuses (next a)) : RefusesCleanly (act >>= next) := by
  intro files text refused
  cases ran : (act files).result with
  | error e =>
    rw [Action.bind_apply_of_error ran] at refused ⊢
    exact clean files text (ran.trans (congrArg Except.error (Except.error.inj refused)))
  | ok a =>
    rw [Action.bind_apply_of_result ran] at refused
    exact absurd refused (never a _ text)

end Refusals

section Parts

variable {ε : Type} {act : Action WorkspaceFiles ε KelvinError α}
  {next : α → Action WorkspaceFiles ε KelvinError β}

theorem neverRefuses_of_ok {a : WorkspaceFiles → α}
    (ends : ∀ files, (act files).result = .ok (a files)) : NeverRefuses act := by
  intro files text refused
  rw [ends files] at refused
  cases refused

theorem neverRefuses_io (err : String) :
    NeverRefuses (Action.fail (.io err) : Action WorkspaceFiles ε KelvinError α) :=
  fun _ _ same => by cases same

theorem neverRefuses_bind (first : NeverRefuses act) (second : ∀ a, NeverRefuses (next a)) :
    NeverRefuses (act >>= next) := by
  intro files text refused
  cases ran : (act files).result with
  | error e =>
    rw [Action.bind_apply_of_error ran] at refused
    exact first files text (ran.trans (congrArg Except.error (Except.error.inj refused)))
  | ok a =>
    rw [Action.bind_apply_of_result ran] at refused
    exact second a _ text refused

end Parts

theorem neverRefuses_makeDirectories (conflict : String) (places : List Location) :
    NeverRefuses (SafeFsWriteTool.makeDirectories conflict places) := by
  induction places with
  | nil => exact neverRefuses_of_ok fun _ => rfl
  | cons place rest ih =>
    refine neverRefuses_bind (neverRefuses_bind (neverRefuses_of_ok fun _ => rfl) ?_) fun _ => ih
    intro held
    split
    · exact neverRefuses_of_ok fun _ => rfl
    · exact neverRefuses_io _
    · exact neverRefuses_of_ok fun _ => rfl

theorem neverRefuses_createParent (surroundings : WriteSurroundings) (path : String) :
    NeverRefuses (createParent env surroundings path) := by
  unfold createParent
  dsimp only
  split_ifs
  · exact neverRefuses_io _
  · split
    · exact neverRefuses_makeDirectories _ _
    · exact neverRefuses_bind (neverRefuses_makeDirectories _ _) fun _ => neverRefuses_io _

theorem neverRefuses_openFile (surroundings : WriteSurroundings) (place : Location) :
    NeverRefuses (SafeFsWriteTool.openFile surroundings place true) := by
  unfold SafeFsWriteTool.openFile
  refine neverRefuses_bind (neverRefuses_of_ok fun _ => rfl) fun held => ?_
  split
  · exact neverRefuses_io _
  · exact neverRefuses_io _
  · exact neverRefuses_of_ok fun _ => rfl
  · exact neverRefuses_of_ok fun _ => rfl

theorem neverRefuses_appendLine (surroundings : WriteSurroundings) (path line : String) :
    NeverRefuses (appendLine env surroundings path line) := by
  unfold appendLine
  refine neverRefuses_bind (neverRefuses_createParent surroundings path) fun _ => ?_
  split
  · exact neverRefuses_io _
  · next place _ =>
    refine neverRefuses_bind (neverRefuses_openFile surroundings place) fun start => ?_
    unfold SafeFsWriteTool.writeAll
    split
    · exact neverRefuses_of_ok fun _ => rfl
    · exact neverRefuses_bind (neverRefuses_of_ok fun _ => rfl) fun _ => neverRefuses_io _

theorem neverRefuses_onFiles {act : WorkspaceAction α} (never : NeverRefuses act) :
    NeverRefuses (onFiles act) :=
  fun files text refused => never files text refused

theorem refusesCleanly_runBytes (engine : Engine) (bytes : List UInt8) (policy : SandboxPolicy) :
    RefusesCleanly (runBytes engine bytes policy) := by
  unfold runBytes
  split_ifs
  · exact OnlyReads.refusesCleanly (Action.frames_fail _)
  · split
    · exact OnlyReads.refusesCleanly (Action.frames_fail _)
    · refine refusesCleanly_bind (Action.frames_ofExcept _) fun _ _ _ => ?_
      refine NeverRefuses.refusesCleanly (neverRefuses_bind (neverRefuses_of_ok fun _ => rfl) ?_)
      intro _
      split
      · exact neverRefuses_of_ok fun _ => rfl
      · exact fun _ _ same => by cases same
      · exact fun _ _ same => by cases same

theorem onlyReads_readModule (surroundings : SkillSurroundings) (path : String) :
    OnlyReads (onFiles (readModule env surroundings path)) := by
  have reads : Action.Frames id (fun _ access => ∃ place, access = FileAccess.read place)
      (readModule env surroundings path) := by
    unfold readModule
    split
    · exact Action.frames_fail _
    · next place _ =>
      refine Action.frames_bind (fun _ => ⟨rfl, fun _ member => by cases member⟩) fun held => ?_
      split
      · exact Action.frames_bind (Action.frames_log fun _ => ⟨place, rfl⟩)
          fun _ => Action.frames_pure _
      · exact Action.frames_fail _
      · exact Action.frames_fail _
  refine frames_onFiles reads fun _ access isRead => ?_
  obtain ⟨place, rfl⟩ := isRead
  exact ⟨place, rfl⟩

/-- What the arguments name when they have passed the checks before the module runs. -/
def NamesModule (env : SkillEnvironment) (input : ToolCallInput) (args : List (String × Value)) :
    Prop :=
  argsObject input.arguments s!"{env.name} tool" = .ok args ∧
    ∃ wasmPath policy place, moduleArguments env args = .ok (wasmPath, policy) ∧
      filePlace env.workingDir (join input.workspaceDir wasmPath) = some place

theorem exists_filePlace_of_readModule {surroundings : SkillSurroundings} {files : WorkspaceFiles}
    {bytes : List UInt8}
    (read : (onFiles (readModule env surroundings path) files).result = .ok bytes) :
    ∃ place, filePlace env.workingDir path = some place := by
  cases named : filePlace env.workingDir path with
  | none =>
    unfold onFiles Action.mapJournal readModule at read
    rw [named] at read
    cases read
  | some place => exact ⟨place, rfl⟩

def OnlyInvalid {γ : Type} (checked : KelvinResult γ) : Prop :=
  ∀ err, checked = .error err → ∃ text, err = .invalidInput text

section Checks

variable {γ δ : Type} {first : KelvinResult γ} {next : γ → KelvinResult δ}

theorem onlyInvalid_ok (c : γ) : OnlyInvalid (.ok c : KelvinResult γ) := fun _ same => by cases same

theorem onlyInvalid_error (text : String) :
    OnlyInvalid (.error (.invalidInput text) : KelvinResult γ) :=
  fun _ same => ⟨text, (Except.error.inj same).symm⟩

theorem onlyInvalid_bind (checks : OnlyInvalid first) (later : ∀ c, OnlyInvalid (next c)) :
    OnlyInvalid (first >>= next) := by
  cases first with
  | error err =>
    intro err' same
    exact checks err' (congrArg Except.error (Except.error.inj same))
  | ok c => exact later c

theorem onlyInvalid_refuseIf (condition : Prop) [Decidable condition] (text : String) :
    OnlyInvalid (refuseIf condition (.invalidInput text)) := by
  unfold refuseIf
  split_ifs
  · exact onlyInvalid_error text
  · exact onlyInvalid_ok ()

end Checks

theorem onlyInvalid_memoryArguments (env : SkillEnvironment) (args : List (String × Value)) :
    OnlyInvalid (memoryArguments env args) := by
  have texts : ∀ key tool, OnlyInvalid (optionalString args key tool) := by
    intro key tool
    unfold optionalString
    split
    · exact onlyInvalid_ok _
    · split
      · exact onlyInvalid_ok _
      · exact onlyInvalid_error _
  have sanitizes : ∀ raw field, OnlyInvalid (sanitizeRelPath raw field) := by
    intro raw field
    refine onlyInvalid_bind (onlyInvalid_refuseIf _ _) fun _ => ?_
    refine onlyInvalid_bind (onlyInvalid_refuseIf _ _) fun _ => ?_
    exact onlyInvalid_bind (onlyInvalid_refuseIf _ _) fun _ => onlyInvalid_ok _
  refine onlyInvalid_bind (texts _ _) fun raw => onlyInvalid_bind (sanitizes _ _) fun path => ?_
  refine onlyInvalid_bind (onlyInvalid_refuseIf _ _) fun _ => ?_
  exact onlyInvalid_bind (texts _ _) fun _ => onlyInvalid_ok _

theorem refusesCleanly_call {input : ToolCallInput}
    (passes : ∀ args, NamesModule env input args → ∃ memory, memoryArguments env args = .ok memory)
    (engine : Engine) (surroundings : SkillSurroundings) :
    RefusesCleanly (call env engine surroundings input) := by
  unfold call
  refine refusesCleanly_bind (Action.frames_ofExcept _) fun _ args isArgs => ?_
  refine refusesCleanly_bind (Action.frames_ofExcept _) fun _ module isModule => ?_
  refine refusesCleanly_bind (onlyReads_readModule surroundings _) fun _ bytes read => ?_
  refine (refusesCleanly_runBytes engine bytes module.2).bind fun execution => ?_
  rw [Action.result_ofExcept] at isArgs isModule
  obtain ⟨place, named⟩ := exists_filePlace_of_readModule read
  obtain ⟨memory, checked⟩ := passes args ⟨isArgs, module.1, module.2, place, isModule, named⟩
  rw [checked, Action.ofExcept_ok]
  refine neverRefuses_bind (neverRefuses_of_ok fun _ => rfl) fun _ => ?_
  refine neverRefuses_bind ?_ fun _ => neverRefuses_of_ok fun _ => rfl
  exact neverRefuses_onFiles (neverRefuses_appendLine _ _ _)

def idleEngine : Engine := fun _ => .ok ⟨[], fun _ => .returned 0 []⟩

def healthySurroundings : SkillSurroundings := ⟨none, ⟨none, none, none, "Not a directory"⟩⟩

/-- Where every file is empty, the module that the arguments name runs before the last checks. -/
theorem executed_of_namesModule {input : ToolCallInput} (names : NamesModule env input args)
    {err : KelvinError} (fails : memoryArguments env args = .error err) :
    (call env idleEngine healthySurroundings input fun _ => some (.file [])).result = .error err ∧
      .executed [] ∈
        (call env idleEngine healthySurroundings input fun _ => some (.file [])).journal := by
  obtain ⟨isArgs, wasmPath, policy, place, isModule, named⟩ := names
  have read : (onFiles (readModule env healthySurroundings (join input.workspaceDir wasmPath))
      fun _ => some (.file [])) =
        ⟨.ok [], fun _ => some (.file []), [.touched (.read place)]⟩ := by
    unfold onFiles Action.mapJournal readModule
    rw [named]
    rfl
  have ran : runBytes idleEngine [] policy (fun _ => some (.file [])) =
      ⟨.ok ⟨0, [], none⟩, fun _ => some (.file []), [.executed []]⟩ := by
    have fits : ¬ policy.maxModuleBytes < ([] : List UInt8).length := Nat.not_lt_zero _
    have same : runBytes idleEngine [] policy =
        (Action.log (.executed []) >>= fun _ => pure ⟨0, [], none⟩) := by
      rw [runBytes, if_neg fits]
      rfl
    rw [same]
    rfl
  unfold call
  rw [isArgs, Action.ofExcept_ok, Action.pure_bind, isModule, Action.ofExcept_ok, Action.pure_bind]
  simp only
  rw [Action.bind_apply_ok read, Action.bind_apply_ok ran, fails]
  exact ⟨rfl, List.mem_cons_of_mem _ List.mem_cons_self⟩

/-- **Validation.** No call writes a file outside of the memory. A call that refuses its arguments
does so before any module runs and any file changes, whatever the engine, the system and the files
are, exactly if the place and the text of the line pass their checks wherever the arguments name a
module. -/
theorem refuses_cleanly_iff (env : SkillEnvironment) (input : ToolCallInput) :
    (∀ engine surroundings,
        WritesMemory env.workingDir input.workspaceDir (call env engine surroundings input) ∧
          RefusesCleanly (call env engine surroundings input)) ↔
      ∀ args, NamesModule env input args →
        ∃ memory, memoryArguments env args = .ok memory := by
  constructor
  · intro clean args names
    cases checked : memoryArguments env args with
    | ok memory => exact ⟨memory, rfl⟩
    | error err =>
      obtain ⟨text, rfl⟩ := onlyInvalid_memoryArguments env args err checked
      obtain ⟨refused, executed⟩ := executed_of_namesModule names checked
      obtain ⟨_, quiet⟩ := (clean idleEngine healthySurroundings).2 _ text refused
      obtain ⟨place, same⟩ := quiet _ executed
      cases same
  · intro passes engine surroundings
    exact ⟨writesMemory_call env engine surroundings input,
      refusesCleanly_call passes engine surroundings⟩

/-! ### A line outside of the memory -/

def wasmSkillEnvironment : SkillEnvironment where
  name := "wasm_skill"
  defaultPolicy := SandboxPolicy.lockedDown
  workingDir := []
  toLowercase := toAsciiLowercase
  toJsonText _ := ""

def misplacedLine : ToolCallInput :=
  ⟨"run", "session", "/workspace",
    .obj [("memory_append_path", .str "notes.md"), ("wasm_path", .str "skills/echo.wasm")]⟩

/-- The module runs, and then the call refuses its arguments. -/
theorem module_runs_before_refusal :
    ¬ ∀ engine surroundings,
      WritesMemory wasmSkillEnvironment.workingDir misplacedLine.workspaceDir
          (call wasmSkillEnvironment engine surroundings misplacedLine) ∧
        RefusesCleanly (call wasmSkillEnvironment engine surroundings misplacedLine) := by
  intro clean
  have names : NamesModule wasmSkillEnvironment misplacedLine
      [("memory_append_path", .str "notes.md"), ("wasm_path", .str "skills/echo.wasm")] :=
    ⟨rfl, "skills/echo.wasm", SandboxPolicy.lockedDown, ["workspace", "skills", "echo.wasm"],
      by decide +kernel, by decide +kernel⟩
  have fails : memoryArguments wasmSkillEnvironment
      [("memory_append_path", .str "notes.md"), ("wasm_path", .str "skills/echo.wasm")] =
        .error (.invalidInput "memory append path must be MEMORY.md or memory/*.md") := by
    decide +kernel
  obtain ⟨refused, executed⟩ := executed_of_namesModule names fails
  obtain ⟨_, quiet⟩ := (clean idleEngine healthySurroundings).2 _ _ refused
  obtain ⟨place, same⟩ := quiet _ executed
  cases same

end KelvinClaw.Brain.WasmSkillTool
