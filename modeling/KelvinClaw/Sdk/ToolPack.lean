import KelvinClaw.Plugin.ProviderResponse
import KelvinClaw.Sdk.SessionTools

/-!
# The tool pack

What the tools of the default tool pack share: the policy of the process, the readers of
arguments, the check of paths in the workspace, and the files that the tools touch.
-/

namespace KelvinClaw.Sdk

open Systems KelvinClaw.Core

structure ToolPackPolicy where
  allowFsWrite : Bool
  allowWebFetch : Bool
  allowSchedulerWrite : Bool
  allowSessionClear : Bool
  maxReadBytes : ℕ
  maxFetchBytes : ℕ
  webAllowHosts : List String
  deriving DecidableEq, Repr

/-! ### Arguments -/

def requiredString (args : List (String × Value)) (field toolName : String) :
    KelvinResult String :=
  match (Value.lookup field args).bind Value.asStr with
  | none => .error (.invalidInput s!"{toolName} requires string argument '{field}'")
  | some value =>
    let trimmed := trim value
    if trimmed = "" then
      .error (.invalidInput s!"{toolName} argument '{field}' must not be empty")
    else if trimmed.toList.any isControl then
      .error (.invalidInput s!"{toolName} argument '{field}' must not contain control characters")
    else .ok trimmed

def optionalU64 (args : List (String × Value)) (field toolName : String) :
    KelvinResult (Option ℕ) :=
  match Value.lookup field args with
  | none => .ok none
  | some value =>
    match Plugin.asU64 value with
    | some n => .ok (some n)
    | none => .error (.invalidInput s!"{toolName} argument '{field}' must be a u64")

/-- A `usize` has the width of a `u64`. -/
def clampUsize (raw maxAllowed : ℕ) : ℕ := min raw maxAllowed

/-- `trim` and `replace('\\', "/")`. -/
def slashed (path : String) : String :=
  String.ofList ((trim path).toList.map fun c => if c = '\\' then '/' else c)

def normalizeWorkspaceRelativePath (path fieldName : String) : KelvinResult String := do
  let normalized := slashed path
  refuseIf (normalized = "") (.invalidInput s!"{fieldName} must not be empty")
  refuseIf (IsAbsolute normalized) (.invalidInput s!"{fieldName} must be a relative path")
  refuseIf (".." ∈ components normalized)
    (.invalidInput s!"{fieldName} path traversal is not allowed")
  pure normalized

theorem normalizeWorkspaceRelativePath_eq_ok {path fieldName normalized : String} :
    normalizeWorkspaceRelativePath path fieldName = .ok normalized ↔
      slashed path = normalized ∧ normalized ≠ "" ∧ ¬ IsAbsolute normalized ∧
        ".." ∉ components normalized := by
  unfold normalizeWorkspaceRelativePath
  simp only [bind_unit_eq_ok, refuseIf_eq_ok, pure_eq_ok]
  constructor
  · rintro ⟨nonempty, relative, down, rfl⟩
    exact ⟨rfl, nonempty, relative, down⟩
  · rintro ⟨rfl, nonempty, relative, down⟩
    exact ⟨nonempty, relative, down, rfl⟩

/-! ### Files -/

inductive WorkspaceEntry where
  | directory
  | file (bytes : List UInt8)
  deriving DecidableEq, Repr

abbrev WorkspaceFiles := Location → Option WorkspaceEntry

abbrev WorkspaceAction := Action WorkspaceFiles FileAccess KelvinError

/-- A path that ends with a separator or with dots names no file. -/
def NamesDirectory (path : String) : Prop :=
  ∃ last ∈ (segments path.toList).getLast?, String.ofList last ∈ ["", ".", ".."]

instance (path : String) : Decidable (NamesDirectory path) := by
  unfold NamesDirectory
  infer_instance

def filePlace (workingDir : Location) (path : String) : Option Location :=
  if hasNul path ∨ NamesDirectory path then none else some (locate workingDir path)

end KelvinClaw.Sdk
