import KelvinClaw.Core.Text
import KelvinClaw.Core.Tool
import KelvinClaw.Library.Footprint
import KelvinClaw.Library.Paths

/-!
# The session tools

The tool `session_tools` of the default tool pack keeps notes for a session. The notes stand in
a JSON file below the Kelvin home, whose name is the id of the session. A call makes the
directory of the file, reads the file if there is one, applies the action and writes the file
back, whatever the action was.

The files are those of a system with slash-separated paths. A name that contains a null
character is refused by the system.
-/

namespace KelvinClaw.Sdk

open Systems KelvinClaw.Core

/-! ### Arguments -/

def argsObject (args : Value) (toolName : String) : KelvinResult (List (String × Value)) :=
  match args.asObject with
  | some members => .ok members
  | none => .error (.invalidInput s!"{toolName} expects JSON object arguments")

def optionalString (args : List (String × Value)) (field toolName : String) :
    KelvinResult (Option String) :=
  match Value.lookup field args with
  | none => .ok none
  | some value =>
    match value.asStr with
    | some s => .ok (some s)
    | none => .error (.invalidInput s!"{toolName} argument '{field}' must be a string")

def requiredStringContent (args : List (String × Value)) (field toolName : String) :
    KelvinResult String :=
  match (Value.lookup field args).bind Value.asStr with
  | none => .error (.invalidInput s!"{toolName} requires string argument '{field}'")
  | some value =>
    if value = "" then
      .error (.invalidInput s!"{toolName} argument '{field}' must not be empty")
    else .ok value

def maxApprovalReasonLen : ℕ := 256

def requireSensitiveApproval (args : List (String × Value)) (capability : String) :
    KelvinResult String :=
  match (Value.lookup "approval" args).bind Value.asObject with
  | none =>
    .error (.invalidInput (s!"sensitive operation '{capability}' denied by default; " ++
      "provide approval=\x7b\"granted\":true,\"reason\":\"...\"\x7d"))
  | some approval =>
    if ((Value.lookup "granted" approval).bind Value.asBool).getD false = false then
      .error (.invalidInput s!"sensitive operation '{capability}' requires approval.granted=true")
    else
      let reason := (((Value.lookup "reason" approval).bind Value.asStr).map trim).getD ""
      if reason = "" then
        .error (.invalidInput
          s!"sensitive operation '{capability}' requires non-empty approval.reason")
      else if maxApprovalReasonLen < reason.toList.length ∨ reason.toList.any isControl then
        .error (.invalidInput s!"approval.reason for '{capability}' is invalid")
      else .ok reason

/-! ### Files -/

/-- A state file, as the JSON reader finds it. -/
inductive StateFile where
  | members (members : List (String × Value))
  | malformed (err : String)
  deriving DecidableEq, Repr

inductive Node where
  | directory
  | file (content : StateFile)
  deriving DecidableEq, Repr

abbrev FileTree := Location → Option Node

/-- A file that is touched: whether it is there, what it holds, or what it is to hold. -/
inductive FileAccess where
  | inspected (file : Location)
  | read (file : Location)
  | wrote (file : Location)
  deriving DecidableEq, Repr

def FileAccess.place : FileAccess → Location
  | .inspected file => file
  | .read file => file
  | .wrote file => file

/-- How the system answers during a call, where the files do not decide it. -/
structure CallSurroundings where
  /-- Making directories fails after some of them have been made. -/
  createDirFails : Option (ℕ × String)
  readFails : Option String
  /-- Writing fails, and may leave another content behind. -/
  writeFails : Option (Option StateFile × String)
  /-- The message for an entry that is not of the kind the operation needs. -/
  conflict : String
  nowMs : ℕ
  deriving DecidableEq, Repr

def CallSurroundings.healthy : CallSurroundings := ⟨none, none, none, "Not a directory", 0⟩

/-- What is fixed for the process: the working directory, the Kelvin home, the policy, and the
printer of JSON values. -/
structure ToolEnvironment where
  workingDir : Location
  kelvinHome : KelvinResult String
  allowSessionClear : Bool
  toJsonText : Value → String

abbrev FileAction := Action FileTree FileAccess KelvinError

def hasNul (text : String) : Bool := text.toList.any (·.toNat = 0)

def makeDirectory (surroundings : CallSurroundings) (place : Location) :
    FileAction PUnit := do
  let held ← Action.look place
  match held with
  | some .directory => pure ⟨⟩
  | some (.file _) => Action.fail (.io surroundings.conflict)
  | none => Action.put place (some .directory)

def makeDirectories (surroundings : CallSurroundings) : List Location → FileAction PUnit
  | [] => pure ⟨⟩
  | place :: rest => do
    makeDirectory surroundings place
    makeDirectories surroundings rest

/-- `create_dir_all` of the directories on a path. -/
def createDirAll (surroundings : CallSurroundings) (places : List Location) : FileAction PUnit :=
  match surroundings.createDirFails with
  | none => makeDirectories surroundings places
  | some (made, err) => do
    makeDirectories surroundings (places.take made)
    Action.fail (.io err)

namespace SessionToolsTool

/-! ### The state file -/

def toolName : String := "session_tools"

def notesDir (home : String) : String := join home "session-tools"

def statePath (kelvinHome : KelvinResult String) (sessionId : String) : KelvinResult String := do
  let home ← kelvinHome
  pure (join (notesDir home) (sessionId ++ ".json"))

/-- The directories above the file at a path: what `path.parent()` passes through. -/
def directoriesAbove (workingDir : Location) (path : String) : List Location :=
  entered (origin workingDir path) (components path).dropLast

def fileAt (workingDir : Location) (path : String) : Option Location :=
  if hasNul path then none else some (locate workingDir path)

def nulMessage : String := "file name contained an unexpected NUL byte"

/-- `create_dir_all` of the parent of a path. -/
def createParent (env : ToolEnvironment) (surroundings : CallSurroundings) (path : String) :
    FileAction PUnit :=
  if (components path).dropLast.any hasNul then Action.fail (.io nulMessage)
  else createDirAll surroundings (directoriesAbove env.workingDir path)

/-- The content of the state file, or nothing where there is no file. -/
def readState (surroundings : CallSurroundings) (file : Option Location) :
    FileAction (List (String × Value)) :=
  match file with
  | none => pure []
  | some file => do
    Action.log (.inspected file)
    let held ← Action.look file
    match held with
    | some (.file content) => do
      Action.log (.read file)
      match surroundings.readFails, content with
      | some err, _ => Action.fail (.io err)
      | none, .members members => pure members
      | none, .malformed err =>
        Action.fail (.invalidInput s!"{toolName} invalid session state: {err}")
    | _ => pure []

/-- `fs::write` of the state. -/
def writeState (surroundings : CallSurroundings) (file : Option Location)
    (state : List (String × Value)) : FileAction PUnit :=
  match file with
  | none => Action.fail (.io nulMessage)
  | some file => do
    let held ← Action.look file
    match held, surroundings.writeFails with
    | some .directory, _ => Action.fail (.io surroundings.conflict)
    | _, none => do
      Action.log (.wrote file)
      Action.put file (some (.file (.members state)))
    | _, some (none, err) => Action.fail (.io err)
    | _, some (some left, err) => do
      Action.log (.wrote file)
      Action.put file (some (.file left))
      Action.fail (.io err)

/-! ### Calls -/

def withNotes (state : List (String × Value)) : List (String × Value) :=
  match Value.lookup "notes" state with
  | some _ => state
  | none => Value.insertMember "notes" (.arr []) state

def applyAction (env : ToolEnvironment) (nowMs : ℕ) (input : ToolCallInput)
    (args : List (String × Value)) (action : String) (state : List (String × Value)) :
    KelvinResult (List (String × Value)) :=
  match action with
  | "list_notes" => .ok state
  | "append_note" => do
    let note ← requiredStringContent args "note" toolName
    match (Value.lookup "notes" state).bind Value.asArray with
    | none => .error (.invalidInput "session notes state is malformed")
    | some notes =>
      let entry := Value.object
        [("text", .str note), ("run_id", .str input.runId), ("ts_ms", .num nowMs)]
      .ok (Value.insertMember "notes" (.arr (notes ++ [entry])) state)
  | "clear_notes" => do
    refuseIf (env.allowSessionClear = false) (.invalidInput
      (s!"{toolName} clear is disabled by runtime policy; " ++
        "set KELVIN_TOOLPACK_ENABLE_SESSION_CLEAR=1"))
    let _approvalReason ← requireSensitiveApproval args "session_clear"
    .ok (Value.insertMember "notes" (.arr []) state)
  | _ =>
    .error (.invalidInput
      s!"{toolName} action must be one of: list_notes, append_note, clear_notes")

def resultOf (env : ToolEnvironment) (input : ToolCallInput) (action path : String)
    (state : List (String × Value)) : ToolCallResult :=
  let count := (((Value.lookup "notes" state).bind Value.asArray).map List.length).getD 0
  let summary := s!"{toolName} action='{action}' notes={count}"
  let output := Value.object [("action", .str action), ("session_id", .str input.sessionId),
    ("state_path", .str path), ("notes", (Value.lookup "notes" state).getD (.arr []))]
  { summary := summary, output := some (env.toJsonText output), visibleText := some summary
    isError := false }

def update (env : ToolEnvironment) (surroundings : CallSurroundings) (input : ToolCallInput)
    (args : List (String × Value)) (action path : String) : FileAction ToolCallResult := do
  createParent env surroundings path
  let file := fileAt env.workingDir path
  let state ← readState surroundings file
  let updated ← Action.ofExcept
    (applyAction env surroundings.nowMs input args action (withNotes state))
  writeState surroundings file updated
  pure (resultOf env input action path updated)

def call (env : ToolEnvironment) (surroundings : CallSurroundings) (input : ToolCallInput) :
    FileAction ToolCallResult := do
  let args ← Action.ofExcept (argsObject input.arguments toolName)
  let requested ← Action.ofExcept (optionalString args "action" toolName)
  let action := toAsciiLowercase (requested.getD "list_notes")
  let path ← Action.ofExcept (statePath env.kelvinHome input.sessionId)
  update env surroundings input args action path

def callAll (env : ToolEnvironment) :
    List (CallSurroundings × ToolCallInput) → FileAction (List (KelvinResult ToolCallResult))
  | [] => pure []
  | (surroundings, input) :: rest => do
    let result ← Action.attempt (call env surroundings input)
    let results ← callAll env rest
    pure (result :: results)

end SessionToolsTool

end KelvinClaw.Sdk
