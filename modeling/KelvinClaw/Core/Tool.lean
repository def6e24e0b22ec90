import KelvinClaw.Core.Basic

/-!
# Tools

What `kelvin-core` says of a tool that a model may call: its definition, the input of a call
and the result.
-/

namespace KelvinClaw.Core

structure ToolDefinition where
  name : String
  description : String
  inputSchema : Value
  deriving DecidableEq, Repr

structure ToolCallInput where
  runId : String
  sessionId : String
  workspaceDir : String
  arguments : Value
  deriving DecidableEq, Repr

structure ToolCallResult where
  summary : String
  output : Option String
  visibleText : Option String
  isError : Bool
  deriving DecidableEq, Repr

namespace Value

/-- `Value::as_str`. -/
def asStr : Value → Option String
  | .str s => some s
  | _ => none

/-- `Value::as_bool`. -/
def asBool : Value → Option Bool
  | .bool b => some b
  | _ => none

/-- `Value::as_array`. -/
def asArray : Value → Option (List Value)
  | .arr items => some items
  | _ => none

/-- `Value::as_object`. -/
def asObject : Value → Option (List (String × Value))
  | .obj members => some members
  | _ => none

/-- `Value::get` with a key. -/
def get (key : String) : Value → Option Value
  | .obj members => lookup key members
  | _ => none

end Value

end KelvinClaw.Core
