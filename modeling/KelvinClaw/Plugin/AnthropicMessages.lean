import KelvinClaw.Library.Runs
import KelvinClaw.Plugin.ProviderResponse

/-!
# The messages of a request to Anthropic

The history of a session, the memory and the prompt of the user become the messages of a request.
Each of them has one of two roles, and the messages have to alternate between these: what follows
with the same role goes into one message, on a new line.
-/

namespace KelvinClaw.Plugin

open KelvinClaw.Core KelvinClaw.Sdk KelvinClaw.Brain Systems

/-! ### The messages -/

/-- Tool results, and system messages in a history, are messages of the user. -/
def anthropicRole : SessionRole → String
  | .user | .tool => "user"
  | .assistant => "assistant"
  | .system => "user"

theorem anthropicRole_eq (role : SessionRole) :
    anthropicRole role = if role = .assistant then "assistant" else "user" := by
  cases role <;> rfl

section Input

variable (input : ModelInput)

def memorySection : List String :=
  if input.memorySnippets = [] then []
  else ["Relevant memory:\n" ++ joinLines input.memorySnippets]

end Input

end KelvinClaw.Plugin
