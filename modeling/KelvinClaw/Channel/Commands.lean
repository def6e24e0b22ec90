import KelvinClaw.Channel.Policy

/-!
# Slash commands

The registry of slash commands, and the parsing of a message text into a command name
and its arguments.
-/

namespace KelvinClaw.Channel

open KelvinClaw.Core

inductive CommandSurface where
  | tui
  | telegram
  | slack
  | discord
  | whatsApp
  deriving DecidableEq, Repr

def ChannelKind.asCommandSurface : ChannelKind → CommandSurface
  | .telegram => .telegram
  | .slack => .slack
  | .discord => .discord
  | .whatsApp => .whatsApp

/-- What channel dispatch reads of a command. -/
structure SlashCommandMeta where
  name : String
  surfaces : Finset CommandSurface
  minTier : Option SenderTrustTier
  bypassQueue : Bool
  deriving DecidableEq

structure CommandRegistry where
  remote : List SlashCommandMeta

def CommandRegistry.lookupMeta (registry : CommandRegistry) (name : String) :
    Option SlashCommandMeta :=
  registry.remote.find? fun m => m.name = toAsciiLowercase name

def localNames : List String := ["help", "quit"]

/-- `from_slash_meta`: with a surface, only the commands that list it are registered. -/
def CommandRegistry.fromSlashMeta (commands : List SlashCommandMeta)
    (surface : Option CommandSurface) : CommandRegistry where
  remote := commands.filter fun command =>
    (∀ s ∈ surface, s ∈ command.surfaces) ∧ command.name ∉ localNames

theorem CommandRegistry.surface_of_lookupMeta {commands : List SlashCommandMeta}
    {surface : CommandSurface} {name : String} {command : SlashCommandMeta}
    (found : (fromSlashMeta commands (some surface)).lookupMeta name = some command) :
    surface ∈ command.surfaces := by
  have registered := List.mem_of_find?_eq_some found
  have listed := List.of_mem_filter registered
  simp only [Option.mem_def, Option.some.injEq, forall_eq', Bool.decide_and, Bool.and_eq_true,
    decide_eq_true_eq] at listed
  exact listed.1

/-- `parse_slash_input`: the name ends at the first white space. -/
def parseSlashInput (input : String) : Option (String × String) :=
  match input.toList with
  | '/' :: body =>
    let isNameChar := fun c => !isWhitespace c
    let name := toAsciiLowercase (trim (String.ofList (body.takeWhile isNameChar)))
    let args := trim (String.ofList (body.dropWhile isNameChar).tail)
    if name = "" then none else some (name, args)
  | _ => none

structure CommandExecParams where
  command : String
  args : Value
  sessionId : Option String
  deriving DecidableEq, Repr

/-- The argument value of a command: `null` or the whole text. -/
def argsValue (args : String) : Value := if args = "" then .null else .str args

end KelvinClaw.Channel
