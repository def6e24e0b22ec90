import KelvinClaw.Core.LowerCase
import KelvinClaw.Core.Splitting
import KelvinClaw.Core.Tool
import KelvinClaw.Channel.Commands

/-!
# The slash commands of the terminal interface

The registry has two commands of its own and those of the gateway. It offers completions, resolves
a name to a command, and is replaced when the gateway lists its commands. The input is split at the
first white space into the name, in lower case, and the arguments, trimmed.

A name is resolved in lower case against the names as they are stored, and the completions show
the names as they are stored.
-/

namespace KelvinClaw.Tui

open KelvinClaw.Core

/-! ### The registry -/

/-- A completion in the popup. -/
structure CompletionItem where
  name : String
  description : String
  usage : Option String
  category : String
  deriving DecidableEq, Repr

/-- The commands that the interface handles itself. -/
inductive LocalCommand where
  | quit
  | help
  deriving DecidableEq, Repr

inductive SlashCommand where
  | ofLocal (command : LocalCommand)
  | remote (name : String)
  deriving DecidableEq, Repr

structure LocalEntry where
  cmd : LocalCommand
  item : CompletionItem
  deriving DecidableEq, Repr

/-- A command of the gateway: what channel dispatch reads of it, and what is shown. -/
structure SlashCommandMeta extends Channel.SlashCommandMeta where
  description : String
  usage : Option String
  category : String
  deriving DecidableEq

def localEntries : List LocalEntry :=
  [⟨.help, "help", "Show available commands", none, "system"⟩,
    ⟨.quit, "quit", "Exit the TUI", none, "system"⟩]

/-- The commands of a registry. No command of the gateway has the name of a local one. -/
structure CommandRegistry where
  locals : List LocalEntry
  remote : List SlashCommandMeta
  locals_eq : locals = localEntries
  unshadowed : ∀ command ∈ remote, command.name ∉ locals.map (·.item.name)

namespace CommandRegistry

/-- `Default`: no command of the gateway. -/
def default : CommandRegistry := ⟨localEntries, [], rfl, nofun⟩

/-- A registry whose commands of the gateway are the given ones, less those under the name of a
local one. -/
def withRemote (registry : CommandRegistry) (commands : List SlashCommandMeta) :
    CommandRegistry where
  locals := registry.locals
  remote := commands.filter fun command => command.name ∉ registry.locals.map (·.item.name)
  locals_eq := registry.locals_eq
  unshadowed := fun _ kept => by simpa using List.of_mem_filter kept

/-- A command of which nothing is known beyond what is shown of it. -/
def shownAs (name description : String) (usage : Option String) (category : String) :
    SlashCommandMeta :=
  ⟨⟨name, ∅, none, false⟩, description, usage, category⟩

def tuiGatewayStubs : List SlashCommandMeta :=
  [shownAs "clear" "Clear session history and chat display" none "session",
    shownAs "new" "Create a new session" (some "[name]") "session",
    shownAs "session" "List or switch sessions" (some "[id]") "session"]

def tuiDefault : CommandRegistry where
  locals := default.locals
  remote := tuiGatewayStubs
  locals_eq := rfl
  unshadowed := by decide

def fromSlashMeta (commands : List SlashCommandMeta) (surface : Option Channel.CommandSurface) :
    CommandRegistry :=
  default.withRemote (commands.filter fun command => ∀ s ∈ surface, s ∈ command.surfaces)

/-- A command of the response to `commands.list`. An item without a name is passed over. -/
def ofResponseItem (item : Value) : Option SlashCommandMeta := do
  let name ← (item.get "name").bind Value.asStr
  let description := ((item.get "description").bind Value.asStr).getD ""
  let usage := (item.get "usage").bind Value.asStr
  let category := ((item.get "category").bind Value.asStr).getD "system"
  return shownAs name description usage category

/-- The commands of a response to `commands.list`. -/
def ofResponse (response : Value) : List SlashCommandMeta :=
  (((response.get "commands").bind Value.asArray).getD []).filterMap ofResponseItem

/-- The response to `commands.list` replaces the commands of the gateway. -/
def setGatewayCommands (registry : CommandRegistry) (response : Value) : CommandRegistry :=
  registry.withRemote (ofResponse response)

def lookupMeta (registry : CommandRegistry) (name : String) : Option SlashCommandMeta :=
  registry.remote.find? fun command => command.name = toAsciiLowercase name

def completion (command : SlashCommandMeta) : CompletionItem :=
  ⟨command.name, command.description, command.usage, command.category⟩

/-- The commands whose name begins with a text. The case of a command of the gateway does not
count. -/
def completions (registry : CommandRegistry) (typed : String) : List CompletionItem :=
  let start := (toAsciiLowercase typed).toList
  (registry.locals.filter fun entry => start.isPrefixOf entry.item.name.toList).map (·.item) ++
    (registry.remote.filter fun command =>
      start.isPrefixOf (toAsciiLowercase command.name).toList).map completion

def resolve (registry : CommandRegistry) (name : String) : Option SlashCommand :=
  let lower := toAsciiLowercase name
  match registry.locals.find? fun entry => entry.item.name = lower with
  | some entry => some (.ofLocal entry.cmd)
  | none => if registry.remote.any fun command => command.name = lower then some (.remote lower)
    else none

def names (registry : CommandRegistry) : List String :=
  registry.locals.map (·.item.name) ++ registry.remote.map (·.name)

def toChannel (registry : CommandRegistry) : Channel.CommandRegistry :=
  ⟨registry.remote.map (·.toSlashCommandMeta)⟩

end CommandRegistry

/-! ### Channel dispatch -/

namespace CommandRegistry

variable {registry : CommandRegistry} {command : SlashCommandMeta}

theorem map_locals (registry : CommandRegistry) :
    registry.locals.map (·.item.name) = Channel.localNames := by
  rw [registry.locals_eq]
  rfl

theorem lookupMeta_toChannel (registry : CommandRegistry) (name : String) :
    registry.toChannel.lookupMeta name =
      (registry.lookupMeta name).map (·.toSlashCommandMeta) := by
  rw [Channel.CommandRegistry.lookupMeta, toChannel, List.find?_map]
  rfl

theorem toChannel_fromSlashMeta (commands : List SlashCommandMeta)
    (surface : Option Channel.CommandSurface) :
    (fromSlashMeta commands surface).toChannel =
      Channel.CommandRegistry.fromSlashMeta (commands.map (·.toSlashCommandMeta)) surface := by
  have kept : (fromSlashMeta commands surface).remote = commands.filter fun command =>
      (∀ s ∈ surface, s ∈ command.surfaces) ∧ command.name ∉ Channel.localNames := by
    refine List.filter_filter.trans (List.filter_congr fun command _ => ?_)
    rw [map_locals, Bool.decide_and, Bool.and_comm]
  rw [toChannel, kept, Channel.CommandRegistry.fromSlashMeta, List.filter_map]
  rfl

/-! ### Names -/

theorem nodup_names (distinct : (registry.remote.map (·.name)).Nodup) :
    registry.names.Nodup := by
  refine List.nodup_append.mpr ⟨?_, distinct, ?_⟩
  · rw [map_locals]
    decide
  · rintro name listed _ given rfl
    obtain ⟨command, member, rfl⟩ := List.mem_map.mp given
    exact registry.unshadowed command member listed

theorem nodup_withRemote {commands : List SlashCommandMeta}
    (distinct : (commands.map (·.name)).Nodup) : (registry.withRemote commands).names.Nodup :=
  nodup_names (distinct.sublist (List.filter_sublist.map _))

theorem nodup_fromSlashMeta {commands : List SlashCommandMeta}
    (surface : Option Channel.CommandSurface) (distinct : (commands.map (·.name)).Nodup) :
    (fromSlashMeta commands surface).names.Nodup :=
  nodup_withRemote (distinct.sublist (List.filter_sublist.map _))

/-! ### Resolving -/

theorem resolve_of_local {name : String} (listed : toAsciiLowercase name ∈ Channel.localNames) :
    registry.resolve name = default.resolve name ∧ (default.resolve name).isSome := by
  unfold resolve
  rw [registry.locals_eq, show default.locals = localEntries from rfl]
  rcases List.mem_cons.mp listed with same | rest
  · rw [same]
    exact ⟨rfl, rfl⟩
  · rw [List.mem_singleton.mp rest]
    exact ⟨rfl, rfl⟩

theorem resolve_of_mem_locals {entry : LocalEntry} (listed : entry ∈ registry.locals) :
    registry.resolve entry.item.name = some (.ofLocal entry.cmd) := by
  unfold resolve
  rw [registry.locals_eq] at listed ⊢
  simp only [localEntries, List.mem_cons, List.not_mem_nil, or_false] at listed
  rcases listed with rfl | rfl <;> rfl

theorem resolve_of_mem_remote (given : command ∈ registry.remote)
    (lower : toAsciiLowercase command.name = command.name) :
    registry.resolve command.name = some (.remote command.name) := by
  have missing : registry.locals.find? (fun entry => entry.item.name = command.name) = none := by
    rw [List.find?_eq_none]
    intro entry listed same
    refine registry.unshadowed command given (List.mem_map.mpr ⟨entry, listed, ?_⟩)
    exact of_decide_eq_true same
  have found : registry.remote.any (fun other => other.name = command.name) :=
    List.any_eq_true.mpr ⟨command, given, decide_eq_true rfl⟩
  simp only [resolve, lower, missing, found, if_true]

theorem resolve_toAsciiLowercase (name : String) :
    registry.resolve (toAsciiLowercase name) = registry.resolve name := by
  unfold resolve
  rw [toAsciiLowercase_toAsciiLowercase]

theorem mem_completions {typed : String} {item : CompletionItem}
    (offered : item ∈ registry.completions typed) :
    (∃ entry ∈ registry.locals, entry.item = item) ∨
      ∃ command ∈ registry.remote, completion command = item := by
  rcases List.mem_append.mp offered with shown | shown
  · obtain ⟨entry, listed, same⟩ := List.mem_map.mp shown
    exact .inl ⟨entry, List.mem_of_mem_filter listed, same⟩
  · obtain ⟨command, listed, same⟩ := List.mem_map.mp shown
    exact .inr ⟨command, List.mem_of_mem_filter listed, same⟩

end CommandRegistry

/-! ### The input -/

theorem parseSlashInput_typed {name args : String} (named : name ≠ "")
    (whole : ∀ c ∈ name.toList, isWhitespace c = false) :
    Channel.parseSlashInput ("/" ++ name ++ " " ++ args) =
      some (toAsciiLowercase name, trim args) := by
  have typed : ("/" ++ name ++ " " ++ args).toList =
      '/' :: (name.toList ++ ' ' :: args.toList) := by
    simp
  have blank : isWhitespace ' ' = true := by decide
  -- the name is what stands before the blank
  have name_eq : (name.toList ++ ' ' :: args.toList).takeWhile (fun c => !isWhitespace c) =
      name.toList := by
    rw [List.takeWhile_append_of_pos fun c member => by rw [whole c member]; rfl]
    simp [blank]
  have args_eq : ((name.toList ++ ' ' :: args.toList).dropWhile fun c => !isWhitespace c).tail =
      args.toList := by
    rw [List.dropWhile_append_of_pos fun c member => by rw [whole c member]; rfl]
    simp [blank]
  unfold Channel.parseSlashInput
  rw [typed]
  simp only [name_eq, args_eq, String.ofList_toList, trim_eq_self whole,
    toAsciiLowercase_eq_empty, named, if_false]

/-! ### What is offered -/

def ResolvesTo (registry : CommandRegistry) (item : CompletionItem) : Prop :=
  (∃ entry ∈ registry.locals, entry.item = item ∧
    registry.resolve item.name = some (.ofLocal entry.cmd)) ∨
  ∃ command ∈ registry.remote, CommandRegistry.completion command = item ∧
    registry.resolve item.name = some (.remote item.name)

/-- A command is resolved under the name that a completion shows of it, if that is in lower case;
a name without white space is parsed in lower case, with the arguments trimmed, and resolves as
before; local commands are never shadowed; and different names stay different. -/
theorem offered_commands_resolve :
    (∀ (registry : CommandRegistry) typed, ∀ item ∈ registry.completions typed,
      toAsciiLowercase item.name = item.name → ResolvesTo registry item) ∧
    (∀ (registry : CommandRegistry) name args, name ≠ "" →
      (∀ c ∈ name.toList, isWhitespace c = false) →
      Channel.parseSlashInput ("/" ++ name ++ " " ++ args) =
          some (toAsciiLowercase name, trim args) ∧
        registry.resolve (toAsciiLowercase name) = registry.resolve name) ∧
    (∀ (registry : CommandRegistry) name, toAsciiLowercase name ∈ Channel.localNames →
      registry.resolve name = CommandRegistry.default.resolve name ∧
        (CommandRegistry.default.resolve name).isSome) ∧
    (∀ commands surface, (commands.map (·.name)).Nodup →
      (CommandRegistry.fromSlashMeta commands surface).names.Nodup) ∧
    ∀ (registry : CommandRegistry) response,
      ((CommandRegistry.ofResponse response).map (·.name)).Nodup →
      (registry.setGatewayCommands response).names.Nodup := by
  refine ⟨fun registry typed item offered lower => ?_, fun registry name args named whole => ?_,
    fun registry name => CommandRegistry.resolve_of_local,
    fun commands => CommandRegistry.nodup_fromSlashMeta,
    fun registry response => CommandRegistry.nodup_withRemote⟩
  · rcases CommandRegistry.mem_completions offered with ⟨entry, listed, rfl⟩ | ⟨command, given, rfl⟩
    · exact .inl ⟨entry, listed, rfl, CommandRegistry.resolve_of_mem_locals listed⟩
    · exact .inr ⟨command, given, rfl, CommandRegistry.resolve_of_mem_remote given lower⟩
  · exact ⟨parseSlashInput_typed named whole, CommandRegistry.resolve_toAsciiLowercase name⟩

def toolsResponse : Value :=
  .obj [("commands", .arr [.obj [("name", .str "tools")], .obj [("name", .str "clear")]])]

def toolsRegistry : CommandRegistry := CommandRegistry.default.setGatewayCommands toolsResponse

/-- One of them is completed and resolved, parsed in lower case, and neither shadows a local one nor
the other. -/
theorem listed_tools_resolve :
    (∃ item ∈ toolsRegistry.completions "to", ResolvesTo toolsRegistry item) ∧
      Channel.parseSlashInput ("/" ++ "Tools" ++ " " ++ " now ") = some ("tools", "now") ∧
      toolsRegistry.resolve "Quit" = CommandRegistry.default.resolve "Quit" ∧
      (CommandRegistry.fromSlashMeta (CommandRegistry.ofResponse toolsResponse) none).names.Nodup ∧
      toolsRegistry.names.Nodup := by
  obtain ⟨resolves, parses, locals, listed, given⟩ := offered_commands_resolve
  have whole : ∀ c ∈ "Tools".toList, isWhitespace c = false := by
    have plain : "Tools".toList.all fun c => !isWhitespace c := by decide
    intro c member
    simpa using List.all_eq_true.mp plain c member
  have distinct : ((CommandRegistry.ofResponse toolsResponse).map (·.name)).Nodup := by decide
  refine ⟨⟨⟨"tools", "", none, "system"⟩, by decide, ?_⟩, ?_, ?_, ?_, ?_⟩
  · exact resolves toolsRegistry "to" _ (by decide) (by decide)
  · exact (parses toolsRegistry "Tools" " now " (by decide) whole).1
  · exact (locals toolsRegistry "Quit" (by decide)).1
  · exact listed _ none distinct
  · exact given CommandRegistry.default toolsResponse distinct

def twiceTools : CommandRegistry :=
  let tools := CommandRegistry.shownAs "Tools" "List tools" none "tools"
  CommandRegistry.fromSlashMeta [tools, tools] none

/-- The name and the arguments of an input are not those that were typed, and a command with a
capital letter, which is listed twice, is offered and not resolved. -/
theorem typed_tools_differ :
    Channel.parseSlashInput ("/" ++ "Tools" ++ " " ++ " now ") = some ("tools", "now") ∧
      (twiceTools.completions "to").map (·.name) = ["Tools", "Tools"] ∧
      twiceTools.resolve "Tools" = none := by
  refine ⟨?_, ?_, ?_⟩
  all_goals decide

end KelvinClaw.Tui
