import KelvinClaw.Sdk.SessionStore
import KelvinClaw.Channel.CommandGate
import KelvinClaw.Channel.InboxOrder

/-!
# The sessions of slash commands

A slash command of a channel carries the session that its envelope asks for, and acts on `main`
if it asks for none. A message goes to the session of its route. The two are different sessions
unless the envelope asks for the session that the routes lead to. The id after `/session` is
carried as a text, where the command reads the member of an object, so that no id is selected.
-/

namespace KelvinClaw.Channel

open KelvinClaw.Core KelvinClaw.Sdk Systems Systems.Action

/-! ### The commands of the gateway -/

def allSurfaces : Finset CommandSurface := {.tui, .telegram, .slack, .discord, .whatsApp}

def builtinCommands : List SlashCommandMeta :=
  [{ name := "new", surfaces := allSurfaces, minTier := some .trusted, bypassQueue := false },
    { name := "clear", surfaces := allSurfaces, minTier := some .trusted, bypassQueue := false },
    { name := "tools", surfaces := allSurfaces, minTier := some .standard, bypassQueue := false },
    { name := "session", surfaces := allSurfaces, minTier := some .standard, bypassQueue := false },
    { name := "plugins", surfaces := {.tui}, minTier := some .owner, bypassQueue := false }]

def buildCommandRegistry : CommandRegistry := .fromSlashMeta builtinCommands none

/-- What commands read of the runtime, and what comes of their calls. -/
structure CommandRuntime where
  defaultWorkspaceDir : String
  upsertSession : SessionDescriptor → KelvinResult Unit
  clearSessionHistory : String → KelvinResult Unit
  toolDefinitions : List ToolDefinition
  sessionsListPayload : KelvinResult Value
  pluginsInspectPayload : KelvinResult Value

/-- The calls of a command that concern a session. -/
inductive SessionCall where
  | upsertSession (session : SessionDescriptor)
  | clearSessionHistory (sessionId : String)
  deriving DecidableEq, Repr

def SessionCall.sessionId : SessionCall → String
  | .upsertSession session => session.sessionId
  | .clearSessionHistory sessionId => sessionId

abbrev CommandAction (α : Type) := Action Unit SessionCall KelvinError α

def executedName (command : String) : String :=
  String.ofList ((trim command).toList.dropWhile (· = '/'))

/-- The session id among the arguments of `/session`. -/
def sessionArgument (args : Value) : Option String :=
  match args with
  | .obj members =>
    match Value.lookup "session_id" members with
    | some (.str sessionId) => if trim sessionId = "" then none else some sessionId
    | _ => none
  | _ => none

/-- The reply of `/session` to a session id. -/
def sessionSelected (sessionId : String) : Value :=
  .obj [("command", .str "session"), ("session_id", .str sessionId)]

/-- `/session`: the session to switch to, or the list of the sessions. -/
def sessionCommand (runtime : CommandRuntime) (args : Value) : CommandAction Value := do
  match sessionArgument args with
  | some sessionId => return sessionSelected sessionId
  | none =>
    let payload ← ofExcept runtime.sessionsListPayload
    return .obj [("command", .str "session"), ("result", payload)]

def commandExecPayload (runtime : CommandRuntime) (params : CommandExecParams) :
    CommandAction Value := do
  match executedName params.command with
  | "new" =>
    let sessionId := params.sessionId.getD "main"
    let session : SessionDescriptor := ⟨sessionId, sessionId, runtime.defaultWorkspaceDir⟩
    log (.upsertSession session)
    ofExcept (runtime.upsertSession session)
    return .obj [("command", .str "new"), ("session_id", .str sessionId)]
  | "clear" =>
    let sessionId := params.sessionId.getD "main"
    log (.clearSessionHistory sessionId)
    ofExcept (runtime.clearSessionHistory sessionId)
    return .obj [("command", .str "clear"), ("session_id", .str sessionId)]
  | "tools" =>
    let defs := runtime.toolDefinitions
    return .obj
      [("command", .str "tools"), ("count", .num defs.length),
        ("tools", .arr (defs.map fun d =>
          .obj [("description", .str d.description), ("name", .str d.name)]))]
  | "session" => sessionCommand runtime params.args
  | "plugins" =>
    let payload ← ofExcept runtime.pluginsInspectPayload
    return .obj [("command", .str "plugins"), ("result", payload)]
  | other => fail (.invalidInput s!"unknown command: /{other}")

section Executor

variable {runtime : CommandRuntime} {params : CommandExecParams}

def sessionsOf (runtime : CommandRuntime) (params : CommandExecParams) : List String :=
  (commandExecPayload runtime params ()).journal.map SessionCall.sessionId

def NamesSession (command : String) : Prop :=
  executedName command = "new" ∨ executedName command = "clear"

theorem sessionsOf_of_namesSession (named : NamesSession params.command) :
    sessionsOf runtime params = [params.sessionId.getD "main"] := by
  rcases named with new | clear
  · simp only [sessionsOf, commandExecPayload, new]
    rw [bind_apply_of_result rfl]
    cases runtime.upsertSession _ with
    | ok done => rfl
    | error err => rfl
  · simp only [sessionsOf, commandExecPayload, clear]
    rw [bind_apply_of_result rfl]
    cases runtime.clearSessionHistory _ with
    | ok done => rfl
    | error err => rfl

theorem journal_sessionCommand (args : Value) : (sessionCommand runtime args ()).journal = [] := by
  unfold sessionCommand
  cases sessionArgument args with
  | some sessionId => rfl
  | none =>
    cases runtime.sessionsListPayload with
    | ok payload => rfl
    | error err => rfl

theorem sessionsOf_of_other (unnamed : ¬ NamesSession params.command) :
    sessionsOf runtime params = [] := by
  unfold NamesSession at unnamed
  unfold sessionsOf commandExecPayload
  generalize executedName params.command = name at unnamed
  split
  · exact absurd (Or.inl rfl) unnamed
  · exact absurd (Or.inr rfl) unnamed
  · rfl
  · rw [journal_sessionCommand, List.map_nil]
  · cases runtime.pluginsInspectPayload with
    | ok payload => rfl
    | error err => rfl
  · rfl

theorem sessionArgument_argsValue (args : String) : sessionArgument (argsValue args) = none := by
  unfold argsValue
  split
  · rfl
  · rfl

theorem not_selected_of_argsValue {args : String} (named : executedName params.command = "session")
    (carried : params.args = argsValue args) (sessionId : String) :
    (commandExecPayload runtime params ()).result ≠ .ok (sessionSelected sessionId) := by
  simp only [commandExecPayload, named, sessionCommand, carried, sessionArgument_argsValue]
  cases runtime.sessionsListPayload with
  | ok payload =>
    intro selected
    have same := Except.ok.inj selected
    simp [sessionSelected] at same
  | error err => exact nofun

end Executor

/-! ### Commands and messages of one envelope -/

section Conversation

variable (ctx : ChannelContext)

/-- The route of a plain message: the one of the table, with what the module replaces. -/
def messageRoute (passed : ChannelEnvelope) (trustTier : SenderTrustTier)
    (decision : Option WasmPolicyDecision) : RouteDecision :=
  decision.elim (routeFor ctx passed trustTier) (routeFor ctx passed trustTier).applyWasmOverrides

variable (machine : Machine) (envelope : ChannelEnvelope)

/-- A command of the envelope is executed past the inbox, or whenever its entry is taken from the
inbox. -/
def ExecutesCommand (passed : ChannelEnvelope) (params : CommandExecParams) : Prop :=
  .bypassed passed.deliveryId params ∈ (ingest ctx envelope machine).journal ∨
    ∃ entry later, .queued entry ∈ (ingest ctx envelope machine).journal ∧
      .dispatched entry.deliveryId params ∈ (executeEntry ctx entry later).journal

/-- The commands of an envelope act on the session of its messages, and their arguments reach
them. -/
def OwnConversation (runtime : CommandRuntime) : Prop :=
  ∀ passed trustTier decision params,
    (screen ctx envelope machine).result = .ok (.passed passed trustTier decision) →
      ExecutesCommand ctx machine envelope passed params →
        (∀ sessionId ∈ sessionsOf runtime params,
          sessionId = (messageRoute ctx passed trustTier decision).sessionId) ∧
        ∀ name args, parseSlashInput passed.text = some (name, args) →
          params.command = name ∧ params.args = argsValue args ∧
            (executedName name = "session" → args ≠ "" →
              (commandExecPayload runtime params ()).result = .ok (sessionSelected args))

/-- A registered command is called, the sender has the tier for it, and it is dispatched at once
or finds room in the inbox. -/
def Calls (passed : ChannelEnvelope) (trustTier : SenderTrustTier) (name args : String) : Prop :=
  ∃ command, commandFor ctx passed.text = some (command, name, args) ∧
    ¬ command.minTier.any (trustTier < ·) ∧ (command.bypassQueue ∨ HasRoom ctx machine)

/-- The envelope asks for the session that its messages go to, where one that asks for none
stands for `main`: the session that the module sets, or the one of the first rule that matches;
without either, the envelope asks for some session. -/
def CarriesRoute (passed : ChannelEnvelope) (trustTier : SenderTrustTier)
    (decision : Option WasmPolicyDecision) : Prop :=
  match decision.bind fun decided => trimOption decided.routeSessionId with
  | some sessionId => passed.sessionId.getD "main" = sessionId
  | none =>
    match ctx.routing.rules.find? (·.matches
      { channel := ctx.config.kind.asStr
        accountId := passed.accountId
        requestedSessionId := passed.sessionId
        requestedWorkspaceDir := passed.workspaceDir
        senderTier := trustTier }) with
    | some rule => passed.sessionId.getD "main" =
        rule.routeSessionId.getD (defaultSessionId ctx.config.kind.asStr passed.accountId)
    | none => passed.sessionId.isSome

end Conversation

variable {ctx : ChannelContext} {machine : Machine} {envelope passed : ChannelEnvelope}
  {trustTier : SenderTrustTier} {decision : Option WasmPolicyDecision}

/-! ### Routes -/

/-- The default session of an account is not `main`. -/
theorem defaultSessionId_ne_main (channel accountId : String) :
    "main" ≠ defaultSessionId channel accountId := by
  intro same
  have colon : ':' ∈ (defaultSessionId channel accountId).toList := by
    have itself : ':' ∈ (toString ":").toList := by decide
    simp [defaultSessionId, itself]
  rw [← same] at colon
  revert colon
  decide

theorem sessionId_messageRoute : (messageRoute ctx passed trustTier decision).sessionId =
    (decision.bind fun decided => trimOption decided.routeSessionId).getD
      (routeFor ctx passed trustTier).sessionId := by
  cases decision with
  | none => rfl
  | some decided => rfl

/-- **Routes.** A command acts on the session of the messages exactly when the envelope asks for
the session that the routes lead to. -/
theorem carriesRoute_iff : CarriesRoute ctx passed trustTier decision ↔
    passed.sessionId.getD "main" = (messageRoute ctx passed trustTier decision).sessionId := by
  rw [sessionId_messageRoute, CarriesRoute]
  cases decision.bind fun decided => trimOption decided.routeSessionId with
  | some sessionId => exact Iff.rfl
  | none =>
    simp only [Option.getD_none, routeFor, ChannelRoutingTable.decide]
    generalize ctx.routing.rules.find? _ = matched
    cases matched with
    | some rule => exact Iff.rfl
    | none =>
      cases passed.sessionId with
      | some sessionId => simp
      | none =>
        simp only [Option.isSome_none, Bool.false_eq_true, Option.getD_none, false_iff]
        exact defaultSessionId_ne_main _ _

/-! ### Commands that are executed -/

theorem executesCommand_of_calls {name args : String}
    (passes : (screen ctx envelope machine).result = .ok (.passed passed trustTier decision))
    (calls : Calls ctx machine passed trustTier name args) :
    ExecutesCommand ctx machine envelope passed ⟨name, argsValue args, passed.sessionId⟩ := by
  obtain ⟨command, called, allowed, runs⟩ := calls
  by_cases bypass : command.bypassQueue = true
  · apply Or.inl
    exact bypassed_mem_ingest passes
      (bypassFor_eq_some.mpr ⟨command, name, args, called, allowed, bypass, rfl⟩)
  · have queued := queued_mem_ingest passes (verdictFor_of_command called allowed bypass)
      (runs.resolve_left bypass)
    refine Or.inr ⟨_, machine, queued, ?_⟩
    obtain ⟨rest, _, same⟩ := @executeEntry_eq ctx ⟨passed, routeFor ctx passed trustTier,
      some ⟨name, argsValue args, passed.sessionId⟩⟩
    rw [same, bind_apply_of_result rfl]
    exact List.mem_append_left _ List.mem_cons_self

theorem calls_of_executesCommand {params : CommandExecParams}
    (passes : (screen ctx envelope machine).result = .ok (.passed passed trustTier decision))
    (executes : ExecutesCommand ctx machine envelope passed params) :
    ∃ name args, Calls ctx machine passed trustTier name args ∧
      params = ⟨name, argsValue args, passed.sessionId⟩ := by
  rcases executes with bypassed | ⟨entry, later, queued, dispatched⟩
  · obtain ⟨_, _, _, again, done⟩ := acts_of_ingest bypassed trivial
    obtain ⟨rfl, rfl, rfl⟩ : _ ∧ _ ∧ _ := by simpa using again.symm.trans passes
    rcases done with ⟨found, bypass, same⟩ | ⟨_, _, _, other | ⟨_, _, executes⟩⟩
    · obtain ⟨-, rfl⟩ := ChannelEvent.bypassed.inj same
      obtain ⟨command, name, args, called, allowed, past, rfl⟩ := bypassFor_eq_some.mp bypass
      exact ⟨name, args, ⟨command, called, allowed, Or.inl past⟩, rfl⟩
    · cases other
    · exact executes.elim
  · obtain ⟨_, _, _, again, done⟩ := acts_of_ingest queued trivial
    obtain ⟨rfl, rfl, rfl⟩ : _ ∧ _ ∧ _ := by simpa using again.symm.trans passes
    rcases done with ⟨_, _, other⟩ | ⟨found, verdict, room, same | ⟨_, _, executes⟩⟩
    · cases other
    · obtain rfl := ChannelEvent.queued.inj same
      have executes := (@frames_executeEntry ctx entry later).2 _ dispatched trivial
      obtain ⟨-, slash, carried, rfl⟩ := executes
      obtain ⟨_, none⟩ | ⟨command, name, args, called, allowed, _, some⟩ :=
        verdictFor_eq_queue verdict
      · rw [none] at carried
        cases carried
      · obtain rfl := Option.some_inj.mp (some.symm.trans carried)
        exact ⟨name, args, ⟨command, called, allowed, Or.inr room⟩, rfl⟩
    · exact executes.elim

/-- **Conversations.** The commands of an envelope act on the session of its messages, exactly when
`/new` and `/clear` come with the session that the routes lead to, and `/session` without an id. -/
theorem ownConversation_iff (ctx : ChannelContext) (machine : Machine) (envelope : ChannelEnvelope)
    (runtime : CommandRuntime) :
    OwnConversation ctx machine envelope runtime ↔
      ∀ passed trustTier decision name args,
        (screen ctx envelope machine).result = .ok (.passed passed trustTier decision) →
          Calls ctx machine passed trustTier name args →
            (NamesSession name → CarriesRoute ctx passed trustTier decision) ∧
              (executedName name = "session" → args = "") := by
  constructor
  · intro own passed trustTier decision name args passes calls
    obtain ⟨sessions, arguments⟩ := own passed trustTier decision _ passes
      (executesCommand_of_calls passes calls)
    constructor
    · intro named
      rw [@sessionsOf_of_namesSession runtime ⟨name, argsValue args, passed.sessionId⟩ named,
        List.forall_mem_singleton] at sessions
      rw [carriesRoute_iff]
      exact sessions
    · intro named
      by_contra some
      obtain ⟨command, called, _⟩ := calls
      obtain ⟨_, _, selects⟩ := arguments name args (commandFor_eq_some called).1
      have lists := @not_selected_of_argsValue runtime
        ⟨name, argsValue args, passed.sessionId⟩ args
      exact lists named rfl args (selects named some)
  · intro fits passed trustTier decision params passes executes
    obtain ⟨name, args, calls, rfl⟩ := calls_of_executesCommand passes executes
    obtain ⟨carries, empty⟩ := fits passed trustTier decision name args passes calls
    constructor
    · intro sessionId acts
      by_cases named : NamesSession name
      · rw [@sessionsOf_of_namesSession runtime ⟨name, argsValue args, passed.sessionId⟩ named,
          List.mem_singleton] at acts
        rw [acts]
        exact carriesRoute_iff.mp (carries named)
      · rw [@sessionsOf_of_other runtime ⟨name, argsValue args, passed.sessionId⟩ named] at acts
        cases acts
    · intro parsedName parsedArgs parses
      obtain ⟨command, called, _⟩ := calls
      obtain ⟨rfl, rfl⟩ : name = parsedName ∧ args = parsedArgs := by
        simpa using (commandFor_eq_some called).1.symm.trans parses
      exact ⟨rfl, rfl, fun named some => absurd (empty named) some⟩

def trustedContext : ChannelContext :=
  let plain := openContext buildCommandRegistry.remote fun _ => .ok ()
  { plain with
    config :=
      { plain.config with policy := { openPolicy with trustedSenders := {"user-1"} } } }

def idleRuntime : CommandRuntime where
  defaultWorkspaceDir := "/srv"
  upsertSession := fun _ => .ok ()
  clearSessionHistory := fun _ => .ok ()
  toolDefinitions := []
  sessionsListPayload := .ok (.arr [])
  pluginsInspectPayload := .ok .null

/-- `/clear` without a session clears the history of `main`, where the messages go to the session
of the account. -/
theorem clear_acts_on_main :
    ¬ ∀ ctx machine envelope runtime, OwnConversation ctx machine envelope runtime := by
  intro own
  have passes : (screen trustedContext (plainEnvelope "d-1" "/clear") emptyRun.machine).result =
      .ok (.passed (plainEnvelope "d-1" "/clear") .trusted none) := by
    decide +kernel
  have called : commandFor trustedContext "/clear" =
      some ({ name := "clear", surfaces := allSurfaces, minTier := some .trusted,
              bypassQueue := false }, "clear", "") := by
    decide +kernel
  have executes := executesCommand_of_calls passes
    ⟨_, called, by decide, Or.inr (show 0 < 1 by decide)⟩
  obtain ⟨sessions, _⟩ := own trustedContext emptyRun.machine (plainEnvelope "d-1" "/clear")
    idleRuntime _ _ _ _ passes executes
  have cleared : sessionsOf idleRuntime
      ⟨"clear", argsValue "", (plainEnvelope "d-1" "/clear").sessionId⟩ = ["main"] :=
    sessionsOf_of_namesSession (Or.inr (by decide))
  rw [cleared, List.forall_mem_singleton] at sessions
  revert sessions
  decide +kernel

end KelvinClaw.Channel
