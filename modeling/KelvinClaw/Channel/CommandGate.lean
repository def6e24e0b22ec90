import KelvinClaw.Channel.Admission

/-!
# The gate of slash commands, and blocked senders

A command is gated by the surfaces it lists and by its minimum tier. The gate takes an empty
list of surfaces for all surfaces, where the registry takes it for none. A sender whose tier
the policy has set to blocked is turned away; a sender whose tier the module has set to
blocked is not, unless a command asks for more.
-/

namespace KelvinClaw.Channel

open KelvinClaw.Core Systems Systems.Action

variable {ctx : ChannelContext} {envelope : ChannelEnvelope} {machine : Machine}

/-! ### The gate of slash commands -/

section Gate

variable (ctx) (machine)

/-- A registered command is available on the channel, and the tier is enough for it. -/
def Permitted (trustTier : SenderTrustTier) (name : String) : Prop :=
  ∃ command, ctx.commandRegistry.lookupMeta name = some command ∧
    ctx.config.kind.asCommandSurface ∈ command.surfaces ∧ ¬ command.minTier.any (trustTier < ·)

/-- A command that is dispatched or queued is permitted, up to those that stood in the inbox
before. -/
def KeepsGate (trustTier : SenderTrustTier) : ChannelEvent → Prop
  | .bypassed _ params => Permitted ctx trustTier params.command
  | .queued entry => ∀ slash, entry.slashCommand = some slash →
      Permitted ctx trustTier slash.commandName
  | .dispatched deliveryId params =>
    (∃ entry ∈ machine.adapter.inbox, Executes entry (.dispatched deliveryId params)) ∨
      Permitted ctx trustTier params.command
  | _ => True

/-- The commands that an ingestion dispatches or queues are permitted to the effective tier of
the sender. -/
def GateKept (envelope : ChannelEnvelope) : Prop :=
  ∀ event ∈ (ingest ctx envelope machine).journal,
    KeepsGate ctx machine (effectiveTier ctx envelope machine) event

/-- What has passed the screening calls a command that lists no surface, has the tier for it,
and the command is dispatched at once or finds room in the inbox. -/
def ClosedCommandRuns (envelope : ChannelEnvelope) : Prop :=
  ∃ passed trustTier decision command name args,
    (screen ctx envelope machine).result = .ok (.passed passed trustTier decision) ∧
      commandFor ctx passed.text = some (command, name, args) ∧
      ¬ command.minTier.any (trustTier < ·) ∧
      (command.bypassQueue ∨ HasRoom ctx machine) ∧ command.surfaces = ∅

end Gate

theorem commandFor_eq_some {text name args : String} {command : SlashCommandMeta}
    (called : commandFor ctx text = some (command, name, args)) :
    parseSlashInput text = some (name, args) ∧
      ctx.commandRegistry.lookupMeta name = some command ∧
      (command.surfaces = ∅ ∨ ctx.config.kind.asCommandSurface ∈ command.surfaces) := by
  obtain ⟨⟨parsed, rest⟩, parses, called⟩ := Option.bind_eq_some_iff.mp called
  obtain ⟨found, lookup, called⟩ := Option.bind_eq_some_iff.mp called
  obtain ⟨_, available, called⟩ := Option.bind_eq_some_iff.mp called
  obtain ⟨rfl, rfl, rfl⟩ : found = command ∧ parsed = name ∧ rest = args := by
    simpa using called
  exact ⟨parses, lookup, (Option.guard_eq_some' _).mp available⟩

theorem bypassFor_eq_some {passed : ChannelEnvelope} {trustTier : SenderTrustTier}
    {params : CommandExecParams} :
    bypassFor ctx passed trustTier = some params ↔
      ∃ command name args, commandFor ctx passed.text = some (command, name, args) ∧
        ¬ command.minTier.any (trustTier < ·) ∧ command.bypassQueue = true ∧
        ⟨name, argsValue args, passed.sessionId⟩ = params := by
  unfold bypassFor
  cases commandFor ctx passed.text with
  | none => simp
  | some called =>
    obtain ⟨command, name, args⟩ := called
    simp [and_assoc]

theorem verdictFor_eq_queue {passed : ChannelEnvelope} {trustTier : SenderTrustTier}
    {decision : Option WasmPolicyDecision} {entry : QueuedEnvelope}
    (verdict : verdictFor ctx passed trustTier decision = .queue entry) :
    (commandFor ctx passed.text = none ∧ entry.slashCommand = none) ∨
      ∃ command name args, commandFor ctx passed.text = some (command, name, args) ∧
        ¬ command.minTier.any (trustTier < ·) ∧ ¬ command.bypassQueue = true ∧
        entry.slashCommand = some ⟨name, argsValue args, passed.sessionId⟩ := by
  unfold verdictFor at verdict
  cases called : commandFor ctx passed.text with
  | none =>
    simp only [called, Verdict.queue.injEq] at verdict
    exact Or.inl ⟨rfl, verdict ▸ rfl⟩
  | some found =>
    obtain ⟨command, name, args⟩ := found
    simp only [called] at verdict
    split_ifs at verdict with denied bypass
    obtain rfl := Verdict.queue.inj verdict
    exact Or.inr ⟨command, name, args, rfl, denied, bypass, rfl⟩

/-- A command that is neither denied nor dispatched at once is for the inbox. -/
theorem verdictFor_of_command {passed : ChannelEnvelope} {trustTier : SenderTrustTier}
    {decision : Option WasmPolicyDecision} {command : SlashCommandMeta} {name args : String}
    (called : commandFor ctx passed.text = some (command, name, args))
    (allowed : ¬ command.minTier.any (trustTier < ·)) (waits : ¬ command.bypassQueue = true) :
    verdictFor ctx passed trustTier decision =
      .queue ⟨passed, routeFor ctx passed trustTier,
        some ⟨name, argsValue args, passed.sessionId⟩⟩ := by
  simp only [verdictFor, called, if_neg allowed, if_neg waits]

theorem permitted_of_commandFor {text name args : String} {command : SlashCommandMeta}
    {trustTier : SenderTrustTier} (called : commandFor ctx text = some (command, name, args))
    (allowed : ¬ command.minTier.any (trustTier < ·)) (listed : command.surfaces ≠ ∅) :
    Permitted ctx trustTier name := by
  obtain ⟨-, lookup, available⟩ := commandFor_eq_some called
  exact ⟨command, lookup, available.resolve_left listed, allowed⟩

theorem not_permitted_of_closed {text name args : String} {command : SlashCommandMeta}
    {trustTier : SenderTrustTier} (called : commandFor ctx text = some (command, name, args))
    (closed : command.surfaces = ∅) : ¬ Permitted ctx trustTier name := by
  rintro ⟨other, lookup, available, _⟩
  obtain rfl : other = command :=
    Option.some_inj.mp (lookup.symm.trans (commandFor_eq_some called).2.1)
  simp [closed] at available

theorem not_gateKept_of_closed (runs : ClosedCommandRuns ctx machine envelope) :
    ¬ GateKept ctx machine envelope := by
  obtain ⟨passed, trustTier, decision, command, name, args, passes, called, allowed, runs,
    closed⟩ := runs
  intro kept
  have forbidden : ¬ Permitted ctx trustTier name := not_permitted_of_closed called closed
  rw [tier_of_screen passes] at forbidden allowed passes
  by_cases bypass : command.bypassQueue = true
  · have bypassed := bypassed_mem_ingest passes
      (bypassFor_eq_some.mpr ⟨command, name, args, called, allowed, bypass, rfl⟩)
    have permitted := kept _ bypassed
    exact forbidden permitted
  · have queued := queued_mem_ingest passes (verdictFor_of_command called allowed bypass)
      (runs.resolve_left bypass)
    have permitted := kept _ queued
    simp only [KeepsGate, Option.some.injEq, forall_eq'] at permitted
    exact forbidden permitted

/-- **The gate.** An ingestion keeps it exactly when it does not let a command without surfaces
through. -/
theorem gateKept_iff (ctx : ChannelContext) (machine : Machine) (envelope : ChannelEnvelope) :
    GateKept ctx machine envelope ↔ ¬ ClosedCommandRuns ctx machine envelope := by
  constructor
  · exact fun kept runs => not_gateKept_of_closed runs kept
  · intro closed event member
    have permits : ∀ {passed trustTier decision command name args},
        (screen ctx envelope machine).result = .ok (.passed passed trustTier decision) →
        commandFor ctx passed.text = some (command, name, args) →
        ¬ command.minTier.any (trustTier < ·) →
        (command.bypassQueue ∨ HasRoom ctx machine) →
        Permitted ctx (effectiveTier ctx envelope machine) name := by
      intro passed trustTier decision command name args passes called allowed runs
      rw [← tier_of_screen passes]
      apply permitted_of_commandFor called allowed
      intro noSurface
      exact closed ⟨passed, trustTier, decision, command, name, args, passes, called, allowed,
        runs, noSurface⟩
    -- the command of an entry that this ingestion has put into the inbox
    have queues : ∀ {passed trustTier decision entry slash},
        (screen ctx envelope machine).result = .ok (.passed passed trustTier decision) →
        verdictFor ctx passed trustTier decision = .queue entry → HasRoom ctx machine →
        entry.slashCommand = some slash →
        Permitted ctx (effectiveTier ctx envelope machine) slash.commandName := by
      intro passed trustTier decision entry slash passes verdict room found
      obtain ⟨_, none⟩ | ⟨command, name, args, called, allowed, _, some⟩ :=
        verdictFor_eq_queue verdict
      · rw [none] at found
        cases found
      · obtain rfl := Option.some_inj.mp (some.symm.trans found)
        exact permits passes called allowed (Or.inr room)
    by_cases acts : Acts event
    · obtain ⟨passed, trustTier, decision, passes, past | ⟨entry, verdict, room, queued⟩⟩ :=
        acts_of_ingest member acts
      · obtain ⟨params, bypassed, rfl⟩ := past
        obtain ⟨command, name, args, called, allowed, bypass, rfl⟩ := bypassFor_eq_some.mp bypassed
        exact permits passes called allowed (Or.inl bypass)
      · obtain rfl | ⟨other, waits, executes⟩ := queued
        · exact fun slash found => queues passes verdict room found
        · cases event with
          | dispatched deliveryId params =>
            rcases List.mem_append.mp waits with before | new
            · exact Or.inl ⟨other, before, executes⟩
            · obtain rfl := List.mem_singleton.mp new
              obtain ⟨_, slash, found, rfl⟩ := executes
              exact Or.inr (queues passes verdict room found)
          | submitted deliveryId request => trivial
          | _ => exact executes.elim
    · cases event with
      | queued _ => exact absurd trivial acts
      | bypassed _ _ => exact absurd trivial acts
      | dispatched _ _ => exact absurd trivial acts
      | _ => trivial

theorem not_closedCommandRuns_of_fromSlashMeta {commands : List SlashCommandMeta}
    (registered : ctx.commandRegistry =
      .fromSlashMeta commands (some ctx.config.kind.asCommandSurface)) :
    ¬ ClosedCommandRuns ctx machine envelope := by
  rintro ⟨passed, trustTier, decision, command, name, args, _, called, _, _, closed⟩
  have lookup := (commandFor_eq_some called).2.1
  rw [registered] at lookup
  have listed := CommandRegistry.surface_of_lookupMeta lookup
  simp [closed] at listed

def closedContext : ChannelContext :=
  openContext [{ name := "wipe", surfaces := ∅, minTier := none, bypassQueue := true }]
    fun _ => .ok ()

/-- The disabled command is dispatched for a sender of the standard tier. -/
theorem disabled_command_dispatched :
    ¬ ∀ machine envelope, GateKept closedContext machine envelope := by
  intro kept
  have passes : (screen closedContext (plainEnvelope "d-1" "/wipe") emptyRun.machine).result =
      .ok (.passed (plainEnvelope "d-1" "/wipe") .standard none) := by
    decide +kernel
  have called : commandFor closedContext "/wipe" =
      some ({ name := "wipe", surfaces := ∅, minTier := none, bypassQueue := true },
        "wipe", "") := by
    decide +kernel
  exact not_gateKept_of_closed ⟨_, _, _, _, _, _, passes, called, by decide, Or.inl rfl, rfl⟩
    (kept emptyRun.machine (plainEnvelope "d-1" "/wipe"))

/-! ### What the policy of the channel admits -/

section Policy

variable (ctx) (machine)

def Cools (trustTier : SenderTrustTier) : Prop :=
  trustTier = .probation ∧ 0 < ctx.config.policy.cooldownProbationMs

instance (trustTier : SenderTrustTier) : Decidable (Cools ctx trustTier) :=
  inferInstanceAs (Decidable (_ ∧ _))

/-- The number of the call that saves the state for a sender who may send: before it the clock is
read for the quota, and for the cooldown. -/
def saveCall (trustTier : SenderTrustTier) : ℕ :=
  machine.calls + if Cools ctx trustTier then 2 else 1

def moduleCall (trustTier : SenderTrustTier) : ℕ :=
  saveCall ctx machine trustTier + if ctx.statePersistence then 1 else 0

/-- A sender may send: neither blocked nor left out of a list, within the quota and out of the
cooldown, and the state is saved. -/
structure MaySend (envelope : ChannelEnvelope) (trustTier : SenderTrustTier) : Prop where
  unblocked : trustTier ≠ .blocked
  account : ctx.config.policy.allowAccounts ≠ ∅ →
    envelope.accountId ∈ ctx.config.policy.allowAccounts ∨ trustTier = .owner
  sender : ctx.config.policy.allowSenders ≠ ∅ →
    envelope.senderId ∈ ctx.config.policy.allowSenders ∨ trustTier ≠ .standard
  quota : (pruneWindow (ctx.surroundings.nowMs machine.calls)
      ((machine.adapter.rateWindows envelope.senderId).getD [])).length <
    ctx.config.policy.quotaPerMinute trustTier
  cooldown : Cools ctx trustTier → ∀ untilMs ∈ machine.adapter.cooldownUntilMs envelope.senderId,
    untilMs ≤ ctx.surroundings.nowMs (machine.calls + 1)
  saved : ctx.statePersistence = true →
    ctx.surroundings.save (saveCall ctx machine trustTier) = .ok ()

/-- The channel admits an envelope, normalized: it is well formed and new, its account is paired
where pairing is asked for, and its sender may send. -/
structure Admits (envelope admitted : ChannelEnvelope) : Prop where
  wellFormed : normalizeEnvelope ctx.config envelope = .ok admitted
  unseen : admitted.deliveryId ∉ machine.adapter.seenDeliveryIds
  paired : ctx.config.pairingEnabled = true → admitted.accountId ∈ ctx.config.policy.allowAccounts ∨
    admitted.accountId ∈ machine.adapter.pairedAccounts
  maySend : MaySend ctx machine admitted (tierFromPolicy ctx.config.policy admitted.senderId)

end Policy

theorem ends_persistState {m : Machine} :
    Ends (persistState ctx) (fun result t =>
      (result = .ok () ↔ (ctx.statePersistence = true → ctx.surroundings.save m.calls = .ok ())) ∧
        t.calls = m.calls + if ctx.statePersistence then 1 else 0) m := by
  refine ends_iff.mpr ?_
  cases persists : ctx.statePersistence with
  | false => simp [persistState_off persists]
  | true =>
    cases saves : ctx.surroundings.save m.calls with
    | error err => simp [persistState_failed persists saves]
    | ok done => simp [persistState_saved persists saves]

theorem ends_enforceRateLimit {senderId : String} {trustTier : SenderTrustTier} {m : Machine} :
    Ends (enforceRateLimit ctx senderId trustTier) (fun result t =>
      (result = .ok () ↔ (pruneWindow (ctx.surroundings.nowMs m.calls)
        ((m.adapter.rateWindows senderId).getD [])).length <
          ctx.config.policy.quotaPerMinute trustTier) ∧
        t.calls = m.calls + 1 ∧ t.adapter.cooldownUntilMs = m.adapter.cooldownUntilMs) m := by
  simp only [enforceRateLimit, setRateWindow, Ends, wp_bind, wp_ask, wp_readAdapter, wp_update,
    true_and]
  split
  · next full => simp [record, Nat.not_lt.mpr full]
  · next room => simp [Nat.not_le.mp room]

theorem ends_enforceCooldown {senderId : String} {m : Machine} :
    Ends (enforceCooldown ctx senderId) (fun result t =>
      (result = .ok () ↔ ∀ untilMs ∈ m.adapter.cooldownUntilMs senderId,
        untilMs ≤ ctx.surroundings.nowMs m.calls) ∧ t.calls = m.calls + 1) m := by
  simp only [enforceCooldown, Ends, wp_bind, wp_ask, wp_readAdapter, true_and]
  cases m.adapter.cooldownUntilMs senderId with
  | none => simp
  | some untilMs =>
    by_cases cooling : ctx.surroundings.nowMs m.calls < untilMs
    · simp [cooling, Nat.not_le.mpr cooling]
    · simp [cooling, Nat.not_lt.mp cooling]

variable (ctx machine) in
/-- The policy lets a sender pass exactly if it may send, and the next call is to the module. -/
def PolicyDecides (envelope : ChannelEnvelope) (result : KelvinResult SenderTrustTier)
    (t : Machine) : Prop :=
  let trustTier := tierFromPolicy ctx.config.policy envelope.senderId
  (MaySend ctx machine envelope trustTier → result = .ok trustTier ∧
    t.calls = moduleCall ctx machine trustTier) ∧
  (¬ MaySend ctx machine envelope trustTier → ∃ err, result = .error err)

theorem ends_denyByPolicy {message : String}
    (denied : ¬ MaySend ctx machine envelope
      (tierFromPolicy ctx.config.policy envelope.senderId)) :
    Ends (denyByPolicy message) (PolicyDecides ctx machine envelope) machine := by
  simp [denyByPolicy, record, PolicyDecides, denied]

theorem ends_persistState_decides {m : Machine}
    (calls : m.calls =
      saveCall ctx machine (tierFromPolicy ctx.config.policy envelope.senderId))
    (may : (ctx.statePersistence = true → ctx.surroundings.save m.calls = .ok ()) ↔
      MaySend ctx machine envelope (tierFromPolicy ctx.config.policy envelope.senderId)) :
    Ends (do
      persistState ctx
      return tierFromPolicy ctx.config.policy envelope.senderId)
      (PolicyDecides ctx machine envelope) m := by
  apply wp_bind.mpr
  apply (@ends_persistState ctx _).mono
  intro saved t _ _ ⟨saves, after⟩
  rw [may] at saves
  cases saved with
  | error err =>
    have not : ¬ MaySend ctx machine envelope _ := fun may => by cases saves.mpr may
    exact ⟨fun may => absurd may not, fun _ => ⟨err, rfl⟩⟩
  | ok done =>
    refine wp_pure.mpr ⟨trivial, fun _ => ⟨rfl, ?_⟩, fun not => absurd (saves.mp rfl) not⟩
    rw [after, calls, moduleCall]

theorem maySend_iff {trustTier : SenderTrustTier} (blocked : trustTier ≠ .blocked)
    (account : ¬ (ctx.config.policy.allowAccounts ≠ ∅ ∧
      envelope.accountId ∉ ctx.config.policy.allowAccounts ∧ trustTier ≠ .owner))
    (sender : ¬ (ctx.config.policy.allowSenders ≠ ∅ ∧
      envelope.senderId ∉ ctx.config.policy.allowSenders ∧ trustTier = .standard)) :
    MaySend ctx machine envelope trustTier ↔
      (pruneWindow (ctx.surroundings.nowMs machine.calls)
          ((machine.adapter.rateWindows envelope.senderId).getD [])).length <
        ctx.config.policy.quotaPerMinute trustTier ∧
      (Cools ctx trustTier → ∀ untilMs ∈ machine.adapter.cooldownUntilMs envelope.senderId,
        untilMs ≤ ctx.surroundings.nowMs (machine.calls + 1)) ∧
      (ctx.statePersistence = true →
        ctx.surroundings.save (saveCall ctx machine trustTier) = .ok ()) := by
  refine ⟨fun may => ⟨may.quota, may.cooldown, may.saved⟩, ?_⟩
  rintro ⟨quota, cooldown, saved⟩
  refine ⟨blocked, fun some => ?_, fun some => ?_, quota, cooldown, saved⟩
  · by_contra out
    push Not at out
    exact account ⟨some, out⟩
  · by_contra out
    push Not at out
    exact sender ⟨some, out⟩

theorem ends_enforcePolicy :
    Ends (enforcePolicy ctx envelope) (PolicyDecides ctx machine envelope) machine := by
  unfold enforcePolicy
  dsimp only
  split_ifs with blocked account sender cools
  · exact ends_denyByPolicy fun may => may.unblocked blocked
  · exact ends_denyByPolicy fun may => (may.account account.1).elim account.2.1 account.2.2
  · exact ends_denyByPolicy fun may =>
      (may.sender sender.1).elim sender.2.1 fun other => other sender.2.2
  · have may := @maySend_iff ctx envelope machine _ blocked account sender
    apply wp_bind.mpr
    apply (@ends_enforceRateLimit ctx _ _ _).mono
    intro limited t _ _ ⟨room, calls, cooldowns⟩
    cases limited with
    | error err =>
      refine ⟨fun passes => ?_, fun _ => ⟨err, rfl⟩⟩
      cases room.mpr passes.quota
    | ok done =>
      apply wp_bind.mpr
      apply (@ends_enforceCooldown ctx _ _).mono
      intro cooled u _ _ ⟨elapsed, again⟩
      rw [cooldowns, calls] at elapsed
      cases cooled with
      | error err =>
        refine ⟨fun passes => ?_, fun _ => ⟨err, rfl⟩⟩
        cases elapsed.mpr (passes.cooldown cools)
      | ok done =>
        have saving : u.calls = saveCall ctx machine
            (tierFromPolicy ctx.config.policy envelope.senderId) := by
          rw [again, calls, saveCall, if_pos (show Cools ctx _ from cools)]
        apply ends_persistState_decides saving
        rw [saving, may, and_iff_right (room.mp rfl), and_iff_right fun _ => elapsed.mp rfl]
  · have may := @maySend_iff ctx envelope machine _ blocked account sender
    change ¬ Cools ctx _ at cools
    apply wp_bind.mpr
    apply (@ends_enforceRateLimit ctx _ _ _).mono
    intro limited t _ _ ⟨room, calls, _⟩
    cases limited with
    | error err =>
      refine ⟨fun passes => ?_, fun _ => ⟨err, rfl⟩⟩
      cases room.mpr passes.quota
    | ok done =>
      have saving : t.calls = saveCall ctx machine
          (tierFromPolicy ctx.config.policy envelope.senderId) := by
        rw [calls, saveCall, if_neg cools]
      apply ends_persistState_decides saving
      rw [saving, may, and_iff_right (room.mp rfl)]
      exact (and_iff_right fun cool => absurd cool cools).symm

theorem enforcePairingPolicy_of_paired {accountId : String}
    (paired : ctx.config.pairingEnabled = true → accountId ∈ ctx.config.policy.allowAccounts ∨
      accountId ∈ machine.adapter.pairedAccounts) :
    enforcePairingPolicy ctx accountId machine = ⟨.ok none, machine, []⟩ := by
  have read : (readAdapter machine).result = .ok machine.adapter := rfl
  rw [enforcePairingPolicy, bind_apply_of_result read]
  by_cases enabled : ctx.config.pairingEnabled = true
  · rw [if_neg (not_not.mpr enabled), if_pos (paired enabled)]
    rfl
  · rw [if_pos enabled]
    rfl

theorem paired_of_enforcePairingPolicy {accountId : String}
    (goes : (enforcePairingPolicy ctx accountId machine).result = .ok none)
    (enabled : ctx.config.pairingEnabled = true) :
    accountId ∈ ctx.config.policy.allowAccounts ∨ accountId ∈ machine.adapter.pairedAccounts := by
  by_contra unpaired
  have read : (readAdapter machine).result = .ok machine.adapter := rfl
  rw [enforcePairingPolicy, bind_apply_of_result read, if_neg (not_not.mpr enabled),
    if_neg unpaired] at goes
  cases pending : machine.adapter.pendingPairCodes.find? (·.2 = accountId) with
  | some existing =>
    rw [pending] at goes
    cases goes
  | none =>
    rw [pending] at goes
    obtain ⟨now, _, goes⟩ := result_bind_ok.mp goes
    obtain ⟨_, _, goes⟩ := result_bind_ok.mp goes
    obtain ⟨saved, _, goes⟩ := result_bind_ok.mp goes
    cases saved with
    | ok done => cases goes
    | error err =>
      obtain ⟨_, _, goes⟩ := result_bind_ok.mp goes
      cases goes

theorem arrived_of_admission {admitted : ChannelEnvelope} {trustTier : SenderTrustTier}
    (admits : (admission ctx envelope machine).result = .ok (.admitted admitted trustTier)) :
    normalizeEnvelope ctx.config envelope = .ok admitted ∧
      admitted.deliveryId ∉ machine.adapter.seenDeliveryIds ∧
      (ctx.config.pairingEnabled = true → admitted.accountId ∈ ctx.config.policy.allowAccounts ∨
        admitted.accountId ∈ machine.adapter.pairedAccounts) := by
  obtain ⟨normal, new, there, same, goes⟩ := of_unanswered (of_admitted admits).1
  refine ⟨normal, new, fun enabled => ?_⟩
  rw [← same]
  exact paired_of_enforcePairingPolicy goes enabled

/-- The policy is asked in the state in which the envelope came, but for the metrics. -/
theorem admission_of_arrived {admitted : ChannelEnvelope}
    (wellFormed : normalizeEnvelope ctx.config envelope = .ok admitted)
    (unseen : admitted.deliveryId ∉ machine.adapter.seenDeliveryIds)
    (paired : ctx.config.pairingEnabled = true →
      admitted.accountId ∈ ctx.config.policy.allowAccounts ∨
        admitted.accountId ∈ machine.adapter.pairedAccounts) :
    ∃ counted : Machine, (∀ trustTier, MaySend ctx counted admitted trustTier ↔
        MaySend ctx machine admitted trustTier) ∧ counted.calls = machine.calls ∧
      admission ctx envelope machine = (enforcePolicy ctx admitted >>= fun trustTier =>
        pure (.admitted admitted trustTier)) counted := by
  let counted : Machine :=
    { machine with adapter :=
        { machine.adapter with
          metrics :=
            { machine.adapter.metrics with
              ingestTotal := bump machine.adapter.metrics.ingestTotal } } }
  refine ⟨counted, fun trustTier => ?_, rfl, ?_⟩
  · exact ⟨fun ⟨a, b, c, d, e, f⟩ => ⟨a, b, c, d, e, f⟩,
      fun ⟨a, b, c, d, e, f⟩ => ⟨a, b, c, d, e, f⟩⟩
  · have count : record (fun metrics => { metrics with ingestTotal := bump metrics.ingestTotal })
        machine = ⟨.ok (), counted, []⟩ := rfl
    have normal : (ofExcept (normalizeEnvelope ctx.config envelope) :
        ChannelAction ChannelEnvelope) counted = ⟨.ok admitted, counted, []⟩ := by
      rw [wellFormed]
      rfl
    have read : readAdapter counted = ⟨.ok counted.adapter, counted, []⟩ := rfl
    have goes := @enforcePairingPolicy_of_paired ctx counted _ paired
    have arrives : arrive ctx envelope machine = ⟨.ok (.unanswered admitted), counted, []⟩ := by
      rw [arrive, bind_apply_ok count, bind_apply_ok normal, bind_apply_ok read,
        if_neg (show admitted.deliveryId ∉ counted.adapter.seenDeliveryIds from unseen),
        bind_apply_ok goes]
      rfl
    rw [admission, bind_apply_ok arrives]
    rfl

/-- **Admission.** An envelope comes to the policy module, with the tier of its sender and as the
call that its admission leaves off at, exactly if the channel admits it. -/
theorem admission_of_admits {admitted : ChannelEnvelope}
    (admits : Admits ctx machine envelope admitted) :
    (admission ctx envelope machine).result = .ok (.admitted admitted
        (tierFromPolicy ctx.config.policy admitted.senderId)) ∧
      (admission ctx envelope machine).state.calls =
        moduleCall ctx machine (tierFromPolicy ctx.config.policy admitted.senderId) := by
  obtain ⟨counted, same, calls, apply⟩ :=
    admission_of_arrived admits.wellFormed admits.unseen admits.paired
  obtain ⟨passes, after⟩ :=
    (ends_iff.mp (@ends_enforcePolicy ctx _ counted)).1 ((same _).mpr admits.maySend)
  rw [apply, bind_apply_of_result passes]
  refine ⟨rfl, after.trans ?_⟩
  rw [moduleCall, saveCall, calls]
  rfl

theorem admits_of_admission {admitted : ChannelEnvelope} {trustTier : SenderTrustTier}
    (passes : (admission ctx envelope machine).result = .ok (.admitted admitted trustTier)) :
    Admits ctx machine envelope admitted := by
  obtain ⟨wellFormed, unseen, paired⟩ := arrived_of_admission passes
  refine ⟨wellFormed, unseen, paired, ?_⟩
  obtain ⟨counted, same, -, apply⟩ := admission_of_arrived wellFormed unseen paired
  rw [apply] at passes
  obtain ⟨_, judged, -⟩ := result_bind_ok.mp passes
  by_contra denied
  obtain ⟨err, failed⟩ :=
    (ends_iff.mp (@ends_enforcePolicy ctx _ counted)).2 (mt (same _).mp denied)
  rw [judged] at failed
  cases failed

/-! ### Blocked senders -/

section Blocked

variable (ctx) (machine)

/-- The message is not routed, and an ingestion queues and executes nothing. -/
def GetsNothing (envelope : ChannelEnvelope) : Prop :=
  (∀ entry, (triage ctx envelope machine).result = .ok (.queue entry) →
    entry.slashCommand.isSome) ∧
    ∀ event ∈ (ingest ctx envelope machine).journal, ¬ Acts event

/-- A text of a blocked sender is no command, or one that needs no tier and is dispatched at once
or finds room in the inbox. -/
def Unhindered (text : String) : Prop :=
  ∀ command name args, commandFor ctx text = some (command, name, args) →
    ¬ command.minTier.any (.blocked < ·) ∧ (command.bypassQueue ∨ HasRoom ctx machine)

/-- The policy module sets the tier of a sender that the channel admits to blocked and lets the
message through, with a text that nothing hinders. -/
def BlockedSlipsThrough (envelope : ChannelEnvelope) : Prop :=
  ctx.config.hasWasmPolicyPlugin = true ∧ ∃ admitted decision text,
    Admits ctx machine envelope admitted ∧
    ctx.surroundings.evaluate
        (moduleCall ctx machine (tierFromPolicy ctx.config.policy admitted.senderId)) admitted
        (tierFromPolicy ctx.config.policy admitted.senderId) = .ok decision ∧
    decision.allow = true ∧ decision.trustTier = some .blocked ∧
    overrideText ctx.config admitted.text decision = .ok text ∧ Unhindered ctx machine text

end Blocked

theorem evaluateWasmPolicy_of_allow {policyTier : SenderTrustTier} {decision : WasmPolicyDecision}
    {text : String} (module : ctx.config.hasWasmPolicyPlugin = true)
    (answered : ctx.surroundings.evaluate machine.calls envelope policyTier = .ok decision)
    (allows : decision.allow = true)
    (overrides : overrideText ctx.config envelope.text decision = .ok text) :
    (evaluateWasmPolicy ctx envelope policyTier machine).result =
      .ok (text, decision.trustTier.getD policyTier, some decision) := by
  rw [evaluateWasmPolicy, if_pos module]
  refine result_bind_ok.mpr ⟨.ok decision, congrArg Except.ok answered, ?_⟩
  refine result_bind_ok.mpr ⟨decision, result_ofExcept .., ?_⟩
  rw [if_pos allows]
  refine result_bind_ok.mpr ⟨text, ?_, rfl⟩
  rw [result_ofExcept, overrides]

theorem blocked_of_evaluateWasmPolicy {policyTier : SenderTrustTier} {text : String}
    {decided : Option WasmPolicyDecision} (unblocked : policyTier ≠ .blocked)
    (evaluated : (evaluateWasmPolicy ctx envelope policyTier machine).result =
      .ok (text, .blocked, decided)) :
    ctx.config.hasWasmPolicyPlugin = true ∧ ∃ decision,
      ctx.surroundings.evaluate machine.calls envelope policyTier = .ok decision ∧
        decision.allow = true ∧ decision.trustTier = some .blocked ∧
        overrideText ctx.config envelope.text decision = .ok text := by
  unfold evaluateWasmPolicy at evaluated
  split_ifs at evaluated with module
  · obtain ⟨answer, asked, evaluated⟩ := result_bind_ok.mp evaluated
    obtain ⟨decision, answered, evaluated⟩ := result_bind_ok.mp evaluated
    obtain rfl : ctx.surroundings.evaluate machine.calls envelope policyTier = answer :=
      Except.ok.inj asked
    rw [result_ofExcept] at answered
    split_ifs at evaluated with allows
    · obtain ⟨overridden, overrides, evaluated⟩ := result_bind_ok.mp evaluated
      rw [result_ofExcept] at overrides
      simp only [result_pure, Except.ok.injEq, Prod.mk.injEq] at evaluated
      obtain ⟨rfl, lowered, -⟩ := evaluated
      refine ⟨module, decision, answered, allows, ?_, overrides⟩
      cases override : decision.trustTier with
      | none =>
        rw [override] at lowered
        exact absurd lowered unblocked
      | some tier =>
        rw [override] at lowered
        exact congrArg some lowered
    · exact absurd evaluated result_denyByPolicy
  · simp only [result_pure, Except.ok.injEq, Prod.mk.injEq] at evaluated
    exact absurd evaluated.2.1 unblocked

theorem blockedSlipsThrough_iff :
    BlockedSlipsThrough ctx machine envelope ↔ ∃ passed decision,
      (screen ctx envelope machine).result = .ok (.passed passed .blocked decision) ∧
        Unhindered ctx machine passed.text := by
  constructor
  · rintro ⟨module, admitted, decision, text, admits, answered, allows, lowered, overrides,
      unhindered⟩
    obtain ⟨passes, calls⟩ := admission_of_admits admits
    rw [← calls] at answered
    have evaluated := evaluateWasmPolicy_of_allow module answered allows overrides
    refine ⟨{ admitted with text }, some decision, ?_, unhindered⟩
    refine result_bind_ok.mpr ⟨_, passes, result_bind_ok.mpr ⟨_, evaluated, ?_⟩⟩
    rw [lowered]
    rfl
  · rintro ⟨passed, decided, passes, unhindered⟩
    obtain ⟨admission, admits, passes⟩ := result_bind_ok.mp passes
    cases admission with
    | answered reply => cases passes
    | admitted admitted policyTier =>
      have admitsIt := admits_of_admission admits
      obtain ⟨tier, calls⟩ := admission_of_admits admitsIt
      obtain ⟨-, rfl⟩ := Admission.admitted.inj (Except.ok.inj (admits.symm.trans tier))
      obtain ⟨⟨text, other, decided⟩, evaluated, passes⟩ := result_bind_ok.mp passes
      obtain ⟨rfl, rfl, -⟩ := Screening.passed.inj (Except.ok.inj passes)
      obtain ⟨module, decision, answered, allows, lowered, overrides⟩ :=
        blocked_of_evaluateWasmPolicy admitsIt.maySend.unblocked evaluated
      rw [calls] at answered
      exact ⟨module, admitted, decision, text, admitsIt, answered, allows, lowered, overrides,
        unhindered⟩

theorem not_getsNothing_of_slips (slips : BlockedSlipsThrough ctx machine envelope) :
    effectiveTier ctx envelope machine = .blocked ∧ ¬ GetsNothing ctx machine envelope := by
  obtain ⟨passed, decision, passes, unhindered⟩ := blockedSlipsThrough_iff.mp slips
  refine ⟨(tier_of_screen passes).symm, fun ⟨unrouted, idle⟩ => ?_⟩
  cases called : commandFor ctx passed.text with
  | none =>
    have verdict : verdictFor ctx passed .blocked decision = .queue ⟨passed, decision.elim
        (routeFor ctx passed .blocked) (routeFor ctx passed .blocked).applyWasmOverrides,
        none⟩ := by
      simp only [verdictFor, called]
    have routed := unrouted _ (triage_eq_queue.mpr ⟨passed, .blocked, decision, passes, verdict⟩)
    cases routed
  | some found =>
    obtain ⟨command, name, args⟩ := found
    obtain ⟨allowed, runs⟩ := unhindered command name args called
    by_cases bypass : command.bypassQueue = true
    · have bypassed := bypassed_mem_ingest passes
        (bypassFor_eq_some.mpr ⟨command, name, args, called, allowed, bypass, rfl⟩)
      exact idle _ bypassed trivial
    · have queued := queued_mem_ingest passes (verdictFor_of_command called allowed bypass)
        (runs.resolve_left bypass)
      exact idle _ queued trivial

/-- **Blocked senders.** A sender whose effective tier is blocked gets nothing, exactly when the
module does not block an admitted sender while it lets the message through. -/
theorem blocked_getsNothing_iff (ctx : ChannelContext) (machine : Machine)
    (envelope : ChannelEnvelope) :
    (effectiveTier ctx envelope machine = .blocked → GetsNothing ctx machine envelope) ↔
      ¬ BlockedSlipsThrough ctx machine envelope := by
  constructor
  · intro blocks slips
    obtain ⟨blocked, something⟩ := not_getsNothing_of_slips slips
    exact something (blocks blocked)
  · intro stopped blocked
    -- what has passed calls a command that stops at the gate or at the inbox
    have hindered : ∀ {passed trustTier decision},
        (screen ctx envelope machine).result = .ok (.passed passed trustTier decision) →
        ∃ command name args, commandFor ctx passed.text = some (command, name, args) ∧
          (¬ command.minTier.any (trustTier < ·) →
            ¬ (command.bypassQueue ∨ HasRoom ctx machine)) := by
      intro passed trustTier decision passes
      by_contra none
      push Not at none
      obtain rfl : trustTier = .blocked := (tier_of_screen passes).trans blocked
      exact stopped (blockedSlipsThrough_iff.mpr ⟨passed, decision, passes, none⟩)
    constructor
    · intro entry queued
      obtain ⟨passed, trustTier, decision, passes, verdict⟩ := triage_eq_queue.mp queued
      obtain ⟨command, name, args, called, _⟩ := hindered passes
      obtain ⟨plain, _⟩ | ⟨_, _, _, _, _, _, slash⟩ := verdictFor_eq_queue verdict
      · rw [plain] at called
        cases called
      · rw [slash]
        rfl
    · intro event member acts
      obtain ⟨passed, trustTier, decision, passes, done⟩ := acts_of_ingest member acts
      obtain ⟨command, name, args, called, refused⟩ := hindered passes
      rcases done with ⟨params, bypassed, _⟩ | ⟨entry, verdict, room, _⟩
      · obtain ⟨_, _, _, again, allowed, bypass, _⟩ := bypassFor_eq_some.mp bypassed
        obtain ⟨rfl, rfl, rfl⟩ : _ ∧ _ ∧ _ := by simpa using again.symm.trans called
        exact refused allowed (Or.inl bypass)
      · obtain ⟨plain, _⟩ | ⟨_, _, _, again, allowed, _, _⟩ := verdictFor_eq_queue verdict
        · rw [plain] at called
          cases called
        · obtain ⟨rfl, rfl, rfl⟩ : _ ∧ _ ∧ _ := by simpa using again.symm.trans called
          exact refused allowed (Or.inr room)

/-- A gateway whose policy module sets every sender to blocked, and allows the message. -/
def loweringContext : ChannelContext :=
  let plain := openContext [] fun _ => .ok ()
  { plain with
    config := { plain.config with hasWasmPolicyPlugin := true }
    surroundings :=
      { plain.surroundings with
        evaluate := fun _ _ _ => .ok ⟨true, none, some .blocked, none, none, none, none⟩ } }

/-- The message of a sender whom the module has set to blocked is queued and executed. -/
theorem lowered_sender_served :
    ¬ ∀ machine envelope, effectiveTier loweringContext envelope machine = .blocked →
      GetsNothing loweringContext machine envelope := by
  intro blocks
  have passes : (screen loweringContext (plainEnvelope "d-1" "hello") emptyRun.machine).result =
      .ok (.passed (plainEnvelope "d-1" "hello") .blocked
        (some ⟨true, none, some .blocked, none, none, none, none⟩)) := by
    decide +kernel
  have plain : commandFor loweringContext "hello" = none := by decide +kernel
  have slips : BlockedSlipsThrough loweringContext emptyRun.machine (plainEnvelope "d-1" "hello") :=
    blockedSlipsThrough_iff.mpr
      ⟨_, _, passes, fun _ _ _ called => absurd (plain.symm.trans called) nofun⟩
  obtain ⟨blocked, something⟩ := not_getsNothing_of_slips slips
  exact something (blocks _ _ blocked)

end KelvinClaw.Channel
