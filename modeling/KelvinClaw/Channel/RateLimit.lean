import KelvinClaw.Library.SlidingWindow
import KelvinClaw.Channel.Admission

/-!
# The rate limit of a channel

A sender may pass the policy of a channel only so often in a minute. The adapter keeps the times
of the passes in a window of the sender, drops what is too old when the sender comes back, and
saves the windows with its state before a message passes, so that a restart finds them.

A pass belongs to the time that the policy reads from the clock when it looks at the window.
-/

namespace KelvinClaw.Channel

open KelvinClaw.Core Systems Systems.Action Systems.TransitionSystem

/-! ### Operations that leave the windows alone -/

/-- The windows of an adapter, and the calls made so far. -/
structure Meter where
  windows : String → Option (List ℕ)
  calls : ℕ

/-- Later meters with the same windows. -/
instance : Preorder Meter where
  le a b := a.windows = b.windows ∧ a.calls ≤ b.calls
  le_refl a := ⟨rfl, Nat.le_refl _⟩
  le_trans a b c first second :=
    ⟨first.1.trans second.1, Nat.le_trans first.2 second.2⟩

def meter (machine : Machine) : Meter := ⟨machine.adapter.rateWindows, machine.calls⟩

def SavesWindows (v : Meter) (event : ChannelEvent) : Prop :=
  ∀ state, event = .saved state → state.rateWindows = v.windows

theorem antitone_savesWindows : Antitone SavesWindows :=
  fun _ _ later _ saves state saved => (saves state saved).trans later.1.symm

section Unmetered

variable (ctx : ChannelContext) {α β : Type}

abbrev Unmetered (act : ChannelAction α) : Prop := Advances meter SavesWindows act

variable {ctx}

theorem Unmetered.calls_le {act : ChannelAction α} (unmetered : Unmetered act) (machine : Machine) :
    machine.calls ≤ (act machine).state.calls :=
  (unmetered machine).1.2

theorem unmetered_bind {act : ChannelAction α} {next : α → ChannelAction β}
    (first : Unmetered act) (second : ∀ a, Unmetered (next a)) : Unmetered (act >>= next) :=
  advances_bind antitone_savesWindows first second

theorem unmetered_update {change : TextChannelAdapter → TextChannelAdapter}
    (same : ∀ adapter, (change adapter).rateWindows = adapter.rateWindows) :
    Unmetered (update change) :=
  advances_modify fun machine => ⟨(same machine.adapter).symm, Nat.le_refl _⟩

theorem unmetered_record (change : ChannelMetrics → ChannelMetrics) : Unmetered (record change) :=
  unmetered_update fun _ => rfl

theorem unmetered_readAdapter : Unmetered readAdapter :=
  unmetered_bind advances_get fun _ => advances_pure _

theorem unmetered_ask (call : Surroundings → ℕ → α) : Unmetered (ask ctx call) := by
  apply unmetered_bind advances_get
  intro machine
  refine unmetered_bind (advances_modify fun m => ?_) fun _ => advances_pure _
  exact ⟨rfl, Nat.le_succ m.calls⟩

theorem unmetered_log {event : ChannelEvent} (other : event.isSaved = false) :
    Unmetered (log event) := by
  apply advances_log
  rintro _ state rfl
  cases other

theorem unmetered_persistState : Unmetered (persistState ctx) := by
  intro s
  cases persists : ctx.statePersistence with
  | false =>
    rw [persistState_off persists]
    exact advances_pure () s
  | true =>
    have advanced : meter s ≤ meter { s with calls := s.calls + 1 } := ⟨rfl, Nat.le_succ _⟩
    cases saved : ctx.surroundings.save s.calls with
    | error err =>
      rw [persistState_failed persists saved]
      exact ⟨advanced, fun event member => by cases member⟩
    | ok done =>
      rw [persistState_saved persists saved]
      refine ⟨advanced, fun event member state written => ?_⟩
      obtain rfl := List.mem_singleton.mp member
      obtain rfl := ChannelEvent.saved.inj written
      rfl

theorem unmetered_enforcePairingPolicy (accountId : String) :
    Unmetered (enforcePairingPolicy ctx accountId) := by
  apply unmetered_bind unmetered_readAdapter
  intro adapter
  refine advances_ite (advances_pure _) (advances_ite (advances_pure _) ?_)
  split
  · exact advances_pure _
  · apply unmetered_bind (unmetered_ask _)
    intro now
    refine unmetered_bind (unmetered_update fun _ => rfl) fun _ => ?_
    apply unmetered_bind (advances_attempt unmetered_persistState)
    intro saved
    cases saved with
    | ok done => exact advances_pure _
    | error err => exact unmetered_bind (unmetered_update fun _ => rfl) fun _ => advances_fail _

theorem unmetered_approvePairing (code : String) : Unmetered (approvePairing ctx code) := by
  refine advances_ite (advances_fail _) (advances_ite (advances_fail _) ?_)
  apply unmetered_bind unmetered_readAdapter
  intro adapter
  split
  · exact advances_fail _
  · refine unmetered_bind (unmetered_update fun _ => rfl) fun _ => ?_
    apply unmetered_bind (unmetered_record _)
    intro _
    apply unmetered_bind (advances_attempt unmetered_persistState)
    intro saved
    cases saved with
    | ok done => exact advances_pure _
    | error err =>
      refine unmetered_bind (unmetered_update fun _ => rfl) fun _ => ?_
      exact unmetered_bind (unmetered_record _) fun _ => advances_fail _

theorem Steps.unmetered {act : ChannelAction α} (made : Steps ctx [.tracks, .acts] act) :
    Unmetered act := by
  refine made.advances antitone_savesWindows fun {β act} is => ?_
  have windows : ∀ {change : TextChannelAdapter → TextChannelAdapter},
      (∀ adapter, accountsOf (change adapter) = accountsOf adapter) → Unmetered (update change) :=
    fun accounts => unmetered_update fun adapter => congrArg (·.2.2) (accounts adapter)
  cases is with
  | get => exact advances_get
  | ask call => exact unmetered_ask call
  | tally accounts => exact windows accounts
  | save => exact unmetered_persistState
  | pair accountId => exact unmetered_enforcePairingPolicy accountId
  | approve code => exact unmetered_approvePairing code
  | rate among => simp at among
  | track _ accounts => exact windows accounts
  | logTracking _ tracks => exact unmetered_log (unsaved_of_tracking tracks)
  | queue _ accounts => exact windows accounts
  | logAct _ unsaved => exact unmetered_log unsaved

end Unmetered

/-! ### Ingestion around the policy -/

variable (ctx : ChannelContext)

/-- The part of `ingest` after the policy. -/
def afterAdmission (admission : Admission) : ChannelAction IngestReply := do
  let screening ← consult ctx admission
  let verdict ← settle ctx screening
  match verdict with
  | .answered reply => return reply
  | .queue entry =>
    enqueue ctx entry
    processInbox ctx entry.envelope.deliveryId

theorem ingest_eq (envelope : ChannelEnvelope) :
    ingest ctx envelope = admission ctx envelope >>= afterAdmission ctx := by
  simp only [ingest, receive, triage_eq, screen, Action.bind_assoc]
  congr 1
  funext admission
  congr 1
  funext screening
  congr 1
  funext verdict
  cases verdict with
  | answered reply => rfl
  | queue entry => simp only [Action.bind_assoc, Action.pure_bind]

theorem steps_afterAdmission {ctx : ChannelContext} {kinds : List StepKind}
    (tracks : .tracks ∈ kinds) (acts : .acts ∈ kinds) (admission : Admission) :
    Steps ctx kinds (afterAdmission ctx admission) := by
  refine .bind (steps_consult _) fun screening => ?_
  refine .bind (steps_settle tracks acts _) fun verdict => ?_
  cases verdict with
  | answered reply => exact .pure _
  | queue entry => exact .bind (steps_enqueue acts _) fun _ => steps_processInbox acts _

/-! ### Passes -/

/-- A message that passed the policy, at the time that the policy read. -/
structure Pass where
  senderId : String
  atMs : ℕ
  deriving DecidableEq, Repr

/-- The pass of an ingestion, when its message passes. -/
def passOf (envelope : ChannelEnvelope) (machine : Machine) : Option Pass :=
  match arrive ctx envelope machine with
  | ⟨.ok (.unanswered envelope), there, _⟩ =>
    match (enforcePolicy ctx envelope there).result with
    | .ok _ => some ⟨envelope.senderId, ctx.surroundings.nowMs there.calls⟩
    | .error _ => none
  | _ => none

def passesOf (machine : Machine) : Operation → List Pass
  | .ingest envelope => (passOf ctx envelope machine).toList
  | _ => []

/-- The number of lasting events of an operation up to the end of the policy. -/
def eventsToPass (machine : Machine) : Operation → ℕ
  | .ingest envelope => (admission ctx envelope machine).journal.length
  | _ => 0

def timesOf (passes : List Pass) (senderId : String) : List ℕ :=
  (passes.filter (·.senderId = senderId)).map Pass.atMs

section Times

variable {passes more : List Pass} {pass : Pass} {senderId : String}

theorem timesOf_append :
    timesOf (passes ++ more) senderId = timesOf passes senderId ++ timesOf more senderId := by
  simp only [timesOf, List.filter_append, List.map_append]

theorem timesOf_snoc_self :
    timesOf (passes ++ [pass]) pass.senderId = timesOf passes pass.senderId ++ [pass.atMs] := by
  rw [timesOf_append]
  simp [timesOf]

theorem timesOf_snoc_of_ne (other : pass.senderId ≠ senderId) :
    timesOf (passes ++ [pass]) senderId = timesOf passes senderId := by
  rw [timesOf_append]
  simp [timesOf, other]

end Times

/-! ### Windows that cover the passes -/

def CoversAll (now : ℕ) (windows : String → Option (List ℕ)) (passes : List Pass) : Prop :=
  ∀ senderId, Covers rateWindowMs now ((windows senderId).getD []) (timesOf passes senderId)

/-- So do the windows on disk, when there is a state directory. Without a snapshot nothing has
passed. -/
def DiskCovers (now : ℕ) (passes : List Pass) (ledger : Ledger) : Prop :=
  ctx.statePersistence = true →
    match ledger.disk with
    | none => passes = []
    | some state => CoversAll now state.rateWindows passes

def QuotasKept (passes : List Pass) : Prop :=
  ∀ senderId, WithinQuota rateWindowMs
    (ctx.config.policy.quotaPerMinute (tierFromPolicy ctx.config.policy senderId))
    (timesOf passes senderId)

/-- The windows of a machine cover the passes, those on disk the first ones of them, and the
quotas are kept. -/
structure Metered (now : ℕ) (saved passes : List Pass) (machine : Machine) (ledger : Ledger) :
    Prop where
  memory : CoversAll now machine.adapter.rateWindows passes
  disk : DiskCovers ctx now saved ledger
  quotas : QuotasKept ctx passes
  earlier : saved <+: passes

section Covering

variable {ctx} {now after : ℕ} {saved passes more : List Pass} {machine t : Machine}
  {ledger : Ledger} {windows : String → Option (List ℕ)}

theorem CoversAll.later (covers : CoversAll now windows passes) (passed : now ≤ after) :
    CoversAll after windows passes :=
  fun senderId => (covers senderId).later passed

theorem CoversAll.of_append (covers : CoversAll now windows (passes ++ more)) :
    CoversAll now windows passes := by
  intro senderId
  have all := covers senderId
  rw [timesOf_append] at all
  exact all.of_append

theorem DiskCovers.later (covers : DiskCovers ctx now passes ledger) (passed : now ≤ after) :
    DiskCovers ctx after passes ledger := by
  intro persists
  have onDisk := covers persists
  cases disk : ledger.disk with
  | none =>
    rw [disk] at onDisk
    exact onDisk
  | some state =>
    rw [disk] at onDisk
    exact onDisk.later passed

theorem DiskCovers.of_append (covers : DiskCovers ctx now (passes ++ more) ledger) :
    DiskCovers ctx now passes ledger := by
  intro persists
  have onDisk := covers persists
  cases disk : ledger.disk with
  | none =>
    rw [disk] at onDisk
    exact (List.append_eq_nil_iff.mp onDisk).1
  | some state =>
    rw [disk] at onDisk
    exact CoversAll.of_append onDisk

theorem diskCovers_saved {state : PersistedChannelState}
    (covers : CoversAll now state.rateWindows passes) :
    DiskCovers ctx now passes (ledger.record (.saved state)) :=
  fun _ => covers

theorem DiskCovers.record (covers : DiskCovers ctx now passes ledger) {event : ChannelEvent}
    (saves : ∀ state, event = .saved state → CoversAll now state.rateWindows passes) :
    DiskCovers ctx now passes (ledger.record event) := by
  cases event with
  | saved state => exact diskCovers_saved (saves state rfl)
  | _ => exact covers

theorem Metered.later (metered : Metered ctx now saved passes machine ledger)
    (passed : now ≤ after) : Metered ctx after saved passes machine ledger :=
  ⟨metered.memory.later passed, metered.disk.later passed, metered.quotas, metered.earlier⟩

theorem Metered.forget (metered : Metered ctx now saved passes machine ledger) :
    Metered ctx now saved saved machine ledger := by
  obtain ⟨memory, disk, quotas, more, rfl⟩ := metered
  refine ⟨memory.of_append, disk, fun senderId => ?_, List.prefix_refl _⟩
  have all := quotas senderId
  rw [timesOf_append] at all
  exact all.of_append

theorem wp_of_unmetered {α : Type} {act : ChannelAction α} (unmetered : Unmetered act)
    (metered : Metered ctx now saved passes machine ledger) :
    wp Ledger.record (DiskCovers ctx now saved) act
      (fun _ t after => machine.calls ≤ t.calls ∧ Metered ctx now saved passes t after)
      machine ledger := by
  have kept : wp Ledger.record (DiskCovers ctx now saved) act
      (fun _ t after => meter machine ≤ meter t ∧ DiskCovers ctx now saved after)
      machine ledger := by
    apply unmetered.wp _ metered.disk
    intro before event covers saves
    apply covers.record
    intro state written
    rw [saves state written]
    obtain ⟨more, rfl⟩ := metered.earlier
    exact metered.memory.of_append
  apply kept.mono
  intro result t after _ ⟨⟨same, further⟩, disk⟩
  have windows : machine.adapter.rateWindows = t.adapter.rateWindows := same
  exact ⟨further, windows ▸ metered.memory, disk, metered.quotas, metered.earlier⟩

/-! ### The policy -/

theorem coversAll_pass {senderId : String} (covers : CoversAll now windows passes) :
    CoversAll now
      (Function.update windows senderId
        (some (pruneWindow now ((windows senderId).getD []) ++ [now])))
      (passes ++ [⟨senderId, now⟩]) := by
  intro other
  by_cases same : senderId = other
  · subst same
    rw [Function.update_self, @timesOf_snoc_self passes ⟨senderId, now⟩]
    exact (covers senderId).dropOld.pass
  · rw [Function.update_of_ne (Ne.symm same), timesOf_snoc_of_ne same]
    exact covers other

theorem coversAll_prune {senderId : String} (covers : CoversAll now windows passes) :
    CoversAll now
      (Function.update windows senderId (some (pruneWindow now ((windows senderId).getD []))))
      passes := by
  intro other
  by_cases same : senderId = other
  · subst same
    rw [Function.update_self]
    exact (covers senderId).dropOld
  · rw [Function.update_of_ne (Ne.symm same)]
    exact covers other

theorem quotasKept_pass {senderId : String} (quotas : QuotasKept ctx passes)
    (covers : CoversAll now windows passes)
    (room : (pruneWindow now ((windows senderId).getD [])).length <
      ctx.config.policy.quotaPerMinute (tierFromPolicy ctx.config.policy senderId)) :
    QuotasKept ctx (passes ++ [⟨senderId, now⟩]) := by
  intro other
  by_cases same : senderId = other
  · subst same
    rw [@timesOf_snoc_self passes ⟨senderId, now⟩]
    exact (quotas senderId).pass (covers senderId).dropOld room
  · rw [timesOf_snoc_of_ne same]
    exact quotas other

/-- What the rate limit lets through is in memory, and not yet on disk. -/
theorem wp_enforceRateLimit {senderId : String}
    (metered : Metered ctx (ctx.surroundings.nowMs machine.calls) passes passes machine ledger) :
    wp Ledger.record (DiskCovers ctx (ctx.surroundings.nowMs machine.calls) passes)
      (enforceRateLimit ctx senderId (tierFromPolicy ctx.config.policy senderId))
      (fun result t after => machine.calls ≤ t.calls ∧ match result with
        | .ok _ => Metered ctx (ctx.surroundings.nowMs machine.calls) passes
            (passes ++ [⟨senderId, ctx.surroundings.nowMs machine.calls⟩]) t after
        | .error _ => Metered ctx (ctx.surroundings.nowMs machine.calls) passes passes t after)
      machine ledger := by
  obtain ⟨memory, disk, quotas, _⟩ := metered
  simp only [enforceRateLimit, setRateWindow, wp_bind, wp_ask, wp_readAdapter, wp_update]
  refine ⟨disk, disk, disk, ?_⟩
  split
  · simp only [wp_bind, record, wp_update, wp_fail]
    exact ⟨disk, disk, Nat.le_succ _, coversAll_prune memory, disk, quotas, List.prefix_refl _⟩
  · next room =>
    simp only [wp_update, Function.update_idem]
    exact ⟨disk, Nat.le_succ _, coversAll_pass memory, disk,
      quotasKept_pass quotas memory (Nat.lt_of_not_le room), List.prefix_append _ _⟩

theorem wp_persistState_metered (metered : Metered ctx now saved passes machine ledger) :
    wp Ledger.record (DiskCovers ctx now saved) (persistState ctx)
      (fun result t after => machine.calls ≤ t.calls ∧ match result with
        | .ok _ => Metered ctx now passes passes t after
        | .error _ => Metered ctx now saved passes t after) machine ledger := by
  obtain ⟨memory, disk, quotas, earlier⟩ := metered
  unfold wp
  cases persists : ctx.statePersistence with
  | false =>
    rw [persistState_off persists]
    refine ⟨by simpa using disk, Nat.le_refl _, memory, ?_, quotas, List.prefix_refl _⟩
    exact fun on => absurd (persists.symm.trans on) nofun
  | true =>
    cases saves : ctx.surroundings.save machine.calls with
    | error err =>
      rw [persistState_failed persists saves]
      exact ⟨by simpa using disk, Nat.le_succ _, memory, disk, quotas, earlier⟩
    | ok done =>
      rw [persistState_saved persists saves]
      have onDisk : DiskCovers ctx now passes
          (ledger.record (.saved machine.adapter.snapshotState)) := diskCovers_saved memory
      refine ⟨fun events => ?_, Nat.le_succ _, memory, onDisk, quotas, List.prefix_refl _⟩
      cases events with
      | zero => exact disk
      | succ more =>
        obtain ⟨others, rfl⟩ := earlier
        have saved : DiskCovers ctx now saved
            (ledger.record (.saved machine.adapter.snapshotState)) :=
          diskCovers_saved memory.of_append
        simpa using saved

variable (ctx) in
/-- What the policy leaves: one more pass, in memory and on disk, or the passes so far. -/
def Judged (now : ℕ) (passes : List Pass) (pass : Pass) (calls : ℕ) :
    Except KelvinError SenderTrustTier → Machine → Ledger → Prop
  | .ok _, t, after =>
    calls ≤ t.calls ∧ Metered ctx now (passes ++ [pass]) (passes ++ [pass]) t after
  | .error _, t, after => calls ≤ t.calls ∧ Metered ctx now passes passes t after

theorem wp_denyByPolicy_metered {pass : Pass} (message : String)
    (metered : Metered ctx now passes passes machine ledger) :
    wp Ledger.record (DiskCovers ctx now passes) (denyByPolicy message)
      (Judged ctx now passes pass machine.calls) machine ledger := by
  simp only [denyByPolicy, record, wp_bind, wp_update, wp_fail]
  exact ⟨metered.disk, metered.disk, Nat.le_refl _, metered.memory, metered.disk,
    metered.quotas, metered.earlier⟩

theorem wp_persistState_judged {pass : Pass} {calls : ℕ} {trustTier : SenderTrustTier}
    (further : calls ≤ machine.calls)
    (charged : Metered ctx now passes (passes ++ [pass]) machine ledger) :
    wp Ledger.record (DiskCovers ctx now passes)
      (do persistState ctx; return trustTier)
      (Judged ctx now passes pass calls) machine ledger := by
  apply wp_bind.mpr
  apply (wp_persistState_metered charged).mono
  intro saved t after covers ⟨again, holds⟩
  cases saved with
  | error err => exact ⟨further.trans again, holds.forget⟩
  | ok done => exact wp_pure.mpr ⟨covers, further.trans again, holds⟩

/-- **The policy** keeps the windows covering, in memory and on disk, and the quotas. What it
lets pass is a pass at the time that it read. -/
theorem wp_enforcePolicy_metered (envelope : ChannelEnvelope)
    (metered : Metered ctx (ctx.surroundings.nowMs machine.calls) passes passes machine ledger) :
    wp Ledger.record (DiskCovers ctx (ctx.surroundings.nowMs machine.calls) passes)
      (enforcePolicy ctx envelope)
      (Judged ctx (ctx.surroundings.nowMs machine.calls) passes
        ⟨envelope.senderId, ctx.surroundings.nowMs machine.calls⟩ machine.calls)
      machine ledger := by
  unfold enforcePolicy
  dsimp only
  split_ifs
  · exact wp_denyByPolicy_metered _ metered
  · exact wp_denyByPolicy_metered _ metered
  · exact wp_denyByPolicy_metered _ metered
  · -- a sender on probation is also held to the cooldown
    apply wp_bind.mpr
    apply (wp_enforceRateLimit metered).mono
    intro limited t after _ ⟨further, holds⟩
    cases limited with
    | error err => exact ⟨further, holds⟩
    | ok done =>
      apply wp_bind.mpr
      apply (wp_of_unmetered (steps_enforceCooldown _).unmetered holds).mono
      intro cooled u later _ ⟨again, charged⟩
      cases cooled with
      | error err => exact ⟨further.trans again, charged.forget⟩
      | ok done => exact wp_persistState_judged (further.trans again) charged
  · apply wp_bind.mpr
    apply (wp_enforceRateLimit metered).mono
    intro limited t after _ ⟨further, holds⟩
    cases limited with
    | error err => exact ⟨further, holds⟩
    | ok done => exact wp_persistState_judged further holds

end Covering

/-! ### Operations -/

section Operations

variable {ctx} {now : ℕ} {passes : List Pass} {machine : Machine} {ledger : Ledger}

theorem wp_admission_metered {envelope : ChannelEnvelope}
    (reads : ctx.surroundings.nowMs (arrive ctx envelope machine).state.calls = now)
    (metered : Metered ctx now passes passes machine ledger) :
    wp Ledger.record (DiskCovers ctx now passes) (admission ctx envelope)
      (fun _ t after => (arrive ctx envelope machine).state.calls ≤ t.calls ∧
        Metered ctx now (passes ++ (passOf ctx envelope machine).toList)
          (passes ++ (passOf ctx envelope machine).toList) t after) machine ledger := by
  obtain ⟨always, _, arrived⟩ := wp_of_unmetered (steps_arrive envelope).unmetered metered
  refine wp_bind.mpr ⟨always, ?_⟩
  have unpassed : passes ++ (none : Option Pass).toList = passes := List.append_nil passes
  cases ran : arrive ctx envelope machine with
  | mk result there log =>
    rw [ran] at reads arrived
    cases result with
    | error err =>
      simp only [passOf, ran, unpassed]
      exact ⟨Nat.le_refl _, arrived⟩
    | ok arrival =>
      cases arrival with
      | answered reply =>
        simp only [passOf, ran, unpassed]
        exact wp_pure.mpr ⟨arrived.disk, Nat.le_refl _, arrived⟩
      | unanswered normalized =>
        subst reads
        obtain ⟨within, atEnd⟩ := wp_enforcePolicy_metered normalized arrived
        simp only [passOf, ran]
        refine wp_bind.mpr ⟨within, ?_⟩
        cases judged : (enforcePolicy ctx normalized there).result with
        | error err =>
          rw [judged] at atEnd
          simp only [unpassed]
          exact atEnd
        | ok trustTier =>
          rw [judged] at atEnd
          have covers := within (enforcePolicy ctx normalized there).journal.length
          rw [List.take_length] at covers
          exact wp_pure.mpr ⟨covers, atEnd⟩

variable (ctx) in
/-- An operation that leaves these passes, with windows that cover them in memory and on disk at
a time that has come, and on disk as soon as it has come so far. -/
def MeteredBy {α : Type} (passes more : List Pass) (eventsToPass : ℕ) (ledger : Ledger)
    (outcome : Outcome Machine ChannelEvent KelvinError α) : Prop :=
  ∃ now, now ≤ ctx.surroundings.nowMs outcome.state.calls ∧
    Metered ctx now (passes ++ more) (passes ++ more) outcome.state
      (outcome.journal.foldl Ledger.record ledger) ∧
    (∀ events, DiskCovers ctx now passes
      ((outcome.journal.take events).foldl Ledger.record ledger)) ∧
    ∀ events, eventsToPass ≤ events → DiskCovers ctx now (passes ++ more)
      ((outcome.journal.take events).foldl Ledger.record ledger)

variable (monotone : Monotone ctx.surroundings.nowMs)
  (metered : Metered ctx now passes passes machine ledger)
  (come : now ≤ ctx.surroundings.nowMs machine.calls)
include monotone metered come

theorem meteredBy_of_unmetered {α : Type} {act : ChannelAction α} (unmetered : Unmetered act) :
    MeteredBy ctx passes [] 0 ledger (act machine) := by
  obtain ⟨always, further, after⟩ := wp_of_unmetered unmetered metered
  refine ⟨now, come.trans (monotone further), ?_, always, fun events _ => ?_⟩
  · rwa [List.append_nil]
  · rw [List.append_nil]
    exact always events

omit metered come in
theorem meteredBy_bind {α β : Type} {act : ChannelAction α} {next : α → ChannelAction β}
    {more : List Pass} (come : now ≤ ctx.surroundings.nowMs (act machine).state.calls)
    (always : ∀ events, DiskCovers ctx now passes
      (((act machine).journal.take events).foldl Ledger.record ledger))
    (passed : Metered ctx now (passes ++ more) (passes ++ more) (act machine).state
      ((act machine).journal.foldl Ledger.record ledger))
    (unmetered : ∀ a, Unmetered (next a)) :
    MeteredBy ctx passes more (act machine).journal.length ledger ((act >>= next) machine) := by
  cases ran : (act machine).result with
  | error err =>
    rw [bind_apply_of_error ran]
    refine ⟨now, come, passed, always, fun events enough => ?_⟩
    rw [List.take_of_length_le enough]
    exact passed.disk
  | ok a =>
    rw [bind_apply_of_result ran]
    obtain ⟨rest, beyond, after⟩ := wp_of_unmetered (unmetered a) passed
    have later : now ≤ ctx.surroundings.nowMs (next a (act machine).state).state.calls :=
      come.trans (monotone beyond)
    refine ⟨now, later, ?_, fun events => ?_, fun events enough => ?_⟩
    · rw [List.foldl_append]
      exact after
    · rw [List.take_append, List.foldl_append]
      by_cases early : events ≤ (act machine).journal.length
      · rw [Nat.sub_eq_zero_of_le early]
        exact always events
      · rw [List.take_of_length_le (Nat.le_of_not_le early)]
        exact (rest _).of_append
    · rw [List.take_append, List.take_of_length_le enough, List.foldl_append]
      exact rest _

theorem meteredBy_ingest (envelope : ChannelEnvelope) :
    MeteredBy ctx passes (passOf ctx envelope machine).toList
      (admission ctx envelope machine).journal.length ledger (ingest ctx envelope machine) := by
  have unmetered : Unmetered (arrive ctx envelope) := (steps_arrive envelope).unmetered
  have further := unmetered.calls_le machine
  obtain ⟨read, reads⟩ : ∃ read,
      ctx.surroundings.nowMs (arrive ctx envelope machine).state.calls = read := ⟨_, rfl⟩
  have atRead : Metered ctx read passes passes machine ledger :=
    metered.later (come.trans ((monotone further).trans reads.le))
  obtain ⟨always, onward, admitted⟩ := wp_admission_metered reads atRead
  rw [ingest_eq]
  exact meteredBy_bind monotone (reads.ge.trans (monotone onward)) always admitted
    fun admission => (steps_afterAdmission (by simp) (by simp) admission).unmetered

omit monotone metered come in
theorem MeteredBy.discard {α : Type} {act : ChannelAction α} {more : List Pass} {enough : ℕ}
    (meteredBy : MeteredBy ctx passes more enough ledger (act machine)) :
    MeteredBy ctx passes more enough ledger ((do let _ ← act) machine) := by
  obtain ⟨now, come, metered, always, atPass⟩ := meteredBy
  have state := state_bind_pure act (fun _ => ()) machine
  have journal := journal_bind_pure act (fun _ => ()) machine
  refine ⟨now, ?_, ?_, ?_, ?_⟩
  · rwa [state]
  · rwa [state, journal]
  · rwa [journal]
  · rwa [journal]

theorem meteredBy_perform (operation : Operation) :
    MeteredBy ctx passes (passesOf ctx machine operation) (eventsToPass ctx machine operation)
      ledger (perform ctx operation machine) := by
  cases operation with
  | ingest envelope => exact (meteredBy_ingest monotone metered come envelope).discard
  | approvePairing code =>
    exact (meteredBy_of_unmetered monotone metered come (unmetered_approvePairing code)).discard
  | recordWebhookVerified statusCode retryHint =>
    exact meteredBy_of_unmetered monotone metered come
      (steps_recordWebhookVerified statusCode retryHint).unmetered
  | recordWebhookDenied statusCode retryHint reason =>
    exact meteredBy_of_unmetered monotone metered come
      (steps_recordWebhookDenied statusCode retryHint reason).unmetered
  | deliverOutboundMessage accountId text =>
    exact meteredBy_of_unmetered monotone metered come
      (steps_deliverOutboundMessage accountId text).unmetered

end Operations

/-! ### Runs -/

/-- A run of an adapter with the passes so far. -/
structure MeteredRun where
  run : AdapterRun
  passes : List Pass

/-- The passes of a step. An operation that is cut before the end of the policy has none. -/
def passesDuring (machine : Machine) : RunEvent → List Pass
  | .completed operation => passesOf ctx machine operation
  | .crashed operation events =>
    if eventsToPass ctx machine operation ≤ events then passesOf ctx machine operation else []

def meteredRuns : TransitionSystem MeteredRun RunEvent where
  init s := (channelRuns ctx).init s.run ∧ s.passes = []
  step s event := ((channelRuns ctx).step s.run event).map fun run =>
    ⟨run, s.passes ++ passesDuring ctx s.run.machine event⟩

def Reloads (_ : MeteredRun) : RunEvent → Prop
  | .completed _ => True
  | .crashed .. => ctx.statePersistence = true

section Runs

variable {ctx} {passes : List Pass} {ledger : Ledger} {s : MeteredRun}

theorem window_applyPersistedState (policy : ChannelPolicy) (now : ℕ)
    (state : PersistedChannelState) (senderId : String) :
    ((applyPersistedState policy now state).rateWindows senderId).getD [] =
      pruneWindow now ((state.rateWindows senderId).getD []) := by
  simp only [applyPersistedState]
  cases state.rateWindows senderId with
  | none => rfl
  | some kept =>
    by_cases empty : pruneWindow now kept = []
    · simp [Option.filter, empty]
    · simp [Option.filter, empty]

theorem metered_restart (monotone : Monotone ctx.surroundings.nowMs)
    (persists : ctx.statePersistence = true) {now calls : ℕ}
    (come : now ≤ ctx.surroundings.nowMs calls) (covers : DiskCovers ctx now passes ledger)
    (quotas : QuotasKept ctx passes) (forgotten : List String) :
    ∃ now, now ≤ ctx.surroundings.nowMs (restart ctx ledger.disk calls).calls ∧
      Metered ctx now passes passes (restart ctx ledger.disk calls)
        { ledger with forgotten := forgotten } := by
  have onDisk := covers persists
  cases disk : ledger.disk with
  | none =>
    rw [disk] at onDisk
    subst onDisk
    refine ⟨now, come, fun senderId => covers_nil, fun _ => ?_, quotas, List.prefix_refl _⟩
    simp only
  | some state =>
    rw [disk] at onDisk
    have covered : CoversAll now state.rateWindows passes := onDisk
    refine ⟨ctx.surroundings.nowMs calls, monotone (Nat.le_succ calls), fun senderId => ?_,
      fun _ => ?_, quotas, List.prefix_refl _⟩
    · have window := window_applyPersistedState ctx.config.policy
        (ctx.surroundings.nowMs calls) state senderId
      simp only [restart, window]
      exact (covered.later come senderId).dropOld
    · simp only
      exact covered.later come

theorem metered_of_reachable (monotone : Monotone ctx.surroundings.nowMs)
    (reached : (meteredRuns ctx).ReachableWhen (Reloads ctx) s) :
    ∃ now, now ≤ ctx.surroundings.nowMs s.run.machine.calls ∧
      Metered ctx now s.passes s.passes s.run.machine s.run.ledger := by
  refine reached.invariant (fun s => ∃ now, now ≤ ctx.surroundings.nowMs s.run.machine.calls ∧
      Metered ctx now s.passes s.passes s.run.machine s.run.ledger) ?_ ?_
  · rintro s ⟨⟨_, blank⟩, none⟩
    refine ⟨_, Nat.le_refl _, ?_⟩
    rw [none]
    refine ⟨fun _ => covers_nil, fun _ => ?_, fun _ => withinQuota_nil, List.prefix_refl _⟩
    rw [blank]
    rfl
  · rintro ⟨run, passes⟩ event t ⟨now, come, metered⟩ reloads moves
    cases event with
    | completed operation =>
      obtain rfl := Option.some_inj.mp moves
      obtain ⟨after, has, holds, _⟩ := meteredBy_perform monotone metered come operation
      exact ⟨after, has, holds⟩
    | crashed operation events =>
      obtain rfl := Option.some_inj.mp moves
      obtain ⟨after, has, holds, always, atPass⟩ :=
        meteredBy_perform monotone metered come operation
      simp only [passesDuring]
      split_ifs with enough
      · exact metered_restart monotone reloads has (atPass events enough) holds.quotas _
      · rw [List.append_nil]
        have quotas : QuotasKept ctx passes := by
          intro senderId
          have all := holds.quotas senderId
          rw [timesOf_append] at all
          exact all.of_append
        exact metered_restart monotone reloads has (always events) quotas _

/-- **The rate limit.** In every run of an adapter under a clock that does not go back, with
crashes after which the state is reloaded, the passes of a sender within any minute are at most
the quota of the sender's tier. -/
theorem passes_le_quota (ctx : ChannelContext) (monotone : Monotone ctx.surroundings.nowMs)
    {s : MeteredRun} (reached : (meteredRuns ctx).ReachableWhen (Reloads ctx) s)
    (senderId : String) (start : ℕ) :
    s.passes.countP (fun pass => pass.senderId = senderId ∧ start ≤ pass.atMs ∧
        pass.atMs ≤ start + rateWindowMs) ≤
      ctx.config.policy.quotaPerMinute (tierFromPolicy ctx.config.policy senderId) := by
  obtain ⟨_, _, metered⟩ := metered_of_reachable monotone reached
  have within := metered.quotas senderId start
  rw [timesOf, List.countP_map, List.countP_filter] at within
  apply Nat.le_trans (Nat.le_of_eq _) within
  apply List.countP_congr
  intro pass _
  simp [and_comm]

end Runs

instance (ctx : ChannelContext) (s : MeteredRun) (event : RunEvent) :
    Decidable (Reloads ctx s event) :=
  match event with
  | .completed _ => .isTrue trivial
  | .crashed .. => inferInstanceAs (Decidable (_ = true))

/-- Two messages pass before a restart and one after it, all within the quota of the sender. -/
theorem passes_around_restart : ∃ s : MeteredRun,
    s.passes.countP (fun pass => pass.senderId = "user-1" ∧ 1000 ≤ pass.atMs ∧
      pass.atMs ≤ 1000 + rateWindowMs) = 3 ∧
    3 ≤ (openContext [] fun _ => .ok ()).config.policy.quotaPerMinute .standard := by
  have monotone : Monotone (openContext [] fun _ => .ok ()).surroundings.nowMs :=
    fun _ _ later => Nat.add_le_add_left later 1000
  have ran : ((meteredRuns (openContext [] fun _ => .ok ())).run?
      (Reloads (openContext [] fun _ => .ok ())) ⟨emptyRun, []⟩
      [.completed (.ingest (plainEnvelope "m-1" "hello")),
        .crashed (.ingest (plainEnvelope "m-2" "hello again")) 3,
        .completed (.ingest (plainEnvelope "m-3" "still here"))]).map (·.passes.countP fun pass =>
          pass.senderId = "user-1" ∧ 1000 ≤ pass.atMs ∧ pass.atMs ≤ 1000 + rateWindowMs) =
      some 3 := by
    decide +kernel
  have starts : (meteredRuns (openContext [] fun _ => .ok ())).init ⟨emptyRun, []⟩ :=
    ⟨emptyRun_starts _, rfl⟩
  obtain ⟨s, reached, seen⟩ := exists_of_run? (.init starts) ran
  have bound := passes_le_quota _ monotone reached "user-1" 1000
  rw [seen] at bound
  exact ⟨s, seen, bound⟩

end KelvinClaw.Channel
