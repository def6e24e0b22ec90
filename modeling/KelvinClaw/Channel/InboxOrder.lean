import KelvinClaw.Channel.Admission

/-!
# The order of the inbox

An entry of the inbox is taken, the state is saved, and the entry is executed. The inbox has lost
an entry when this save fails: the entry is neither in the inbox nor executed, while `process_inbox`
returns. All other failures leave their entries in the inbox or come after the execution began.

The loop of `process_inbox` is followed one turn at a time here.
-/

namespace KelvinClaw.Channel

open KelvinClaw.Core Systems Systems.Action

/-! ### The ledger of the inbox -/

/-- The entries pushed to the inbox and those handed to `execute_entry`, in order, and the entry
that was taken last and not handed on. -/
structure InboxLedger where
  pushed : List QueuedEnvelope
  handed : List QueuedEnvelope
  taken : Option QueuedEnvelope

/-- Executions of the inbox log a command that is dispatched or a run that is submitted. -/
def InboxLedger.record (ledger : InboxLedger) : ChannelEvent → InboxLedger
  | .queued entry => { ledger with pushed := ledger.pushed ++ [entry] }
  | .taken entry => { ledger with taken := some entry }
  | .dispatched _ _ | .submitted _ _ =>
    { ledger with handed := ledger.handed ++ ledger.taken.toList, taken := none }
  | .saved _ | .tracked _ | .forgotten _ | .bypassed _ _ => ledger

def Balanced (inbox : List QueuedEnvelope) (ledger : InboxLedger) : Prop :=
  ledger.pushed = ledger.handed ++ inbox

def Settled (inbox : List QueuedEnvelope) (ledger : InboxLedger) : Prop :=
  Balanced inbox ledger ∧ ledger.taken = none

/-! ### Events beside the inbox -/

section Beside

/-- An event that concerns neither the inbox nor its executions. -/
def Beside : ChannelEvent → Prop
  | .saved _ | .tracked _ | .forgotten _ | .bypassed .. => True
  | .queued _ | .taken _ | .dispatched .. | .submitted .. => False

def inboxOf (machine : Machine) : List QueuedEnvelope := machine.adapter.inbox

abbrev LeavesInbox {α : Type} (act : ChannelAction α) : Prop :=
  Frames inboxOf (fun _ => Beside) act

abbrev KeepsSettled {α : Type} (act : ChannelAction α) : Prop :=
  Keeps InboxLedger.record (fun _ => True) (fun s ledger => Settled (inboxOf s) ledger) act

variable {ctx : ChannelContext} {α : Type} {act : ChannelAction α}

theorem record_of_beside {event : ChannelEvent} (beside : Beside event) (ledger : InboxLedger) :
    ledger.record event = ledger := by
  cases event with
  | saved _ | tracked _ | forgotten _ | bypassed _ _ => rfl
  | queued _ | taken _ | dispatched _ _ | submitted _ _ => exact beside.elim

theorem leavesInbox_of_tidy (tidy : Tidy act) : LeavesInbox act := by
  apply Frames.mono tidy id
  intro v event tidies
  cases event with
  | saved _ | tracked _ | forgotten _ => trivial
  | _ => exact tidies.elim

theorem leavesInbox_of_quiet (quiet : Quiet ctx act) : LeavesInbox act :=
  leavesInbox_of_tidy (tidy_of_quiet quiet)

theorem keepsSettled_of_leavesInbox (leaves : LeavesInbox act) : KeepsSettled act := by
  refine keeps_of_frames (fun _ _ => Iff.rfl) leaves ?_ fun _ _ _ => trivial
  intro inbox ledger event settled beside
  rwa [record_of_beside beside]

theorem leavesInbox_triage (envelope : ChannelEnvelope) : LeavesInbox (triage ctx envelope) := by
  rw [triage_eq]
  apply frames_bind (leavesInbox_of_quiet (steps_screen (by simp) _).quiet)
  intro screening
  cases screening with
  | answered reply => exact frames_pure _
  | passed envelope trustTier decision =>
    have tracks : LeavesInbox (trackDeliveryId ctx envelope.deliveryId) :=
      leavesInbox_of_tidy (steps_trackDeliveryId (by simp) _).tidy
    rw [settle]
    split
    · apply frames_bind tracks
      intro _
      refine frames_ite ?_ (frames_ite ?_ (frames_pure _))
      · apply frames_bind (leavesInbox_of_quiet (steps_attemptSend _ _).quiet)
        exact fun _ => frames_pure _
      · apply frames_bind (frames_log fun _ => trivial)
        intro _
        apply frames_bind (leavesInbox_of_quiet (quiet_ask _))
        intro result
        apply frames_bind (leavesInbox_of_quiet (steps_attemptSend _ _).quiet)
        exact fun _ => frames_pure _
    · exact frames_bind tracks fun _ => frames_pure _

end Beside

/-! ### What is pushed, and what is handed on -/

section Moves

variable {ctx : ChannelContext} {s : Machine} {ledger : InboxLedger}

theorem keepsSettled_enqueue (entry : QueuedEnvelope) : KeepsSettled (enqueue ctx entry) := by
  intro s ledger settled
  refine wp_bind.mpr (wp_readAdapter.mpr ⟨trivial, ?_⟩)
  simp only
  split
  · exact keepsSettled_of_leavesInbox (leavesInbox_of_quiet quiet_rejectFull) s ledger settled
  · refine wp_bind.mpr ?_
    apply (keepsSettled_of_leavesInbox (leavesInbox_of_quiet (@quiet_record ctx _)) s ledger
      settled).mono
    intro result t after _ settled
    cases result with
    | error err => exact settled
    | ok done =>
      refine wp_bind.mpr (wp_update.mpr ⟨trivial, ?_⟩)
      refine wp_bind.mpr (wp_log.mpr ⟨⟨trivial, trivial⟩, ?_⟩)
      apply keepsSettled_of_leavesInbox (leavesInbox_of_quiet quiet_persistState)
      obtain ⟨balanced, none⟩ := settled
      refine ⟨?_, none⟩
      rw [Balanced] at balanced
      simp only [Balanced, InboxLedger.record, balanced, List.append_assoc, inboxOf]

theorem keepsSettled_receive (envelope : ChannelEnvelope) :
    KeepsSettled (receive ctx envelope) := by
  apply keeps_bind (keepsSettled_of_leavesInbox (leavesInbox_triage envelope))
  intro verdict
  cases verdict with
  | answered reply => exact keepsSettled_of_leavesInbox (frames_pure _)
  | queue entry =>
    apply keeps_bind (keepsSettled_enqueue entry)
    exact fun _ => keepsSettled_of_leavesInbox (frames_pure _)

def execution (ctx : ChannelContext) (entry : QueuedEnvelope) : ChannelEvent :=
  match entry.slashCommand with
  | some slash =>
    .dispatched entry.envelope.deliveryId ⟨slash.commandName, slash.args, slash.sessionId⟩
  | none => .submitted entry.envelope.deliveryId (runRequest ctx entry)

theorem executeEntry_eq (entry : QueuedEnvelope) : ∃ rest : ChannelAction IngestReply,
    LeavesInbox rest ∧ executeEntry ctx entry = log (execution ctx entry) >>= fun _ => rest := by
  unfold executeEntry execution
  cases entry.slashCommand with
  | some slash =>
    refine ⟨_, ?_, rfl⟩
    apply frames_bind (leavesInbox_of_quiet (quiet_ask _))
    intro result
    apply frames_bind (leavesInbox_of_quiet (steps_attemptSend _ _).quiet)
    intro _
    exact frames_bind (leavesInbox_of_quiet quiet_persistState) fun _ => frames_pure _
  | none =>
    refine ⟨_, ?_, rfl⟩
    apply frames_bind (leavesInbox_of_quiet (quiet_ask _))
    intro accepted
    apply frames_bind (frames_ofExcept _)
    intro accepted
    apply frames_bind (leavesInbox_of_quiet (quiet_ask _))
    intro outcome
    apply frames_bind (frames_ofExcept _)
    exact fun outcome => leavesInbox_of_quiet (steps_reportOutcome _ _ _).quiet

theorem record_execution (entry : QueuedEnvelope) (ledger : InboxLedger) :
    ledger.record (execution ctx entry) =
      { ledger with handed := ledger.handed ++ ledger.taken.toList, taken := none } := by
  unfold execution
  cases entry.slashCommand with
  | some slash => rfl
  | none => rfl

theorem wp_executeEntry_settles {entry : QueuedEnvelope} (taken : ledger.taken = some entry)
    (balanced : ledger.pushed = ledger.handed ++ entry :: inboxOf s) :
    wp InboxLedger.record (fun _ => True) (executeEntry ctx entry)
      (fun _ t after => Settled (inboxOf t) after) s ledger := by
  obtain ⟨rest, leaves, same⟩ := @executeEntry_eq ctx entry
  rw [same]
  refine wp_bind.mpr (wp_log.mpr ⟨⟨trivial, trivial⟩, ?_⟩)
  apply keepsSettled_of_leavesInbox leaves
  rw [record_execution]
  refine ⟨?_, rfl⟩
  rw [Balanced, balanced, taken, Option.toList_some, List.append_assoc]
  rfl

/-- The save after an entry is taken succeeds, if there is a state directory. -/
def SaveWorks (ctx : ChannelContext) (machine : Machine) : Prop :=
  ctx.statePersistence = true → ctx.surroundings.save machine.calls = .ok ()

theorem wp_persistState_works (works : SaveWorks ctx s) :
    wp InboxLedger.record (fun _ => True) (persistState ctx)
      (fun result t after => result = .ok () ∧ inboxOf t = inboxOf s ∧ after = ledger) s
      ledger := by
  cases persists : ctx.statePersistence with
  | false =>
    rw [wp, persistState_off persists]
    exact ⟨fun _ => trivial, rfl, rfl, rfl⟩
  | true =>
    rw [wp, persistState_saved persists (works persists)]
    exact ⟨fun _ => trivial, rfl, rfl, rfl⟩

/-- One turn of the loop of `process_inbox`. -/
def turn (ctx : ChannelContext) (target : String) (response : Option IngestReply) :
    ChannelAction (Option IngestReply) :=
  drain ctx target 1 response

theorem wp_turn (works : SaveWorks ctx s) (target : String) (response : Option IngestReply)
    (settled : Settled (inboxOf s) ledger) :
    wp InboxLedger.record (fun _ => True) (turn ctx target response)
      (fun _ t after => Settled (inboxOf t) after) s ledger := by
  refine wp_bind.mpr (wp_readAdapter.mpr ⟨trivial, ?_⟩)
  simp only
  cases front : s.adapter.inbox with
  | nil => exact wp_pure.mpr ⟨trivial, settled⟩
  | cons entry rest =>
    refine wp_bind.mpr (wp_update.mpr ⟨trivial, ?_⟩)
    refine wp_bind.mpr (wp_log.mpr ⟨⟨trivial, trivial⟩, ?_⟩)
    have works : SaveWorks ctx ⟨{ s.adapter with inbox := rest }, s.calls⟩ := works
    refine wp_bind.mpr ((wp_persistState_works works).mono ?_)
    rintro result t after - ⟨rfl, same, rfl⟩
    have balanced : (ledger.record (.taken entry)).pushed =
        (ledger.record (.taken entry)).handed ++ entry :: inboxOf t := by
      rw [same]
      exact settled.1.trans (by rw [inboxOf, front]; rfl)
    refine wp_bind.mpr (wp_attempt.mpr ((wp_executeEntry_settles rfl balanced).mono ?_))
    intro executed t after _ settled
    cases executed with
    | ok payload => exact wp_pure.mpr ⟨trivial, settled⟩
    | error err =>
      simp only
      split
      · exact wp_fail.mpr ⟨trivial, settled⟩
      · apply keepsSettled_of_leavesInbox _ t after settled
        apply frames_bind (leavesInbox_of_quiet (@quiet_record ctx _))
        exact fun _ => frames_pure _

theorem turn_of_failed {err : KelvinError} {entry : QueuedEnvelope} {rest : List QueuedEnvelope}
    (persists : ctx.statePersistence = true) (failed : ctx.surroundings.save s.calls = .error err)
    (front : s.adapter.inbox = entry :: rest) (target : String) (response : Option IngestReply) :
    turn ctx target response s =
      ⟨.error err, ⟨{ s.adapter with inbox := rest }, s.calls + 1⟩, [.taken entry]⟩ := by
  have reads : readAdapter s = ⟨.ok s.adapter, s, []⟩ := rfl
  have save : persistState ctx ⟨{ s.adapter with inbox := rest }, s.calls⟩ =
      ⟨.error err, ⟨{ s.adapter with inbox := rest }, s.calls + 1⟩, []⟩ :=
    persistState_failed persists failed
  rw [turn, drain, bind_apply_ok reads]
  simp only [front]
  rw [bind_apply_ok (show update _ s = ⟨.ok (), ⟨{ s.adapter with inbox := rest }, s.calls⟩, []⟩
    from rfl), bind_apply_ok (log_apply _ _), bind_apply_of_error (congrArg Outcome.result save),
    save]
  rfl

end Moves

/-! ### Runs -/

variable (ctx : ChannelContext)

/-- The loop of `process_inbox`: the delivery id of its target, and the response to it. -/
structure InboxLoop where
  target : String
  response : Option IngestReply

/-- An adapter with its ledger, and the loop that is running. -/
structure InboxRun where
  machine : Machine
  ledger : InboxLedger
  loop : Option InboxLoop

inductive InboxStep where
  /-- An ingestion up to the loop. -/
  | receive (envelope : ChannelEnvelope)
  | turn

def loopAfter : Except KelvinError Verdict → Option InboxLoop
  | .ok (.queue entry) => some ⟨entry.envelope.deliveryId, none⟩
  | .ok (.answered _) | .error _ => none

namespace InboxRun

variable (s : InboxRun)

def receive (envelope : ChannelEnvelope) : InboxRun :=
  let outcome := Channel.receive ctx envelope s.machine
  ⟨outcome.state, outcome.journal.foldl InboxLedger.record s.ledger, loopAfter outcome.result⟩

def turn (loop : InboxLoop) : InboxRun :=
  if s.machine.adapter.inbox = [] then { s with loop := none }
  else
    let outcome := Channel.turn ctx loop.target loop.response s.machine
    ⟨outcome.state, outcome.journal.foldl InboxLedger.record s.ledger,
      match outcome.result with
      | .ok response => some ⟨loop.target, response⟩
      | .error _ => none⟩

end InboxRun

/-- The ingestions of an adapter one after the other, whatever its inbox has at first. -/
def inboxRuns : TransitionSystem InboxRun InboxStep where
  init s := s.loop = none ∧ s.ledger = ⟨s.machine.adapter.inbox, [], none⟩
  step s label :=
    match label, s.loop with
    | .receive envelope, none => some (s.receive ctx envelope)
    | .turn, some loop => some (s.turn ctx loop)
    | .receive _, some _ | .turn, none => none

/-- The entries pushed to the inbox are those that were handed to `execute_entry`, in this order,
and then those that are in the inbox. -/
def Conserved (s : InboxRun) : Prop := Balanced s.machine.adapter.inbox s.ledger

def SavedAfterPop (s : InboxRun) : InboxStep → Prop
  | .receive _ => True
  | .turn => s.machine.adapter.inbox ≠ [] → SaveWorks ctx s.machine

variable {ctx} {s t : InboxRun}

theorem settled_step {label : InboxStep} (settled : Settled s.machine.adapter.inbox s.ledger)
    (saved : SavedAfterPop ctx s label) (moves : (inboxRuns ctx).step s label = some t) :
    Settled t.machine.adapter.inbox t.ledger := by
  cases running : s.loop with
  | none =>
    cases label with
    | turn => simp [inboxRuns, running] at moves
    | receive envelope =>
      simp only [inboxRuns, running, Option.some_inj] at moves
      subst moves
      have kept := @keepsSettled_receive ctx envelope s.machine s.ledger settled
      rw [wp] at kept
      simpa only [InboxRun.receive, inboxOf] using kept.2
  | some loop =>
    cases label with
    | receive envelope => simp [inboxRuns, running] at moves
    | turn =>
      simp only [inboxRuns, running, Option.some_inj] at moves
      subst moves
      rw [InboxRun.turn]
      split
      · exact settled
      · rename_i waiting
        exact (wp_turn (saved waiting) loop.target loop.response settled).2

/-- **The inbox loses nothing and keeps its order** in every run of ingestions in which the save
after an entry is taken succeeds, whatever else fails. -/
theorem conserved_of_reachable (ctx : ChannelContext) (s : InboxRun)
    (reached : (inboxRuns ctx).ReachableWhen (SavedAfterPop ctx) s) : Conserved s := by
  have settled := reached.invariant (fun s => Settled s.machine.adapter.inbox s.ledger) ?_ ?_
  · exact settled.1
  · intro s ⟨_, ledger⟩
    rw [ledger]
    exact ⟨rfl, rfl⟩
  · exact fun s label t settled saved moves => settled_step settled saved moves

theorem not_conserved_of_failed {loop : InboxLoop} (conserved : Conserved s)
    (running : s.loop = some loop) (failed : ¬ SavedAfterPop ctx s .turn) :
    ∃ t, (inboxRuns ctx).step s .turn = some t ∧ t.loop = none ∧ ¬ Conserved t := by
  simp only [SavedAfterPop, SaveWorks, not_forall] at failed
  obtain ⟨waiting, persists, failed⟩ := failed
  cases front : s.machine.adapter.inbox with
  | nil => exact absurd front waiting
  | cons entry rest =>
    cases saved : ctx.surroundings.save s.machine.calls with
    | ok done => exact absurd saved failed
    | error err =>
      refine ⟨s.turn ctx loop, by simp only [inboxRuns, running], ?_, ?_⟩
      · rw [InboxRun.turn, if_neg waiting, turn_of_failed persists saved front]
      · rw [InboxRun.turn, if_neg waiting, turn_of_failed persists saved front]
        intro after
        have same : s.ledger.handed ++ entry :: rest = s.ledger.handed ++ rest := by
          rw [← front]
          exact conserved.symm.trans after
        have length := congrArg List.length (List.append_cancel_left same)
        exact absurd length (Nat.succ_ne_self _)

/-! ### Ingestions as runs -/

theorem drain_zero (target : String) (response : Option IngestReply) (m : Machine) :
    drain ctx target 0 response m = ⟨.ok response, m, []⟩ := rfl

theorem drain_of_nil {m : Machine} (empty : m.adapter.inbox = []) (target : String) (left : ℕ)
    (response : Option IngestReply) : drain ctx target left response m = ⟨.ok response, m, []⟩ := by
  cases left with
  | zero => rfl
  | succ left =>
    rw [drain, bind_apply_ok (show readAdapter m = ⟨.ok m.adapter, m, []⟩ from rfl)]
    simp only [empty]
    rfl

def takeAndExecute (ctx : ChannelContext) (entry : QueuedEnvelope) (rest : List QueuedEnvelope) :
    ChannelAction (KelvinResult IngestReply) := do
  update fun adapter => { adapter with inbox := rest }
  log (.taken entry)
  persistState ctx
  attempt (executeEntry ctx entry)

def afterEntry (ctx : ChannelContext) (target : String) (left : ℕ)
    (response : Option IngestReply) (entry : QueuedEnvelope) :
    KelvinResult IngestReply → ChannelAction (Option IngestReply)
  | .ok payload =>
    drain ctx target left
      (if entry.envelope.deliveryId = target then some payload else response)
  | .error err =>
    if entry.envelope.deliveryId = target then fail err
    else do
      record fun metrics => { metrics with lastError := some err.toString }
      drain ctx target left response

theorem drain_of_cons {m : Machine} {entry : QueuedEnvelope} {rest : List QueuedEnvelope}
    (front : m.adapter.inbox = entry :: rest) (target : String) (left : ℕ)
    (response : Option IngestReply) :
    drain ctx target (left + 1) response m =
      (takeAndExecute ctx entry rest >>= afterEntry ctx target left response entry) m := by
  rw [drain, bind_apply_ok (show readAdapter m = ⟨.ok m.adapter, m, []⟩ from rfl)]
  simp only [front, takeAndExecute, Action.bind_assoc]
  rfl

theorem afterEntry_bind (target : String) (left : ℕ) (response : Option IngestReply)
    (entry : QueuedEnvelope) (result : KelvinResult IngestReply) :
    afterEntry ctx target 0 response entry result >>= drain ctx target left =
      afterEntry ctx target left response entry result := by
  cases result with
  | ok payload => rfl
  | error err =>
    simp only [afterEntry]
    split
    · rfl
    · rw [Action.bind_assoc]
      rfl

theorem drain_succ (target : String) (left : ℕ) (response : Option IngestReply) (m : Machine) :
    drain ctx target (left + 1) response m =
      (turn ctx target response >>= drain ctx target left) m := by
  cases front : m.adapter.inbox with
  | nil =>
    have ended : turn ctx target response m = ⟨.ok response, m, []⟩ := drain_of_nil front target 1 _
    rw [drain_of_nil front, bind_apply_ok ended, drain_of_nil front]
    rfl
  | cons entry rest =>
    have first : turn ctx target response m =
        (takeAndExecute ctx entry rest >>= afterEntry ctx target 0 response entry) m :=
      drain_of_cons front target 0 response
    rw [drain_of_cons front, bind_apply_congr first, Action.bind_assoc]
    simp only [afterEntry_bind]

theorem inboxOf_turn (target : String) (response : Option IngestReply) (m : Machine) :
    inboxOf (turn ctx target response m).state = (inboxOf m).tail := by
  cases front : m.adapter.inbox with
  | nil => rw [turn, drain_of_nil front, inboxOf, front, List.tail_nil]
  | cons entry rest =>
    have takes : Ends (takeAndExecute ctx entry rest >>= afterEntry ctx target 0 response entry)
        (fun _ t => inboxOf t = rest) m := by
      obtain ⟨after, leaves, same⟩ := @executeEntry_eq ctx entry
      -- after the front is taken, nothing of the turn touches the inbox
      have weaken {α : Type} {act : ChannelAction α} (leaves : LeavesInbox act) :
          Frames inboxOf (fun _ _ => True) act := leaves.mono id fun _ _ _ => trivial
      have others : Frames inboxOf (fun _ _ => True) (do
          log (.taken entry)
          persistState ctx
          let result ← attempt (executeEntry ctx entry)
          afterEntry ctx target 0 response entry result) := by
        apply frames_bind (frames_log fun _ => trivial)
        intro _
        apply frames_bind (weaken (leavesInbox_of_quiet quiet_persistState))
        intro _
        rw [same]
        apply frames_bind (frames_attempt (frames_bind (frames_log fun _ => trivial) fun _ =>
          weaken leaves))
        intro result
        cases result with
        | ok payload => exact frames_pure _
        | error err =>
          apply frames_ite (frames_fail _)
          exact frames_bind (weaken (leavesInbox_of_quiet (@quiet_record ctx _))) fun _ =>
            frames_pure _
      simp only [takeAndExecute, Action.bind_assoc]
      refine wp_bind.mpr (wp_update.mpr ⟨trivial, ?_⟩)
      exact ends_iff.mpr (others _).1
    rw [inboxOf, inboxOf, front, turn, drain_of_cons front]
    exact ends_iff.mp takes

theorem drain_follows (target : String) (response : Option IngestReply) (m : Machine)
    (ledger : InboxLedger) (left : ℕ) (length : (inboxOf m).length = left) :
    ∃ turns, (inboxRuns ctx).run? (fun _ _ => True) ⟨m, ledger, some ⟨target, response⟩⟩
        (List.replicate turns .turn) =
      some ⟨(drain ctx target left response m).state,
        (drain ctx target left response m).journal.foldl InboxLedger.record ledger, none⟩ := by
  induction left generalizing m ledger response with
  | zero =>
    have empty : m.adapter.inbox = [] := List.eq_nil_of_length_eq_zero length
    refine ⟨1, ?_⟩
    simp [TransitionSystem.run?, inboxRuns, InboxRun.turn, empty, drain_zero]
  | succ left ih =>
    have waiting : m.adapter.inbox ≠ [] := by
      intro empty
      rw [inboxOf, empty] at length
      cases length
    rw [drain_succ]
    have moves : (inboxRuns ctx).step ⟨m, ledger, some ⟨target, response⟩⟩ .turn =
        some (InboxRun.turn ctx ⟨m, ledger, some ⟨target, response⟩⟩ ⟨target, response⟩) := rfl
    cases result : (turn ctx target response m).result with
    | error err =>
      refine ⟨1, ?_⟩
      rw [bind_apply_of_error result]
      simp [TransitionSystem.run?, moves, InboxRun.turn, waiting, result]
    | ok answer =>
      have shorter : (inboxOf (turn ctx target response m).state).length = left := by
        rw [inboxOf_turn, List.length_tail, length, Nat.add_sub_cancel]
      obtain ⟨turns, follows⟩ := ih answer (turn ctx target response m).state
        ((turn ctx target response m).journal.foldl InboxLedger.record ledger) shorter
      refine ⟨turns + 1, ?_⟩
      rw [bind_apply_of_result result]
      simp only [List.foldl_append]
      rw [← follows, List.replicate_succ, TransitionSystem.run?, if_pos trivial, moves]
      simp [InboxRun.turn, waiting, result]

theorem processInbox_apply (target : String) (m : Machine) :
    (processInbox ctx target m).state =
        (drain ctx target m.adapter.inbox.length none m).state ∧
      (processInbox ctx target m).journal =
        (drain ctx target m.adapter.inbox.length none m).journal := by
  rw [processInbox, bind_apply_ok (show readAdapter m = ⟨.ok m.adapter, m, []⟩ from rfl)]
  simp only [List.nil_append]
  cases ran : (drain ctx target m.adapter.inbox.length none m).result with
  | error err =>
    rw [bind_apply_of_error ran]
    exact ⟨rfl, rfl⟩
  | ok response =>
    rw [bind_apply_of_result ran]
    cases response with
    | some payload => exact ⟨rfl, List.append_nil _⟩
    | none => exact ⟨rfl, List.append_nil _⟩

/-- **An ingestion is a run** of its steps: the part up to the inbox, and then turns of the loop
if it came to the loop. -/
theorem ingest_follows (idle : s.loop = none) (envelope : ChannelEnvelope) :
    ∃ turns, (inboxRuns ctx).run? (fun _ _ => True) s
        (.receive envelope :: List.replicate turns .turn) =
      some ⟨(ingest ctx envelope s.machine).state,
        (ingest ctx envelope s.machine).journal.foldl InboxLedger.record s.ledger, none⟩ := by
  have moves : (inboxRuns ctx).step s (.receive envelope) = some (s.receive ctx envelope) := by
    simp only [inboxRuns, idle]
  cases received : (receive ctx envelope s.machine).result with
  | error err =>
    refine ⟨0, ?_⟩
    rw [ingest, bind_apply_of_error received]
    simp [TransitionSystem.run?, moves, InboxRun.receive, received, loopAfter]
  | ok verdict =>
    cases verdict with
    | answered reply =>
      refine ⟨0, ?_⟩
      rw [ingest, bind_apply_of_result received]
      simp [TransitionSystem.run?, moves, InboxRun.receive, received, loopAfter, pure]
    | queue entry =>
      obtain ⟨turns, follows⟩ := @drain_follows ctx entry.envelope.deliveryId none
        (receive ctx envelope s.machine).state
        ((receive ctx envelope s.machine).journal.foldl InboxLedger.record s.ledger) _ rfl
      obtain ⟨state, journal⟩ := @processInbox_apply ctx entry.envelope.deliveryId
        (receive ctx envelope s.machine).state
      refine ⟨turns, ?_⟩
      rw [ingest, bind_apply_of_result received]
      simp only [state, journal, List.foldl_append]
      rw [TransitionSystem.run?, if_pos trivial, moves]
      simpa [InboxRun.receive, received, loopAfter, inboxOf] using follows

/-! ### A save that fails -/

def emptyInbox : InboxRun := ⟨⟨.fresh, 0⟩, ⟨[], [], none⟩, none⟩

theorem emptyInbox_starts (ctx : ChannelContext) : (inboxRuns ctx).init emptyInbox := ⟨rfl, rfl⟩

def diskFull (failing calls : ℕ) : KelvinResult Unit :=
  if calls = failing then .error (.io "No space left on device (os error 28)") else .ok ()

def idsOf (s : InboxRun) : List String × List String × List String :=
  (s.ledger.pushed.map QueuedEnvelope.deliveryId, s.ledger.handed.map QueuedEnvelope.deliveryId,
    s.machine.adapter.inbox.map QueuedEnvelope.deliveryId)

/-- The disk is full when the inbox is saved without the message, which is lost. -/
theorem message_lost_after_pop : ¬ ∀ ctx s, (inboxRuns ctx).Reachable s → Conserved s := by
  intro law
  obtain ⟨s, reached, seen⟩ := TransitionSystem.exists_of_run?
    (TransitionSystem.ReachableWhen.init (emptyInbox_starts _) :
      (inboxRuns (openContext [] (diskFull 4))).Reachable emptyInbox)
    (show ((inboxRuns (openContext [] (diskFull 4))).run? (fun _ _ => True) emptyInbox
      [.receive (plainEnvelope "d-1" "hello"), .turn]).map idsOf = some (["d-1"], [], []) by
        decide +kernel)
  have conserved := congrArg (List.map QueuedEnvelope.deliveryId) (law _ s reached)
  obtain ⟨pushed, rest⟩ := Prod.mk.inj seen
  obtain ⟨handed, inbox⟩ := Prod.mk.inj rest
  rw [List.map_append, pushed, handed, inbox] at conserved
  cases conserved

def roomyContext (save : ℕ → KelvinResult Unit) : ChannelContext :=
  let small := openContext [] save
  { small with
    config :=
      { small.config with
        policy := { openPolicy with maxQueueDepth := 2, queueBound := by decide } } }

instance (ctx : ChannelContext) (machine : Machine) : Decidable (SaveWorks ctx machine) :=
  inferInstanceAs (Decidable (_ → _))

instance (ctx : ChannelContext) (s : InboxRun) : ∀ step, Decidable (SavedAfterPop ctx s step)
  | .receive _ => inferInstanceAs (Decidable True)
  | .turn => inferInstanceAs (Decidable (_ → _))

/-- The ingestion of a first message is a run that executes it. -/
theorem greeting_follows : ∃ turns, ((inboxRuns (roomyContext fun _ => .ok ())).run?
    (fun _ _ => True) emptyInbox
      (.receive (plainEnvelope "d-1" "hello") :: List.replicate turns .turn)).map idsOf =
        some (["d-1"], ["d-1"], []) := by
  obtain ⟨turns, follows⟩ := @ingest_follows (roomyContext fun _ => .ok ()) emptyInbox rfl
    (plainEnvelope "d-1" "hello")
  exact ⟨turns, by rw [follows]; decide +kernel⟩

/-- The disk is full when the inbox is saved with the first message, which is executed with the
second one, and before it. -/
theorem message_kept_after_push : ∃ s,
    idsOf s = (["d-1", "d-2"], ["d-1", "d-2"], []) ∧ Conserved s := by
  obtain ⟨s, reached, seen⟩ := TransitionSystem.exists_of_run?
    (TransitionSystem.ReachableWhen.init (emptyInbox_starts _) :
      (inboxRuns (roomyContext (diskFull 3))).ReachableWhen
        (SavedAfterPop (roomyContext (diskFull 3))) emptyInbox)
    (show ((inboxRuns (roomyContext (diskFull 3))).run?
      (SavedAfterPop (roomyContext (diskFull 3))) emptyInbox
      [.receive (plainEnvelope "d-1" "hello"), .receive (plainEnvelope "d-2" "again"), .turn,
        .turn]).map idsOf = some (["d-1", "d-2"], ["d-1", "d-2"], []) by decide +kernel)
  exact ⟨s, seen, conserved_of_reachable _ s reached⟩

end KelvinClaw.Channel
