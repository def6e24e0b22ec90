import KelvinClaw.Channel.Runs

/-!
# Executions across crashes

A delivery whose id is not forgotten is executed once at most, in every run whose
crashes find the executions saved. The queue sees to that by itself when there is a
state directory: an entry is executed after the inbox without it was saved. A command
that bypasses the queue is executed with nothing saved, so that a crash before the next
save forgets that it was.
-/

namespace KelvinClaw.Channel

open KelvinClaw.Core Systems Systems.TransitionSystem

def ExecutedOnce (ledger : Ledger) : Prop :=
  ∀ deliveryId ∉ ledger.forgotten, ledger.executed.count deliveryId ≤ 1

/-- **At most once.** In every run of an adapter whose crashes find the executions saved,
a delivery within the retention of the seen ids is executed once at most. -/
theorem executedOnce_of_savedAtCrash (ctx : ChannelContext) (s : AdapterRun)
    (reached : (channelRuns ctx).ReachableWhen (SavedAtCrash ctx) s) : ExecutedOnce s.ledger := by
  intro deliveryId kept
  obtain ⟨a, refines, _⟩ := simulates_of_savedAtCrash reached
  rw [← refines.forgotten] at kept
  rw [← refines.executed]
  exact DurableInbox.count_executed_le_one refines.reached deliveryId kept

/-! ### A command that bypasses the queue -/

instance (ctx : ChannelContext) (s : AdapterRun) : ∀ event, Decidable (SavedAtCrash ctx s event)
  | .completed _ => inferInstanceAs (Decidable True)
  | .crashed operation events =>
    inferInstanceAs (Decidable ((s.ledgerAt ctx operation events).unsaved = []))

/-- A command on all channels that does not wait in the queue. -/
def pingCommand : SlashCommandMeta := ⟨"ping", ∅, none, true⟩

def pingContext : ChannelContext := openContext [pingCommand] fun _ => .ok ()

/-- A message is executed, the adapter crashes, and the message is delivered again. -/
def redeliveredMessage : List RunEvent :=
  [.crashed (.ingest (plainEnvelope "d-1" "hello")) 7,
    .completed (.ingest (plainEnvelope "d-1" "hello"))]

/-- The same with a command that bypasses the queue. -/
def redeliveredCommand : List RunEvent :=
  [.crashed (.ingest (plainEnvelope "d-1" "/ping")) 3,
    .completed (.ingest (plainEnvelope "d-1" "/ping"))]

theorem redeliveredMessage_executed_once : ∃ s : AdapterRun,
    s.ledger.executed = ["d-1"] ∧ s.ledger.forgotten = [] ∧ ExecutedOnce s.ledger := by
  have ran : ((channelRuns pingContext).run? (SavedAtCrash pingContext) emptyRun
      redeliveredMessage).map (fun s => (s.ledger.executed, s.ledger.forgotten)) =
        some (["d-1"], []) := by
    decide +kernel
  obtain ⟨s, reached, seen⟩ := exists_of_run? (.init (emptyRun_starts _)) ran
  obtain ⟨executed, forgotten⟩ := Prod.mk.inj seen
  exact ⟨s, executed, forgotten, executedOnce_of_savedAtCrash _ s reached⟩

/-- The command was executed and the state was not saved before the crash, so that its
redelivery is executed too. -/
theorem bypassed_command_runs_twice :
    ¬ ∀ s, (channelRuns pingContext).Reachable s → ExecutedOnce s.ledger := by
  intro once
  have ran : ((channelRuns pingContext).run? (fun _ _ => True) emptyRun redeliveredCommand).map
      (fun s => (s.ledger.executed, s.ledger.forgotten)) = some (["d-1", "d-1"], []) := by
    decide +kernel
  obtain ⟨s, reached, seen⟩ := exists_of_run? (.init (emptyRun_starts _)) ran
  obtain ⟨executed, forgotten⟩ := Prod.mk.inj seen
  have atMostOne := once s reached "d-1" (by simp [forgotten])
  rw [executed] at atMostOne
  simp at atMostOne

end KelvinClaw.Channel
