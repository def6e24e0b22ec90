import KelvinClaw.Library.BroadcastLog
import KelvinClaw.Library.TransitionSystem

/-!
# The event stream of a gateway connection

An authenticated connection has three tasks. The event task receives the agent events of the
runtime and puts them into the queue of the writer, the connection task answers requests through
the same queue, and the writer sends what is in it. The queue is bounded, and nobody waits for
room in it: a response that finds none ends the connection, but an event that finds none ends
only the event task. An event task that lags goes on with the oldest event that is kept.

Responses and events are only passed on, so their types are parameters.
-/

namespace KelvinClaw.Gateway

open Systems Systems.BroadcastLog

variable {ε ρ : Type}

/-! ### The connection -/

/-- What is in the queue of the writer. -/
inductive Message (ε ρ : Type) where
  | res (frame : ρ)
  | event (event : ε)
  | close
  deriving DecidableEq, Repr

/-- The event task waits for an event, or has one to forward. -/
inductive EventTask (ε : Type) where
  | receiving
  | forwarding (event : ε)
  | ended
  deriving DecidableEq, Repr

/-- A connection after the handshake, with the log of the events of the runtime. The places in
the log are those of the receiver, now and when it subscribed. -/
structure Connection (ε ρ : Type) where
  broadcast : List ε
  subscribed : ℕ
  next : ℕ
  eventTask : EventTask ε
  serving : Bool
  writing : Bool
  queue : List (Message ε ρ)
  queuedEvents : List ε
  turnedAway : Bool
  deriving DecidableEq, Repr

namespace Connection

/-- `try_send` into the queue of the writer. -/
def trySend (room : ℕ) (message : Message ε ρ) (c : Connection ε ρ) :
    Option (Connection ε ρ) :=
  if c.writing = true ∧ c.queue.length < room then
    some { c with queue := c.queue ++ [message] }
  else none

def finish (c : Connection ε ρ) : Connection ε ρ :=
  { c with serving := false, eventTask := .ended }

/-- `event_rx.recv()`. A lag is skipped. -/
def recv (retained : ℕ) (c : Connection ε ρ) : Option (Connection ε ρ) :=
  match c.eventTask with
  | .receiving =>
    match BroadcastLog.receive retained c.broadcast c.next with
    | .ok event => some { c with next := c.next + 1, eventTask := .forwarding event }
    | .lagged next => some { c with next }
    | .pending => none
  | .forwarding _ | .ended => none

/-- `send_event`. The event task ends when the event cannot be queued. -/
def forward (room : ℕ) (c : Connection ε ρ) : Option (Connection ε ρ) :=
  match c.eventTask with
  | .forwarding event =>
    match c.trySend room (.event event) with
    | some sent =>
      some { sent with eventTask := .receiving, queuedEvents := c.queuedEvents ++ [event] }
    | none => some { c with eventTask := .ended, turnedAway := true }
  | .receiving | .ended => none

/-- The response to a request. The connection task returns when it cannot be queued, and leaves
the event task behind. -/
def respond (room : ℕ) (frame : ρ) (c : Connection ε ρ) : Option (Connection ε ρ) :=
  if c.serving then
    match c.trySend room (.res frame) with
    | some sent => some sent
    | none => some { c with serving := false }
  else none

/-- A frame that does not parse is answered with an error and a close, as far as there is room. -/
def malformed (room : ℕ) (error : ρ) (c : Connection ε ρ) : Option (Connection ε ρ) :=
  if c.serving then
    let answered := (c.trySend room (.res error)).getD c
    some ((answered.trySend room .close).getD answered).finish
  else none

end Connection

/-- The steps of the tasks and of their surroundings. -/
inductive StreamLabel (ε ρ : Type) where
  | emit (event : ε)
  | recv
  | forward
  | respond (frame : ρ)
  | malformed (error : ρ)
  | clientClosed
  | readFailed
  | write
  | writeFailed
  deriving DecidableEq, Repr

/-- The channel of the runtime keeps `retained` events, and the queue of the writer has `room`. -/
def Connection.step (retained room : ℕ) (c : Connection ε ρ) :
    StreamLabel ε ρ → Option (Connection ε ρ)
  | .emit event => some { c with broadcast := c.broadcast ++ [event] }
  | .recv => c.recv retained
  | .forward => c.forward room
  | .respond frame => c.respond room frame
  | .malformed error => c.malformed room error
  | .clientClosed => if c.serving then some c.finish else none
  | .readFailed => if c.serving then some { c.finish with writing := false, queue := [] } else none
  | .write =>
    match c.queue with
    | [] => none
    | _ :: rest => if c.writing then some { c with queue := rest } else none
  | .writeFailed => if c.writing then some { c with writing := false, queue := [] } else none

/-- The event task has subscribed, and nothing is received yet. -/
structure Connection.Starts (c : Connection ε ρ) : Prop where
  subscribed : c.subscribed = c.broadcast.length
  next : c.next = c.broadcast.length
  eventTask : c.eventTask = .receiving
  serving : c.serving = true
  queuedEvents : c.queuedEvents = []
  turnedAway : c.turnedAway = false

def gateway (ε ρ : Type) (retained room : ℕ) :
    TransitionSystem (Connection ε ρ) (StreamLabel ε ρ) where
  init := Connection.Starts
  step := Connection.step retained room

/-! ### Gaps -/

/-- As long as requests are served, the events that were queued are a contiguous run of those
broadcast since the connection subscribed, and no event was turned away. -/
def NoSilentGap (c : Connection ε ρ) : Prop :=
  c.serving = true →
    c.queuedEvents <:+: c.broadcast.drop c.subscribed ∧ c.turnedAway = false

/-- While requests are served, the event task does not lag behind events that are queued, and
the writer has room for its events. -/
def KeepsUp (retained room : ℕ) (c : Connection ε ρ) : StreamLabel ε ρ → Prop
  | .recv => c.serving = true → c.next + retained < c.broadcast.length → c.queuedEvents = []
  | .forward => c.serving = true → c.writing = true ∧ c.queue.length < room
  | _ => True

instance [DecidableEq ε] (retained room : ℕ) (c : Connection ε ρ) (label : StreamLabel ε ρ) :
    Decidable (KeepsUp retained room c label) :=
  match label with
  | .recv => inferInstanceAs (Decidable (_ → _ → _))
  | .forward => inferInstanceAs (Decidable (_ → _))
  | .emit _ | .respond _ | .malformed _ | .clientClosed | .readFailed | .write | .writeFailed =>
    inferInstanceAs (Decidable True)

def EventTask.held : EventTask ε → List ε
  | .forwarding event => [event]
  | .receiving | .ended => []

/-- What was received since some place after the subscription is queued, but for the event that
the event task has. -/
structure Streams (c : Connection ε ρ) : Prop where
  within : c.next ≤ c.broadcast.length
  queued : c.serving = true → c.turnedAway = false ∧ ∃ start, c.subscribed ≤ start ∧
    start ≤ c.next ∧ c.queuedEvents ++ c.eventTask.held = window c.broadcast start c.next
  since : c.subscribed ≤ c.next

variable {retained room : ℕ} {c d : Connection ε ρ}

theorem Streams.noSilentGap (streams : Streams c) : NoSilentGap c := by
  intro serving
  obtain ⟨kept, start, later, _, received⟩ := streams.queued serving
  refine ⟨?_, kept⟩
  have leading : c.queuedEvents <+: window c.broadcast start c.next :=
    received ▸ List.prefix_append _ _
  exact leading.isInfix.trans (window_isInfix later)

theorem Streams.of_starts (starts : c.Starts) : Streams c := by
  refine ⟨starts.next.le, fun _ => ⟨starts.turnedAway, c.next, ?_, le_rfl, ?_⟩, ?_⟩
  · exact (starts.subscribed.trans starts.next.symm).le
  · rw [starts.queuedEvents, starts.eventTask, window_self]
    rfl
  · exact (starts.subscribed.trans starts.next.symm).le

/-- Connections that differ in their queue and in their writer only, or that do not serve any
more, stream the same events. -/
theorem Streams.of_same (streams : Streams c) (broadcast : d.broadcast = c.broadcast)
    (next : d.next = c.next) (subscribed : d.subscribed = c.subscribed)
    (rest : d.serving = true → c.serving = true ∧ d.turnedAway = c.turnedAway ∧
      d.queuedEvents = c.queuedEvents ∧ d.eventTask = c.eventTask) : Streams d := by
  refine ⟨?_, fun serving => ?_, ?_⟩
  · rw [next, broadcast]
    exact streams.within
  · obtain ⟨before, turnedAway, queued, task⟩ := rest serving
    rw [turnedAway, queued, task, broadcast, next, subscribed]
    exact streams.queued before
  · rw [next, subscribed]
    exact streams.since

theorem Streams.emit (streams : Streams c) (event : ε) :
    Streams { c with broadcast := c.broadcast ++ [event] } := by
  refine ⟨?_, fun serving => ?_, streams.since⟩
  · rw [List.length_append]
    exact streams.within.trans (Nat.le_add_right _ _)
  · obtain ⟨kept, start, later, ordered, received⟩ := streams.queued serving
    exact ⟨kept, start, later, ordered, received.trans (window_snoc streams.within).symm⟩

theorem Streams.recv (streams : Streams c) (keepsUp : KeepsUp retained room c .recv)
    (moves : c.recv retained = some d) : Streams d := by
  unfold Connection.recv at moves
  cases task : c.eventTask with
  | forwarding event =>
    rw [task] at moves
    cases moves
  | ended =>
    rw [task] at moves
    cases moves
  | receiving =>
    rw [task] at moves
    cases received : BroadcastLog.receive retained c.broadcast c.next with
    | pending =>
      rw [received] at moves
      cases moves
    | ok event =>
      rw [received] at moves
      obtain rfl := Option.some_inj.mp moves
      have found := receive_eq_ok received
      refine ⟨(List.getElem?_eq_some_iff.mp found).1, fun serving => ?_,
        streams.since.trans (Nat.le_succ _)⟩
      obtain ⟨kept, start, later, ordered, same⟩ := streams.queued serving
      refine ⟨kept, start, later, ordered.trans (Nat.le_succ _), ?_⟩
      rw [task, EventTask.held, List.append_nil] at same
      rw [window_of_receive ordered found, ← same]
      rfl
    | lagged behind =>
      rw [received] at moves
      obtain rfl := Option.some_inj.mp moves
      obtain ⟨lags, rfl⟩ := receive_eq_lagged received
      have since : c.subscribed ≤ c.broadcast.length - retained :=
        streams.since.trans (Nat.le_sub_of_add_le lags.le)
      refine ⟨Nat.sub_le _ _, fun serving => ?_, since⟩
      -- Nothing was queued yet, so the run starts at the new place.
      refine ⟨(streams.queued serving).1, c.broadcast.length - retained, since, le_rfl, ?_⟩
      rw [keepsUp serving lags, window_self]
      rfl

theorem Streams.forward (streams : Streams c) (keepsUp : KeepsUp retained room c .forward)
    (moves : c.forward room = some d) : Streams d := by
  unfold Connection.forward at moves
  cases task : c.eventTask with
  | receiving =>
    rw [task] at moves
    cases moves
  | ended =>
    rw [task] at moves
    cases moves
  | forwarding event =>
    rw [task] at moves
    simp only [Connection.trySend] at moves
    split_ifs at moves with fits
    · obtain rfl := Option.some_inj.mp moves
      refine ⟨streams.within, fun serving => ?_, streams.since⟩
      obtain ⟨kept, start, later, ordered, received⟩ := streams.queued serving
      rw [task] at received
      refine ⟨kept, start, later, ordered, ?_⟩
      rw [EventTask.held, List.append_nil]
      exact received
    · obtain rfl := Option.some_inj.mp moves
      exact streams.of_same rfl rfl rfl fun serving => absurd (keepsUp serving) fits

theorem trySend_eq (message : Message ε ρ) :
    c.trySend room message = none ∨
      ∃ queue, c.trySend room message = some { c with queue := queue } := by
  unfold Connection.trySend
  split
  · exact .inr ⟨_, rfl⟩
  · exact .inl rfl

theorem trySend_getD (message : Message ε ρ) :
    ∃ queue, (c.trySend room message).getD c = { c with queue := queue } := by
  rcases @trySend_eq ε ρ room c message with full | ⟨queue, sent⟩
  · rw [full]
    exact ⟨c.queue, rfl⟩
  · rw [sent]
    exact ⟨queue, rfl⟩

theorem Streams.step (streams : Streams c) {label : StreamLabel ε ρ}
    (keepsUp : KeepsUp retained room c label) (moves : c.step retained room label = some d) :
    Streams d := by
  -- events move by emission, receipt and forwarding; other steps leave them where they are
  cases label with
  | emit event =>
    obtain rfl := Option.some_inj.mp moves
    exact streams.emit event
  | recv => exact streams.recv keepsUp moves
  | forward => exact streams.forward keepsUp moves
  | respond frame =>
    simp only [Connection.step, Connection.respond] at moves
    split_ifs at moves
    rcases @trySend_eq ε ρ room c (.res frame) with full | ⟨queue, sent⟩
    · rw [full] at moves
      obtain rfl := Option.some_inj.mp moves
      exact streams.of_same rfl rfl rfl nofun
    · rw [sent] at moves
      obtain rfl := Option.some_inj.mp moves
      exact streams.of_same rfl rfl rfl fun still => ⟨still, rfl, rfl, rfl⟩
  | malformed error =>
    simp only [Connection.step, Connection.malformed] at moves
    split_ifs at moves
    obtain rfl := Option.some_inj.mp moves
    obtain ⟨answered, isAnswered⟩ := @trySend_getD ε ρ room c (.res error)
    rw [isAnswered]
    obtain ⟨closed, isClosed⟩ := @trySend_getD ε ρ room { c with queue := answered } .close
    rw [isClosed]
    exact streams.of_same rfl rfl rfl nofun
  | clientClosed =>
    simp only [Connection.step] at moves
    split_ifs at moves
    obtain rfl := Option.some_inj.mp moves
    exact streams.of_same rfl rfl rfl nofun
  | readFailed =>
    simp only [Connection.step] at moves
    split_ifs at moves
    obtain rfl := Option.some_inj.mp moves
    exact streams.of_same rfl rfl rfl nofun
  | write =>
    simp only [Connection.step] at moves
    split at moves
    · cases moves
    · split_ifs at moves
      obtain rfl := Option.some_inj.mp moves
      exact streams.of_same rfl rfl rfl fun still => ⟨still, rfl, rfl, rfl⟩
  | writeFailed =>
    simp only [Connection.step] at moves
    split_ifs at moves
    obtain rfl := Option.some_inj.mp moves
    exact streams.of_same rfl rfl rfl fun still => ⟨still, rfl, rfl, rfl⟩

/-- **No silent gap.** In a run in which the event task keeps up, the events queued to a client
that is served are a contiguous run of the events broadcast since it subscribed, and none was
turned away. -/
theorem noSilentGap_of_reachable
    (reached : (gateway ε ρ retained room).ReachableWhen (KeepsUp retained room) c) :
    NoSilentGap c :=
  (reached.invariant Streams (fun _ starts => .of_starts starts)
    fun _ _ _ streams keepsUp moves => streams.step keepsUp moves).noSilentGap

/-! ### What happens otherwise -/

theorem gap_of_forward {event : ε} (task : c.eventTask = .forwarding event)
    (serving : c.serving = true) (full : ¬ (c.writing = true ∧ c.queue.length < room)) :
    ∃ d, c.forward room = some d ∧ d.eventTask = .ended ∧ ¬ NoSilentGap d := by
  refine ⟨{ c with eventTask := .ended, turnedAway := true }, ?_, rfl, ?_⟩
  · rw [Connection.forward, task]
    simp only [Connection.trySend, if_neg full]
  · intro law
    exact Bool.noConfusion (law serving).2

theorem gap_of_lag {last event : ε} {queued : List ε} {place : ℕ} (distinct : c.broadcast.Nodup)
    (serving : c.serving = true) (ends : c.queuedEvents = queued ++ [last])
    (received : c.broadcast[place]? = some last) (before : place < c.next)
    (lags : c.next + retained < c.broadcast.length)
    (found : c.broadcast[c.broadcast.length - retained]? = some event) :
    ¬ NoSilentGap { c with queuedEvents := c.queuedEvents ++ [event] } := by
  intro law
  obtain ⟨⟨pre, post, run⟩, _⟩ := law serving
  have log : c.broadcast =
      (c.broadcast.take c.subscribed ++ pre ++ queued) ++ last :: event :: post := by
    have whole := List.take_append_drop c.subscribed c.broadcast
    rw [← run, ends] at whole
    simpa using whole.symm
  generalize c.broadcast.take c.subscribed ++ pre ++ queued = front at log
  -- In a log without repetitions, the two events have one place each.
  have lastAt : c.broadcast[front.length]? = some last := by
    rw [log, List.getElem?_append_right le_rfl, Nat.sub_self]
    rfl
  have eventAt : c.broadcast[front.length + 1]? = some event := by
    rw [log, List.getElem?_append_right (Nat.le_add_right _ 1), Nat.add_sub_cancel_left]
    rfl
  have lastPlace : place = front.length :=
    (List.getElem?_inj (List.getElem?_eq_some_iff.mp received).1 distinct).mp
      (received.trans lastAt.symm)
  have eventPlace : c.broadcast.length - retained = front.length + 1 :=
    (List.getElem?_inj (List.getElem?_eq_some_iff.mp found).1 distinct).mp
      (found.trans eventAt.symm)
  omega

/-! ### A queue for one message -/

def fresh : Connection ℕ String where
  broadcast := []
  subscribed := 0
  next := 0
  eventTask := .receiving
  serving := true
  writing := true
  queue := []
  queuedEvents := []
  turnedAway := false

theorem fresh_starts : fresh.Starts := ⟨rfl, rfl, rfl, rfl, rfl, rfl⟩

/-- Two events, with no progress of the writer between them. -/
def twoEvents : List (StreamLabel ℕ String) := [.emit 1, .emit 2, .recv, .forward, .recv, .forward]

/-- The second event is turned away, and the connection goes on. -/
theorem second_event_turned_away :
    ¬ ∀ c, (gateway ℕ String 1024 1).Reachable c → NoSilentGap c := by
  intro law
  obtain ⟨c, reached, lost⟩ := TransitionSystem.exists_of_run?
    (TransitionSystem.ReachableWhen.init fresh_starts : (gateway ℕ String 1024 1).Reachable fresh)
    (show ((gateway ℕ String 1024 1).run? (fun _ _ => True) fresh twoEvents).map
      (fun c => (c.serving, c.turnedAway)) = some (true, true) by rfl)
  obtain ⟨serving, turnedAway⟩ := Prod.ext_iff.mp lost
  exact Bool.noConfusion (turnedAway.symm.trans (law c reached serving).2)

/-- With room for both, they are queued in order. -/
theorem both_events_queued :
    ∃ c, (gateway ℕ String 1024 2).ReachableWhen (KeepsUp 1024 2) c ∧
      c.queuedEvents = [1, 2] ∧ NoSilentGap c := by
  obtain ⟨c, reached, queued⟩ := TransitionSystem.exists_of_run?
    (TransitionSystem.ReachableWhen.init fresh_starts :
      (gateway ℕ String 1024 2).ReachableWhen (KeepsUp 1024 2) fresh)
    (show ((gateway ℕ String 1024 2).run? (KeepsUp 1024 2) fresh twoEvents).map
      Connection.queuedEvents = some [1, 2] by decide)
  exact ⟨c, reached, queued, noSilentGap_of_reachable reached⟩

end KelvinClaw.Gateway
