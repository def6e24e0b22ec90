import KelvinClaw.Gateway.AuthFailures
import KelvinClaw.Gateway.EventStream
import KelvinClaw.Library.Permits

/-!
# The connection limit of the gateway

The accept loop hands every socket a permit of a semaphore, and a socket that finds none is
dropped. The permit is given back when `handle_connection` returns. For each socket that task
spawns a writer, which owns the half of the socket that is written to, and after the connect
request an event task; both go on by themselves, and end when they are aborted, when the writer
cannot write, or when the queue between them has no room or no sender left.

Every exit of `handle_connection` ends both tasks first, except for the replies that are queued
with `?`: a reply that finds no room returns at once, and leaves the tasks to themselves.

A task that is aborted takes no further step. The requests themselves are answered elsewhere, and
what an event or a payload is does not matter, so their types are parameters.
-/

namespace KelvinClaw.Gateway

open Systems Systems.Permits

variable {ε π : Type}

/-! ### Frames -/

/-- A `ClientFrame`, less the parameters of its request, which only `handle_request` reads. -/
structure ClientFrame where
  id : String
  method : String
  deriving DecidableEq, Repr

/-- The `Res` frames of `ServerFrame`. -/
inductive Response (π : Type) where
  | ok (id : String) (payload : π)
  | error (reply : ErrorReply)
  deriving DecidableEq, Repr

def gatewayMethodsV1 : List String :=
  ["agent", "agent.outcome", "agent.state", "agent.wait", "channel.discord.ingest",
    "channel.discord.status", "channel.route.inspect", "channel.slack.ingest",
    "channel.slack.status", "channel.telegram.ingest", "channel.telegram.pair.approve",
    "channel.telegram.status", "channel.whatsapp.ingest", "channel.whatsapp.status",
    "command.exec", "commands.list", "connect", "health", "operator.plugins.inspect",
    "operator.runs.list", "operator.session.get", "operator.sessions.list", "run.outcome",
    "run.state", "run.submit", "run.wait", "schedule.history", "schedule.list"]

def isSupportedMethod (method : String) : Bool :=
  gatewayMethodsV1.contains method

/-- What `source.next()` yields once the socket is connected. A text message is already parsed. -/
inductive Incoming where
  | text (frame : Except String ClientFrame)
  | close
  | other
  | failed (error : String)
  | ended
  deriving Repr

/-! ### A socket -/

/-- Where `handle_connection` stands. While it is `joining` it has dropped its sender and waits
for the writer. -/
inductive Place where
  | upgrading
  | awaitingConnect
  | awaitingFrame
  | handling (id : String)
  | joining
  | returned
  deriving DecidableEq, Repr

/-- The writer waits for a message of the queue, or for the socket to take one. -/
inductive WriterTask (ε π : Type) where
  | receiving
  | sending (message : Message ε (Response π))
  deriving DecidableEq, Repr

/-- An accepted socket: `handle_connection`, the writer and the event task as far as they run,
the queue between them, and what was written to the socket. -/
structure Socket (ε π : Type) where
  place : Place
  writerTask : Option (WriterTask ε π)
  eventTask : Bool
  queue : List (Message ε (Response π))
  written : List (Message ε (Response π))
  deriving DecidableEq, Repr

/-- The steps of the three tasks, with what their surroundings make of them. -/
inductive SocketEvent (ε π : Type) where
  | upgradeFailed
  | upgraded (backoffRemainingMs : Option ℕ)
  | connect (message : FirstMessage) (greeting : π)
  | receive (message : Incoming)
  | answer (result : Except GatewayErrorPayload π)
  | joined
  | event (event : ε)
  | lagged
  | eventsClosed
  | take
  | sent
  | sendFailed

namespace Socket

def new : Socket ε π where
  place := .upgrading
  writerTask := none
  eventTask := false
  queue := []
  written := []

/-- A permit is held until `handle_connection` returns. -/
def holdsPermit (socket : Socket ε π) : Bool := socket.place ≠ .returned

def tasksRun (socket : Socket ε π) : Bool := socket.writerTask.isSome || socket.eventTask

/-- A socket is served by `handle_connection` or by a task it spawned. -/
def served (socket : Socket ε π) : Bool := socket.holdsPermit || socket.tasksRun

/-- Somebody can still put a message into the queue. -/
def hasSender (socket : Socket ε π) : Bool :=
  match socket.place with
  | .awaitingConnect | .awaitingFrame | .handling _ => true
  | .upgrading | .joining | .returned => socket.eventTask

/-- `try_send` into the queue of the writer. -/
def trySend (room : ℕ) (message : Message ε (Response π)) (socket : Socket ε π) :
    Option (Socket ε π) :=
  if socket.writerTask.isSome = true ∧ socket.queue.length < room then
    some { socket with queue := socket.queue ++ [message] }
  else none

/-- A message that is queued if there is room, `let _ = writer_tx.try_send(..)`. -/
def offer (room : ℕ) (message : Message ε (Response π)) (socket : Socket ε π) : Socket ε π :=
  (socket.trySend room message).getD socket

/-- A response that is queued with `?`: without room for it `handle_connection` returns. -/
def reply (room : ℕ) (response : Response π) (onwards : Socket ε π → Socket ε π)
    (socket : Socket ε π) : Socket ε π :=
  match socket.trySend room (.res response) with
  | some sent => onwards sent
  | none => { socket with place := .returned }

def abortWriter (socket : Socket ε π) : Socket ε π :=
  { socket with writerTask := none, queue := [] }

def abortEvents (socket : Socket ε π) : Socket ε π :=
  { socket with eventTask := false }

/-- `drop(writer_tx); let _ = writer_task.await`. -/
def join (socket : Socket ε π) : Socket ε π :=
  { socket with place := .joining }

def refuse (room : ℕ) (error : ErrorReply) (socket : Socket ε π) : Socket ε π :=
  (socket.offer room (.res (.error error))).offer room .close

def upgraded (room : ℕ) (backoffRemainingMs : Option ℕ) (socket : Socket ε π) : Socket ε π :=
  let spawned := { socket with writerTask := some .receiving }
  match backoffRemainingMs with
  | some remainingMs =>
    let message := s!"auth backoff active; retry after {remainingMs}ms"
    (spawned.refuse room ⟨"", "unauthorized", message⟩).join
  | none => { spawned with place := .awaitingConnect }

def greet (authToken : Option String) (message : FirstMessage) (greeting : π) :
    Except (Option ErrorReply) (Response π) :=
  match connectRequest message with
  | .error error => .error error
  | .ok (id, params) =>
    match verifyAuthToken authToken params.auth with
    | .error error => .error (some ⟨id, error⟩)
    | .ok () => .ok (.ok id greeting)

/-- The first message. The event task is spawned once the response to it is queued. -/
def connect (room : ℕ) (authToken : Option String) (message : FirstMessage) (greeting : π)
    (socket : Socket ε π) : Socket ε π :=
  match greet authToken message greeting with
  | .error (some error) => (socket.refuse room error).join
  | .error none => { socket.abortWriter with place := .returned }
  | .ok response =>
    socket.reply room response fun sent =>
      { sent with place := .awaitingFrame, eventTask := true }

def rejectFrame (frame : ClientFrame) : Option ErrorReply :=
  if frame.method = "connect" then
    some ⟨frame.id, "invalid_request", "connect can only be sent once per socket"⟩
  else if isSupportedMethod frame.method = false then
    some ⟨frame.id, "method_not_found", s!"unknown method: {frame.method}"⟩
  else none

def receive (room : ℕ) (message : Incoming) (socket : Socket ε π) : Socket ε π :=
  match message with
  | .text (.error error) =>
    (socket.refuse room ⟨"", "invalid_request", error⟩).abortEvents.join
  | .text (.ok frame) =>
    match rejectFrame frame with
    | some error => socket.reply room (.error error) id
    | none => { socket with place := .handling frame.id }
  | .close | .ended => socket.abortEvents.join
  | .other => socket
  | .failed _ => { socket.abortEvents.abortWriter with place := .returned }

/-- The response to a request that `handle_request` answered. -/
def answered (id : String) : Except GatewayErrorPayload π → Response π
  | .ok payload => .ok id payload
  | .error error => .error ⟨id, error⟩

/-- The loop waits for the next message after a response. -/
def awaitFrame (socket : Socket ε π) : Socket ε π :=
  { socket with place := .awaitingFrame }

def forward (room : ℕ) (event : ε) (socket : Socket ε π) : Socket ε π :=
  (socket.trySend room (.event event)).getD socket.abortEvents

/-- The writer receives the next message. It ends when nobody can send any more. -/
def take (socket : Socket ε π) : Option (Socket ε π) :=
  match socket.queue with
  | message :: rest => some { socket with writerTask := some (.sending message), queue := rest }
  | [] => if socket.hasSender then none else some socket.abortWriter

def step (room : ℕ) (authToken : Option String) (socket : Socket ε π) :
    SocketEvent ε π → Option (Socket ε π)
  | .upgradeFailed =>
    match socket.place with
    | .upgrading => some { socket with place := .returned }
    | _ => none
  | .upgraded backoffRemainingMs =>
    match socket.place with
    | .upgrading => some (socket.upgraded room backoffRemainingMs)
    | _ => none
  | .connect message greeting =>
    match socket.place with
    | .awaitingConnect => some (socket.connect room authToken message greeting)
    | _ => none
  | .receive message =>
    match socket.place with
    | .awaitingFrame => some (socket.receive room message)
    | _ => none
  | .answer result =>
    match socket.place with
    | .handling id => some (socket.reply room (answered id result) awaitFrame)
    | _ => none
  | .joined =>
    match socket.place, socket.writerTask with
    | .joining, none => some { socket with place := .returned }
    | _, _ => none
  | .event event => if socket.eventTask then some (socket.forward room event) else none
  | .lagged => if socket.eventTask then some socket else none
  | .eventsClosed => if socket.eventTask then some socket.abortEvents else none
  | .take =>
    match socket.writerTask with
    | some .receiving => socket.take
    | _ => none
  | .sent =>
    match socket.writerTask with
    | some (.sending message) =>
      some { socket with
        writerTask := some .receiving
        written := socket.written ++ [message] }
    | _ => none
  | .sendFailed =>
    match socket.writerTask with
    | some (.sending _) => some socket.abortWriter
    | _ => none

end Socket

/-! ### The accept loop -/

/-- The free permits of `connection_semaphore`, and the sockets accepted so far. -/
structure Sockets (ε π : Type) where
  available : ℕ
  sockets : List (Socket ε π)
  deriving DecidableEq, Repr

/-- The listener accepts a socket, or a socket takes a step. -/
inductive AcceptLabel (ε π : Type) where
  | accept
  | socket (index : ℕ) (event : SocketEvent ε π)

namespace Sockets

def start (maxConnections : ℕ) : Sockets ε π := ⟨maxConnections, []⟩

def accept (s : Sockets ε π) : Sockets ε π :=
  if s.available = 0 then s
  else { available := s.available - 1, sockets := s.sockets ++ [.new] }

/-- A socket takes a step, and its permit is given back once `handle_connection` returned. -/
def stepSocket (room : ℕ) (authToken : Option String) (s : Sockets ε π) (index : ℕ)
    (event : SocketEvent ε π) : Option (Sockets ε π) := do
  let socket ← s.sockets[index]?
  let next ← socket.step room authToken event
  return {
    available := s.available + released Socket.holdsPermit socket next
    sockets := s.sockets.set index next }

def servedCount (s : Sockets ε π) : ℕ := s.sockets.countP Socket.served

end Sockets

def acceptLoop (ε π : Type) (maxConnections room : ℕ) (authToken : Option String) :
    TransitionSystem (Sockets ε π) (AcceptLabel ε π) where
  init s := s = .start maxConnections
  step s label :=
    match label with
    | .accept => some s.accept
    | .socket index event => s.stepSocket room authToken index event

/-! ### The limit -/

/-- Once `handle_connection` returned no task of the socket forwards or writes any more, and at
most `max_connections` sockets are served. -/
structure WithinLimit (maxConnections : ℕ) (s : Sockets ε π) : Prop where
  ended : ∀ socket ∈ s.sockets, socket.place = .returned → socket.tasksRun = false
  limited : s.servedCount ≤ maxConnections

/-- The response that an event makes `handle_connection` queue with `?`. -/
def Socket.owedReply (authToken : Option String) (socket : Socket ε π) :
    SocketEvent ε π → Option (Response π)
  | .connect message greeting =>
    match socket.place with
    | .awaitingConnect => (greet authToken message greeting).toOption
    | _ => none
  | .receive (.text (.ok frame)) =>
    match socket.place with
    | .awaitingFrame => (rejectFrame frame).map .error
    | _ => none
  | .answer result =>
    match socket.place with
    | .handling id => some (answered id result)
    | _ => none
  | _ => none

/-- A response finds no room in the queue, or no writer that takes it out, while the writer or
the event task of its connection runs. -/
def LeavesTasks (room : ℕ) (authToken : Option String) (s : Sockets ε π) :
    AcceptLabel ε π → Prop
  | .accept => False
  | .socket index event =>
    ∃ socket, s.sockets[index]? = some socket ∧
      ∃ response, socket.owedReply authToken event = some response ∧
        ¬ (socket.writerTask.isSome = true ∧ socket.queue.length < room) ∧
          socket.tasksRun = true

/-! ### What a step does to the tasks -/

/-- The events of the tasks that `handle_connection` spawns. -/
def SocketEvent.OfTasks : SocketEvent ε π → Prop
  | .event _ | .lagged | .eventsClosed | .take | .sent | .sendFailed => True
  | _ => False

namespace Socket

variable {room : ℕ} {authToken : Option String} {socket next : Socket ε π}

/-- The tasks that may run where `handle_connection` stands: none before the upgrade and after
the return, and an event task in the loop only. -/
structure Supervised (socket : Socket ε π) : Prop where
  writer : socket.place = .upgrading ∨ socket.place = .returned → socket.writerTask = none
  events : socket.place = .upgrading ∨ socket.place = .awaitingConnect ∨
    socket.place = .joining ∨ socket.place = .returned → socket.eventTask = false

theorem offer_eq (room : ℕ) (message : Message ε (Response π)) :
    ∃ queue, socket.offer room message = { socket with queue := queue } := by
  unfold offer trySend
  split
  · exact ⟨_, rfl⟩
  · exact ⟨socket.queue, rfl⟩

theorem refuse_eq (room : ℕ) (error : ErrorReply) :
    ∃ queue, socket.refuse room error = { socket with queue := queue } := by
  obtain ⟨first, offered⟩ := socket.offer_eq room (.res (.error error))
  obtain ⟨second, closed⟩ :=
    (socket.offer room (.res (.error error))).offer_eq room .close
  refine ⟨second, ?_⟩
  rw [refuse, closed, offered]

/-- With room a response is queued, and without it `handle_connection` returns. -/
theorem reply_eq (response : Response π) (onwards : Socket ε π → Socket ε π) :
    socket.reply room response onwards =
      if socket.writerTask.isSome = true ∧ socket.queue.length < room then
        onwards { socket with queue := socket.queue ++ [.res response] }
      else { socket with place := .returned } := by
  unfold reply trySend
  by_cases fits : socket.writerTask.isSome = true ∧ socket.queue.length < room
  · rw [if_pos fits, if_pos fits]
  · rw [if_neg fits, if_neg fits]

theorem tasksRun_eq_false_iff :
    socket.tasksRun = false ↔ socket.writerTask = none ∧ socket.eventTask = false := by
  simp [tasksRun]

theorem Supervised.reply {response : Response π} {onwards : Socket ε π → Socket ε π}
    (idle : ¬ (socket.writerTask.isSome = true ∧ socket.queue.length < room) →
      socket.tasksRun = false)
    (supervised : ∀ queue, (onwards { socket with queue := queue }).Supervised) :
    (socket.reply room response onwards).Supervised := by
  rw [reply_eq]
  split_ifs with fits
  · exact supervised _
  · obtain ⟨writer, events⟩ := tasksRun_eq_false_iff.mp (idle fits)
    exact ⟨fun _ => writer, fun _ => events⟩

theorem Supervised.of_awaitingFrame (here : socket.place = .awaitingFrame) :
    socket.Supervised := by
  refine ⟨fun outside => ?_, fun outside => ?_⟩ <;> simp [here] at outside

theorem Supervised.of_handling {id : String} (here : socket.place = .handling id) :
    socket.Supervised := by
  refine ⟨fun outside => ?_, fun outside => ?_⟩ <;> simp [here] at outside

theorem Supervised.join (events : socket.eventTask = false) : socket.join.Supervised := by
  refine ⟨fun outside => ?_, fun _ => events⟩
  simp [Socket.join] at outside

/-- What a step of the tasks does: it may stop one, and `handle_connection` stays where it is. -/
structure StopsTasks (socket next : Socket ε π) : Prop where
  place : next.place = socket.place
  writer : socket.writerTask = none → next.writerTask = none
  events : socket.eventTask = false → next.eventTask = false

theorem Supervised.of_stopsTasks (supervised : socket.Supervised)
    (stops : socket.StopsTasks next) : next.Supervised := by
  constructor
  · intro outside
    exact stops.writer (supervised.writer (stops.place ▸ outside))
  · intro outside
    exact stops.events (supervised.events (stops.place ▸ outside))

theorem stopsTasks_of_take (running : socket.writerTask = some .receiving)
    (moves : socket.take = some next) : socket.StopsTasks next := by
  unfold Socket.take at moves
  split at moves
  · obtain rfl := Option.some_inj.mp moves
    exact ⟨rfl, fun none => by simp [running] at none, id⟩
  · split_ifs at moves
    obtain rfl := Option.some_inj.mp moves
    exact ⟨rfl, fun _ => rfl, id⟩

theorem stopsTasks_of_step {event : SocketEvent ε π}
    (moves : socket.step room authToken event = some next) (ofTasks : event.OfTasks) :
    socket.StopsTasks next := by
  cases event with
  | event event =>
    simp only [Socket.step, Socket.forward, trySend] at moves
    split_ifs at moves
    · obtain rfl := Option.some_inj.mp moves
      exact ⟨rfl, id, id⟩
    · -- the queue is full or closed, and the event task ends
      obtain rfl := Option.some_inj.mp moves
      exact ⟨rfl, id, fun _ => rfl⟩
  | lagged =>
    simp only [Socket.step] at moves
    split_ifs at moves
    obtain rfl := Option.some_inj.mp moves
    exact ⟨rfl, id, id⟩
  | eventsClosed =>
    simp only [Socket.step] at moves
    split_ifs at moves
    obtain rfl := Option.some_inj.mp moves
    exact ⟨rfl, id, fun _ => rfl⟩
  | take =>
    simp only [Socket.step] at moves
    split at moves
    next running => exact stopsTasks_of_take running moves
    next => cases moves
  | sent =>
    simp only [Socket.step] at moves
    split at moves <;> cases moves
    next message running => exact ⟨rfl, fun none => by simp [running] at none, id⟩
  | sendFailed =>
    simp only [Socket.step] at moves
    split at moves <;> cases moves
    exact ⟨rfl, fun _ => rfl, id⟩
  | _ => exact ofTasks.elim

theorem Supervised.upgraded (supervised : socket.Supervised) (here : socket.place = .upgrading)
    (backoffRemainingMs : Option ℕ) : (socket.upgraded room backoffRemainingMs).Supervised := by
  have events : socket.eventTask = false := supervised.events (.inl here)
  unfold Socket.upgraded
  cases backoffRemainingMs with
  | none => exact ⟨fun outside => by simp at outside, fun _ => events⟩
  | some remainingMs =>
    obtain ⟨queue, refused⟩ :=
      ({ socket with writerTask := some .receiving } : Socket ε π).refuse_eq room
        ⟨"", "unauthorized", s!"auth backoff active; retry after {remainingMs}ms"⟩
    refine Supervised.join ?_
    rw [refused]
    exact events

theorem Supervised.connect (supervised : socket.Supervised)
    (here : socket.place = .awaitingConnect) {message : FirstMessage} {greeting : π}
    (idle : ∀ response, greet authToken message greeting = .ok response →
      ¬ (socket.writerTask.isSome = true ∧ socket.queue.length < room) →
        socket.tasksRun = false) :
    (socket.connect room authToken message greeting).Supervised := by
  have events : socket.eventTask = false := supervised.events (.inr (.inl here))
  unfold Socket.connect
  cases greeted : greet authToken message greeting with
  | ok response =>
    exact Supervised.reply (idle response greeted) fun queue => .of_awaitingFrame rfl
  | error error =>
    cases error with
    | none => exact ⟨fun _ => rfl, fun _ => events⟩
    | some error =>
      obtain ⟨queue, refused⟩ := socket.refuse_eq room error
      refine Supervised.join ?_
      rw [refused]
      exact events

theorem Supervised.receive (here : socket.place = .awaitingFrame) {message : Incoming}
    (idle : ∀ frame error, message = .text (.ok frame) → rejectFrame frame = some error →
      ¬ (socket.writerTask.isSome = true ∧ socket.queue.length < room) →
        socket.tasksRun = false) :
    (socket.receive room message).Supervised := by
  cases message with
  | close => exact .join rfl
  | ended => exact .join rfl
  | other => exact .of_awaitingFrame here
  | failed error => exact ⟨fun _ => rfl, fun _ => rfl⟩
  | text frame =>
    cases frame with
    | error error => exact .join rfl
    | ok frame =>
      cases rejected : rejectFrame frame with
      | none =>
        simp only [Socket.receive, rejected]
        exact .of_handling rfl
      | some error =>
        simp only [Socket.receive, rejected]
        refine Supervised.reply (idle frame error rfl rejected) fun queue => ?_
        exact .of_awaitingFrame here

/-- What one step keeps, when the response it owes leaves no task behind. -/
theorem Supervised.step (supervised : socket.Supervised) {event : SocketEvent ε π}
    (idle : ∀ response, socket.owedReply authToken event = some response →
      ¬ (socket.writerTask.isSome = true ∧ socket.queue.length < room) →
        socket.tasksRun = false)
    (moves : socket.step room authToken event = some next) : next.Supervised := by
  cases event with
  | upgradeFailed =>
    simp only [Socket.step] at moves
    split at moves <;> cases moves
    next here =>
      exact ⟨fun _ => supervised.writer (.inl here), fun _ => supervised.events (.inl here)⟩
  | upgraded backoffRemainingMs =>
    simp only [Socket.step] at moves
    split at moves <;> cases moves
    next here => exact supervised.upgraded here backoffRemainingMs
  | connect message greeting =>
    simp only [Socket.step] at moves
    split at moves <;> cases moves
    next here =>
      refine supervised.connect here fun response greeted => idle response ?_
      simp [owedReply, here, greeted, Except.toOption]
  | receive message =>
    simp only [Socket.step] at moves
    split at moves <;> cases moves
    next here =>
      refine Supervised.receive here fun frame error text rejected => idle (.error error) ?_
      simp [text, owedReply, here, rejected]
  | answer result =>
    simp only [Socket.step] at moves
    split at moves <;> cases moves
    next id here =>
      refine Supervised.reply (idle (answered id result) ?_) fun queue => .of_awaitingFrame rfl
      simp [owedReply, here]
  | joined =>
    simp only [Socket.step] at moves
    split at moves <;> cases moves
    next here writer =>
      exact ⟨fun _ => writer, fun _ => supervised.events (.inr (.inr (.inl here)))⟩
  | _ => exact supervised.of_stopsTasks (stopsTasks_of_step moves trivial)

theorem step_of_owedReply (room : ℕ) {event : SocketEvent ε π} {response : Response π}
    (owed : socket.owedReply authToken event = some response) :
    ∃ onwards, socket.step room authToken event =
      some (socket.reply room response onwards) := by
  cases event with
  | connect message greeting =>
    simp only [owedReply] at owed
    split at owed
    next here =>
      cases greeted : greet authToken message greeting with
      | error error => simp [greeted, Except.toOption] at owed
      | ok known =>
        obtain rfl : known = response := by simpa [greeted, Except.toOption] using owed
        simp only [Socket.step, here, Socket.connect, greeted]
        exact ⟨_, rfl⟩
    next => cases owed
  | receive message =>
    unfold owedReply at owed
    split at owed
    next => simp at *
    next frame same =>
      cases same
      split at owed
      next here =>
        obtain ⟨error, rejected, rfl⟩ := Option.map_eq_some_iff.mp owed
        simp only [Socket.step, here, Socket.receive, rejected]
        exact ⟨_, rfl⟩
      next => cases owed
    next => simp at *
    next => cases owed
  | answer result =>
    simp only [owedReply] at owed
    split at owed
    next id here =>
      obtain rfl := Option.some_inj.mp owed
      simp only [Socket.step, here]
      exact ⟨_, rfl⟩
    next => cases owed
  | _ => cases owed

/-- A response without room ends `handle_connection` and none of its tasks. -/
theorem step_of_full {event : SocketEvent ε π} {response : Response π}
    (owed : socket.owedReply authToken event = some response)
    (full : ¬ (socket.writerTask.isSome = true ∧ socket.queue.length < room))
    (moves : socket.step room authToken event = some next) :
    next = { socket with place := .returned } := by
  obtain ⟨onwards, replies⟩ := step_of_owedReply room owed
  rw [replies, reply_eq, if_neg full] at moves
  exact (Option.some_inj.mp moves).symm

/-- `handle_connection` does not go on after it returned. -/
theorem returned_of_step {event : SocketEvent ε π} (here : socket.place = .returned)
    (moves : socket.step room authToken event = some next) : next.place = .returned := by
  cases event with
  | upgradeFailed | upgraded | connect | receive | answer | joined =>
    simp [Socket.step, here] at moves
  | _ => exact (stopsTasks_of_step moves trivial).place.trans here

end Socket

/-! ### What a step does to the sockets -/

variable {maxConnections room : ℕ} {authToken : Option String} {s t : Sockets ε π}

/-- The permits add up, and every socket runs only the tasks that its place allows. -/
structure Governed (maxConnections : ℕ) (s : Sockets ε π) : Prop where
  permits : Balanced maxConnections s.available Socket.holdsPermit s.sockets
  supervised : ∀ socket ∈ s.sockets, socket.Supervised

theorem Socket.Supervised.holdsPermit {socket : Socket ε π} (supervised : socket.Supervised)
    (served : socket.served = true) : socket.holdsPermit = true := by
  by_contra free
  have returned : socket.place = .returned := by simpa [Socket.holdsPermit] using free
  have idle : socket.tasksRun = false := Socket.tasksRun_eq_false_iff.mpr
    ⟨supervised.writer (.inr returned), supervised.events (.inr (.inr (.inr returned)))⟩
  simp [Socket.served, idle, free] at served

theorem Governed.withinLimit (governed : Governed maxConnections s) :
    WithinLimit maxConnections s where
  ended socket found returned := by
    have supervised := governed.supervised socket found
    exact Socket.tasksRun_eq_false_iff.mpr
      ⟨supervised.writer (.inr returned), supervised.events (.inr (.inr (.inr returned)))⟩
  limited := governed.permits.countP_le fun socket found =>
    (governed.supervised socket found).holdsPermit

theorem governed_start : Governed maxConnections (.start maxConnections : Sockets ε π) :=
  ⟨balanced_nil _, fun _ found => absurd found List.not_mem_nil⟩

theorem Governed.accept (governed : Governed maxConnections s) :
    Governed maxConnections s.accept := by
  unfold Sockets.accept
  split_ifs with none
  · exact governed
  · refine ⟨governed.permits.join none rfl, fun socket found => ?_⟩
    rcases List.mem_append.mp found with old | new
    · exact governed.supervised socket old
    · obtain rfl := List.mem_singleton.mp new
      exact ⟨fun _ => rfl, fun _ => rfl⟩

theorem stepSocket_eq_some_iff {index : ℕ} {event : SocketEvent ε π} :
    s.stepSocket room authToken index event = some t ↔
      ∃ socket next, s.sockets[index]? = some socket ∧
        socket.step room authToken event = some next ∧
          t = ⟨s.available + released Socket.holdsPermit socket next,
            s.sockets.set index next⟩ := by
  unfold Sockets.stepSocket
  constructor
  · intro moves
    obtain ⟨socket, found, moves⟩ := Option.bind_eq_some_iff.mp moves
    obtain ⟨next, steps, moves⟩ := Option.bind_eq_some_iff.mp moves
    exact ⟨socket, next, found, steps, (Option.some_inj.mp moves).symm⟩
  · rintro ⟨socket, next, found, steps, rfl⟩
    rw [found, Option.bind_eq_bind, Option.bind_some, steps]
    rfl

theorem Governed.step (governed : Governed maxConnections s) {label : AcceptLabel ε π}
    (ends : ¬ LeavesTasks room authToken s label)
    (moves : (acceptLoop ε π maxConnections room authToken).step s label = some t) :
    Governed maxConnections t := by
  cases label with
  | accept =>
    obtain rfl := Option.some_inj.mp moves
    exact governed.accept
  | socket index event =>
    obtain ⟨socket, next, found, steps, rfl⟩ := stepSocket_eq_some_iff.mp moves
    have before := governed.supervised socket (List.mem_of_getElem? found)
    have after : next.Supervised := by
      refine before.step (fun response owed full => ?_) steps
      by_contra running
      exact ends ⟨socket, found, response, owed, full, Bool.not_eq_false _ ▸ running⟩
    refine ⟨governed.permits.set found fun held => ?_, fun other member => ?_⟩
    · -- a permit that was given back is not taken again
      by_contra free
      have returned : socket.place = .returned := by simpa [Socket.holdsPermit] using free
      have stays := Socket.returned_of_step returned steps
      simp [Socket.holdsPermit, stays] at held
    · rcases List.mem_or_eq_of_mem_set member with old | rfl
      · exact governed.supervised other old
      · exact after

theorem not_withinLimit_of_leavesTasks {label : AcceptLabel ε π}
    (leaves : LeavesTasks room authToken s label)
    (moves : (acceptLoop ε π maxConnections room authToken).step s label = some t) :
    ¬ WithinLimit maxConnections t := by
  intro within
  cases label with
  | accept => exact leaves
  | socket index event =>
    obtain ⟨socket, found, response, owed, full, running⟩ := leaves
    obtain ⟨known, next, here, steps, rfl⟩ := stepSocket_eq_some_iff.mp moves
    obtain rfl : socket = known := Option.some_inj.mp (found.symm.trans here)
    -- `?` returns from `handle_connection` and joins no task
    obtain rfl := Socket.step_of_full owed full steps
    have inside := (List.getElem?_eq_some_iff.mp found).1
    have idle := within.ended _ (List.mem_set inside _) rfl
    exact Bool.false_ne_true (idle.symm.trans running)

/-- A run of the accept loop stays within the connection limit exactly when every response that
is queued with `?` finds room, or finds no task of its connection running any more. -/
theorem withinLimit_iff (maxConnections room : ℕ) (authToken : Option String)
    (labels : List (AcceptLabel ε π)) :
    (acceptLoop ε π maxConnections room authToken).Always (WithinLimit maxConnections)
        (.start maxConnections) labels ↔
      (acceptLoop ε π maxConnections room authToken).Meets
        (fun s label => ¬ LeavesTasks room authToken s label) (.start maxConnections) labels := by
  refine TransitionSystem.always_iff_meets (fun s => Governed.withinLimit)
    (fun s label t governed ends moves => governed.step ends moves)
    (fun s label t _ leaves moves => ?_) governed_start labels
  exact not_withinLimit_of_leavesTasks (not_not.mp leaves) moves

/-- One permit, and room for one message. The greeting is written, an event takes the room, and a
request with an unknown method ends the connection. Another socket finds the permit free, while
the first one is still written to. -/
def crowdedRun : List (AcceptLabel ℕ ℕ) :=
  [.accept, .socket 0 (.upgraded none),
    .socket 0 (.connect (.request "1" "connect" (.ok ⟨none, none⟩)) 0), .socket 0 .take,
    .socket 0 .sent, .socket 0 (.event 7), .socket 0 (.receive (.text (.ok ⟨"2", "status"⟩))),
    .accept, .socket 0 .take, .socket 0 .sent]

/-- The limit does not hold in every run: two sockets are served where one may be. -/
theorem served_past_limit :
    ¬ ∀ (maxConnections room : ℕ) (authToken : Option String) (labels : List (AcceptLabel ℕ ℕ)),
      (acceptLoop ℕ ℕ maxConnections room authToken).Always (WithinLimit maxConnections)
        (.start maxConnections) labels := by
  intro always
  have ran : (((acceptLoop ℕ ℕ 1 1 none).run? (fun _ _ => True) (.start 1) crowdedRun).map
      Sockets.servedCount) = some 2 := by decide +kernel
  obtain ⟨t, follows, served⟩ := Option.map_eq_some_iff.mp ran
  have within := ((always 1 1 none crowdedRun).of_run? follows).limited
  rw [served] at within
  exact absurd within (by decide)

end KelvinClaw.Gateway
