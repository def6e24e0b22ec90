import KelvinClaw.Core.Basic
import KelvinClaw.Library.TransitionSystem
import KelvinClaw.Tui.Transcript

/-!
# The connections of the terminal interface

A connection to the gateway has a reader and a writer. The reader turns the frames of the server
into events of the interface, and ends when the connection closes; a frame that it cannot parse
it reports, and reads on. Whenever the main loop hears of a closed connection or of a bad frame,
it drops its client and has a task dial until a new connection stands. Nothing ends the reader of
the old one, which then delivers the same events a second time.
-/

namespace KelvinClaw.Tui

open KelvinClaw.Core Systems

/-! ### Frames -/

inductive ServerFrame where
  | res (id : String) (ok : Bool) (payload : Option Value) (error : Option Value)
  | event (event : String) (payload : Value)
  deriving DecidableEq, Repr

/-- What the read half of a connection yields. -/
inductive WsMessage where
  | text (text : String)
  | close
  | error
  | other
  | finished
  deriving DecidableEq, Repr

/-- A message on its way to a reader, with the number of the broadcast it brings. -/
structure Arrival where
  broadcast : Option ℕ
  message : WsMessage
  deriving DecidableEq, Repr

/-- The parsing of frames and events, the ids of the requests that open the connections, and the
address of the gateway. -/
structure FrameFormat where
  parseFrame : String → Except String ServerFrame
  parseAgentEvent : Value → Except String AgentEvent
  connectId : ℕ → String
  gatewayUrl : String

def resultOf (ok : Bool) (payload error : Option Value) : Except String Value :=
  if ok then .ok (payload.getD .null)
  else
    match error with
    | some (.obj members) =>
      match Value.lookup "message" members with
      | some (.str message) => .error message
      | _ => .error "unknown error"
    | _ => .error "unknown error"

/-! ### The state -/

inductive WsStatus where
  | connecting
  | connected
  | disconnected
  | error (message : String)
  deriving DecidableEq, Repr

def WsStatus.down : WsStatus → Bool
  | .disconnected | .error _ => true
  | .connecting | .connected => false

/-- The events of the main loop that come from connections. The clients of connections are their
numbers. -/
inductive TuiEvent where
  | agent (broadcast : Option ℕ) (event : AgentEvent)
  | wsStatus (status : WsStatus)
  | reconnected (result : Except String ℕ)
  deriving DecidableEq

/-- Reader, writer and incoming messages of a connection, and the answer to its first request. -/
structure Connection where
  reading : Bool
  writing : Bool
  incoming : List Arrival
  answer : Option (Except String Value)

def Connection.closed : Connection := ⟨false, false, [], none⟩

def Connection.accepted : Connection := ⟨true, true, [], none⟩

/-- `WsClient::connect`, called at the start or by a reconnect task. -/
inductive Connector where
  | dialing (first : Bool)
  | handshaking (first : Bool) (conn : ℕ)
  deriving DecidableEq, Repr

def Connector.first : Connector → Bool
  | .dialing first => first
  | .handshaking first _ => first

/-- The interface with its connections, and the numbers of the broadcasts it has handled. -/
structure TuiState where
  app : App
  wsStatus : WsStatus
  wsClient : Option ℕ
  reconnecting : Bool
  connector : Option Connector
  opened : ℕ
  connections : ℕ → Connection
  events : List TuiEvent
  broadcasts : ℕ
  handled : List ℕ

namespace TuiState

variable (format : FrameFormat) (s : TuiState)

def started : Bool := s.connector.all fun connector => !connector.first

def setConnection (conn : ℕ) (connection : Connection) : TuiState :=
  { s with connections := Function.update s.connections conn connection }

def sendEvent (event : TuiEvent) : TuiState := { s with events := s.events ++ [event] }

def chatSystem (text : String) : TuiState :=
  { s with app := { s.app with chat := .system text :: s.app.chat } }

/-! ### The tasks of a connection -/

/-- A text frame: a response goes to its request, an agent event to the main loop. -/
def readText (conn : ℕ) (connection : Connection) (broadcast : Option ℕ) (text : String) :
    TuiState :=
  match format.parseFrame text with
  | .ok (.res id ok payload error) =>
    s.setConnection conn
      { connection with
        answer :=
          if id = format.connectId conn ∧ connection.answer = none then
            some (resultOf ok payload error)
          else connection.answer }
  | .ok (.event event payload) =>
    let s := s.setConnection conn connection
    if event = "agent" then
      match format.parseAgentEvent payload with
      | .ok agentEvent => s.sendEvent (.agent broadcast agentEvent)
      | .error err => s.sendEvent (.wsStatus (.error s!"failed to parse agent event: {err}"))
    else s
  | .error err =>
    (s.setConnection conn connection).sendEvent
      (.wsStatus (.error s!"failed to parse server frame: {err}"))

def read (conn : ℕ) : Option TuiState :=
  let connection := s.connections conn
  match connection.reading, connection.incoming with
  | true, arrival :: rest =>
    let connection := { connection with incoming := rest }
    match arrival.message with
    | .text text => some (s.readText format conn connection arrival.broadcast text)
    | .close | .error =>
      some ((s.setConnection conn { connection with reading := false }).sendEvent
        (.wsStatus .disconnected))
    | .finished => some (s.setConnection conn { connection with reading := false })
    | .other => some (s.setConnection conn connection)
  | _, _ => none

def writeFails (conn : ℕ) : Option TuiState :=
  if (s.connections conn).writing then
    some ((s.setConnection conn { s.connections conn with writing := false }).sendEvent
      (.wsStatus .disconnected))
  else none

/-! ### Connecting -/

/-- The call fails: the loop begins without a client, or the task tries again. -/
def connectFails (first : Bool) (err : String) : TuiState :=
  if first then
    { s with
      connector := none
      wsStatus := .error err
      app :=
        { s.app with
          lastError := some err
          chat := .system s!"Connection failed: {err}" :: s.app.chat } }
  else { s.sendEvent (.reconnected (.error err)) with connector := some (.dialing false) }

/-- The call succeeds: the loop begins with the client, or hears of it. -/
def connectSucceeds (first : Bool) (conn : ℕ) : TuiState :=
  if first then
    { s with
      connector := none
      wsStatus := .connected
      wsClient := some conn
      app := { s.app with chat := [.system s!"Connected to {format.gatewayUrl}"] } }
  else { s.sendEvent (.reconnected (.ok conn)) with connector := none }

def accept (first : Bool) : TuiState :=
  { s.setConnection s.opened .accepted with
    opened := s.opened + 1
    connector := some (.handshaking first s.opened) }

/-- `connect_async`. -/
def dial (result : Except String Unit) : Option TuiState :=
  match s.connector with
  | some (.dialing first) =>
    match result with
    | .ok _ => some (s.accept first)
    | .error err => some (s.connectFails first err)
  | _ => none

def answered : Option TuiState :=
  match s.connector with
  | some (.handshaking first conn) =>
    match (s.connections conn).answer with
    | some (.ok _) => some (s.connectSucceeds format first conn)
    | some (.error err) => some (s.connectFails first err)
    | none => none
  | _ => none

/-- The first request of the connection cannot be sent, or is not answered in time. -/
def givesUp (err : String) : Option TuiState :=
  match s.connector with
  | some (.handshaking first _) => some (s.connectFails first err)
  | _ => none

/-! ### The main loop -/

def dropClient : TuiState :=
  if s.reconnecting then { s with wsClient := none }
  else
    { s with wsClient := none, reconnecting := true, connector := some (.dialing false) }

/-- `TuiEvent::WsStatus`: the client is dropped, and a task is sent dialing if none is. -/
def handleStatus (status : WsStatus) : TuiState :=
  let s : TuiState :=
    match status with
    | .disconnected => (s.chatSystem "disconnected from gateway").dropClient
    | .error err =>
      let s := s.chatSystem s!"WS error: {err}"
      TuiState.dropClient { s with app := { s.app with lastError := some err } }
    | .connecting | .connected => s
  { s with wsStatus := status }

def handle : Option TuiState :=
  if s.started then
    match s.events with
    | [] => none
    | event :: rest =>
      let s := { s with events := rest }
      match event with
      | .agent broadcast event =>
        some
          { s with
            app := s.app.handleAgentEvent event
            handled := s.handled ++ broadcast.toList }
      | .wsStatus status => some (s.handleStatus status)
      | .reconnected (.ok conn) =>
        some (chatSystem
          { s with wsClient := some conn, reconnecting := false, wsStatus := .connected }
          s!"reconnected to {format.gatewayUrl}")
      | .reconnected (.error _) => some s
  else none

end TuiState

/-! ### Runs -/

/-- The steps: the server sends a message to a connection, or broadcasts an event to some
connections; tasks and main loop go on. -/
inductive TuiStep where
  | send (conn : ℕ) (message : WsMessage)
  | broadcast (text : String) (receives : ℕ → Bool)
  | read (conn : ℕ)
  | writeFails (conn : ℕ)
  | dial (result : Except String Unit)
  | answered
  | givesUp (err : String)
  | handle

namespace TuiState

variable (format : FrameFormat) (s : TuiState)

def deliver (arrival : Arrival) (connection : Connection) : Connection :=
  { connection with incoming := connection.incoming ++ [arrival] }

def broadcastTo (text : String) (receives : ℕ → Bool) : TuiState :=
  { s with
    broadcasts := s.broadcasts + 1
    connections := fun conn =>
      if receives conn then deliver ⟨some s.broadcasts, .text text⟩ (s.connections conn)
      else s.connections conn }

def step : TuiStep → Option TuiState
  | .send conn message =>
    some (s.setConnection conn (deliver ⟨none, message⟩ (s.connections conn)))
  | .broadcast text receives => some (s.broadcastTo text receives)
  | .read conn => s.read format conn
  | .writeFails conn => s.writeFails conn
  | .dial result => s.dial result
  | .answered => s.answered format
  | .givesUp err => s.givesUp err
  | .handle => s.handle format

def initial (app : App) : TuiState :=
  ⟨app, .connecting, none, false, some (.dialing true), 0, fun _ => .closed, [], 0, []⟩

end TuiState

/-- The interface, from before its first connection. -/
def tui (format : FrameFormat) : TransitionSystem TuiState TuiStep where
  init s := ∃ app, s = .initial app
  step := TuiState.step format

namespace TuiState

variable (s : TuiState)

def Silent : Prop := ∀ conn < s.opened, (s.connections conn).reading = false

/-- At most one reader runs, and no broadcast is handled twice. -/
def DeliversOnce : Prop :=
  (∀ conn other, (s.connections conn).reading = true → (s.connections other).reading = true →
    conn = other) ∧ s.handled.Nodup

/-- The step sends a task dialing: the main loop starts one, or a task has to try again. -/
def redials : TuiStep → Bool
  | .handle =>
    match s.events with
    | .wsStatus status :: _ => s.started && !s.reconnecting && status.down
    | _ => false
  | .answered =>
    match s.connector with
    | some (.handshaking false conn) =>
      match (s.connections conn).answer with
      | some (.error _) => true
      | _ => false
    | _ => false
  | .givesUp _ =>
    match s.connector with
    | some (.handshaking false _) => true
    | _ => false
  | _ => false

def RedialsQuietly (step : TuiStep) : Prop := s.redials step = true → s.Silent

end TuiState


/-! ### Broadcasts on their way -/

def TuiEvent.broadcast : TuiEvent → Option ℕ
  | .agent broadcast _ => broadcast
  | .wsStatus _ | .reconnected _ => none

def TuiEvent.succeeded : TuiEvent → Bool
  | .reconnected (.ok _) => true
  | _ => false

def Connection.live (connection : Connection) : List ℕ :=
  if connection.reading then connection.incoming.filterMap Arrival.broadcast else []

namespace TuiState

variable {format : FrameFormat} {s t : TuiState}

def ahead (s : TuiState) : List ℕ := s.handled ++ s.events.filterMap TuiEvent.broadcast

def trail (s : TuiState) (conn : ℕ) : List ℕ := s.ahead ++ (s.connections conn).live

/-- What every step keeps that does not dial with a reader running: at most one reader runs, none
while a task is about to dial, and every trail has each broadcast once. -/
structure Orderly (s : TuiState) : Prop where
  unopened : ∀ conn, s.opened ≤ conn → (s.connections conn).reading = false
  idle : ∀ first, s.connector = some (.dialing first) → s.Silent
  alone : ∀ conn other, (s.connections conn).reading = true →
    (s.connections other).reading = true → conn = other
  once : ∀ conn, (s.trail conn).Nodup
  past : ∀ conn, ∀ n ∈ s.trail conn, n < s.broadcasts

/-- A step that opens no connection and brings no broadcast: no reader starts, and trails get
shorter. -/
structure Settles (s t : TuiState) : Prop where
  opened : t.opened = s.opened
  broadcasts : t.broadcasts = s.broadcasts
  readers : ∀ conn, (t.connections conn).reading = true → (s.connections conn).reading = true
  trails : ∀ conn, ∃ other, (t.trail conn).Sublist (s.trail other)

theorem Orderly.silent_iff (orderly : s.Orderly) :
    s.Silent ↔ ∀ conn, (s.connections conn).reading = false := by
  constructor
  · intro silent conn
    rcases Nat.lt_or_ge conn s.opened with opened | unopened
    · exact silent conn opened
    · exact orderly.unopened conn unopened
  · exact fun silent conn _ => silent conn

theorem Settles.quiet (settles : Settles s t) {conn : ℕ}
    (quiet : (s.connections conn).reading = false) : (t.connections conn).reading = false := by
  cases reads : (t.connections conn).reading with
  | false => rfl
  | true => exact absurd (settles.readers conn reads) (by simp [quiet])

/-- Such a step keeps order, if no task is sent dialing with a reader running. -/
theorem Orderly.of_settles (orderly : s.Orderly) (settles : Settles s t)
    (idle : ∀ first, t.connector = some (.dialing first) → s.Silent) : t.Orderly where
  unopened conn unopened := settles.quiet (orderly.unopened conn (settles.opened ▸ unopened))
  idle first dialing conn opened :=
    settles.quiet (idle first dialing conn (settles.opened ▸ opened))
  alone conn other reads alsoReads :=
    orderly.alone conn other (settles.readers conn reads) (settles.readers other alsoReads)
  once conn := by
    obtain ⟨other, shorter⟩ := settles.trails conn
    exact (orderly.once other).sublist shorter
  past conn n member := by
    obtain ⟨other, shorter⟩ := settles.trails conn
    rw [settles.broadcasts]
    exact orderly.past other n (shorter.subset member)

/-! ### Steps of tasks -/

theorem settles_of_same (opened : t.opened = s.opened) (broadcasts : t.broadcasts = s.broadcasts)
    (connections : t.connections = s.connections) (ahead : t.ahead = s.ahead) : Settles s t where
  opened := opened
  broadcasts := broadcasts
  readers conn := by rw [connections]; exact id
  trails conn := ⟨conn, by rw [trail, trail, connections, ahead]⟩

def afterRead (s : TuiState) (conn : ℕ) (connection : Connection) (sent : List TuiEvent) :
    TuiState :=
  { s with
    connections := Function.update s.connections conn connection
    events := s.events ++ sent }

theorem afterRead_self (conn : ℕ) (connection : Connection) (sent : List TuiEvent) :
    (s.afterRead conn connection sent).connections conn = connection :=
  Function.update_self ..

theorem afterRead_of_ne {conn other : ℕ} (distinct : other ≠ conn) (connection : Connection)
    (sent : List TuiEvent) :
    (s.afterRead conn connection sent).connections other = s.connections other :=
  Function.update_of_ne distinct ..

theorem setConnection_eq (conn : ℕ) (connection : Connection) :
    s.setConnection conn connection = s.afterRead conn connection [] := by
  simp [setConnection, afterRead]

theorem sendEvent_eq (conn : ℕ) (connection : Connection) (event : TuiEvent) :
    (s.setConnection conn connection).sendEvent event = s.afterRead conn connection [event] := rfl

/-- A text frame brings its broadcast to the main loop, or nothing. -/
theorem readText_cases (conn : ℕ) (connection : Connection) (broadcast : Option ℕ)
    (text : String) : ∃ read sent, read.incoming = connection.incoming ∧
      (sent.filterMap TuiEvent.broadcast).Sublist broadcast.toList ∧
      sent.countP TuiEvent.succeeded = 0 ∧
      s.readText format conn connection broadcast text = s.afterRead conn read sent := by
  unfold readText
  split
  · refine ⟨_, [], ?_, List.nil_sublist _, rfl, setConnection_eq _ _⟩
    rfl
  · split_ifs
    · split
      · refine ⟨connection, [_], rfl, ?_, ?_, sendEvent_eq _ _ _⟩
        · cases broadcast with
          | none => exact List.nil_sublist _
          | some n => exact List.Sublist.refl _
        · rfl
      · refine ⟨connection, [_], rfl, ?_, ?_, sendEvent_eq _ _ _⟩
        · exact List.nil_sublist _
        · rfl
    · exact ⟨connection, [], rfl, List.nil_sublist _, rfl, setConnection_eq _ _⟩
  · refine ⟨connection, [_], rfl, ?_, ?_, sendEvent_eq _ _ _⟩
    · exact List.nil_sublist _
    · rfl

/-- A reader takes the next message, and hands on the broadcast that it brings, or nothing. -/
theorem read_cases {conn : ℕ} (moves : s.read format conn = some t) :
    ∃ arrival rest connection sent, (s.connections conn).reading = true ∧
      (s.connections conn).incoming = arrival :: rest ∧ connection.incoming = rest ∧
      (sent.filterMap TuiEvent.broadcast).Sublist arrival.broadcast.toList ∧
      sent.countP TuiEvent.succeeded = 0 ∧ t = s.afterRead conn connection sent := by
  cases reads : (s.connections conn).reading with
  | false => simp [read, reads] at moves
  | true =>
    cases incoming : (s.connections conn).incoming with
    | nil => simp [read, incoming] at moves
    | cons arrival rest =>
      obtain ⟨broadcast, message⟩ := arrival
      refine ⟨⟨broadcast, message⟩, rest, ?_⟩
      simp only [read, reads, incoming] at moves
      cases message with
      | text text =>
        obtain ⟨read, sent, left, brings, none, same⟩ := @readText_cases format s conn
          { s.connections conn with reading := true, incoming := rest } broadcast text
        exact ⟨read, sent, rfl, rfl, left, brings, none,
          (Option.some_inj.mp moves).symm.trans same⟩
      | close | error =>
        obtain rfl := Option.some_inj.mp moves
        refine ⟨_, [_], rfl, rfl, ?_, ?_, ?_, sendEvent_eq _ _ _⟩
        · rfl
        · exact List.nil_sublist _
        · rfl
      | finished | other =>
        obtain rfl := Option.some_inj.mp moves
        refine ⟨_, [], rfl, rfl, ?_, List.nil_sublist _, rfl, setConnection_eq _ _⟩
        rfl

/-- No other reader runs, so that all trails are parts of the one that the reader took from. -/
theorem settles_read {conn : ℕ} (orderly : s.Orderly) (moves : s.read format conn = some t) :
    Settles s t := by
  obtain ⟨arrival, rest, connection, sent, reads, incoming, left, brings, _, rfl⟩ :=
    read_cases moves
  have live : (s.connections conn).live =
      arrival.broadcast.toList ++ rest.filterMap Arrival.broadcast := by
    rw [Connection.live, if_pos reads, incoming, List.filterMap_cons]
    cases arrival.broadcast <;> rfl
  have ahead : (s.afterRead conn connection sent).ahead =
      s.ahead ++ sent.filterMap TuiEvent.broadcast := by
    simp [TuiState.ahead, afterRead]
  have quiet : ∀ other, other ≠ conn → (s.connections other).reading = false := by
    intro other distinct
    by_contra reading
    exact distinct (orderly.alone other conn (by simpa using reading) reads)
  refine ⟨rfl, rfl, fun other reading => ?_, fun other => ⟨conn, ?_⟩⟩
  · by_cases same : other = conn
    · rw [same]
      exact reads
    · rwa [afterRead_of_ne same] at reading
  · rw [trail, trail, ahead, live, List.append_assoc]
    apply (List.Sublist.refl _).append
    apply brings.append
    by_cases same : other = conn
    · rw [same, afterRead_self, Connection.live, left]
      split
      · exact List.Sublist.refl _
      · exact List.nil_sublist _
    · rw [afterRead_of_ne same, Connection.live, quiet other same]
      exact List.nil_sublist _

theorem settles_update {conn : ℕ} {connection : Connection} {sent : List TuiEvent}
    (reading : connection.reading = (s.connections conn).reading)
    (live : connection.live = (s.connections conn).live)
    (brings : sent.filterMap TuiEvent.broadcast = []) :
    Settles s (s.afterRead conn connection sent) := by
  have ahead : (s.afterRead conn connection sent).ahead = s.ahead := by
    simp [TuiState.ahead, afterRead, brings]
  refine ⟨rfl, rfl, fun other reads => ?_, fun other => ⟨other, ?_⟩⟩
  · by_cases same : other = conn
    · subst same
      rwa [afterRead_self, reading] at reads
    · rwa [afterRead_of_ne same] at reads
  · by_cases same : other = conn
    · subst same
      rw [trail, trail, ahead, afterRead_self, live]
    · rw [trail, trail, ahead, afterRead_of_ne same]

theorem settles_send (conn : ℕ) (message : WsMessage) :
    Settles s (s.setConnection conn (deliver ⟨none, message⟩ (s.connections conn))) := by
  have live : (deliver ⟨none, message⟩ (s.connections conn)).live = (s.connections conn).live := by
    simp [Connection.live, deliver]
  rw [setConnection_eq]
  exact settles_update rfl live rfl

theorem settles_writeFails {conn : ℕ} (moves : s.writeFails conn = some t) : Settles s t := by
  unfold writeFails at moves
  split_ifs at moves
  obtain rfl := Option.some_inj.mp moves
  rw [sendEvent_eq]
  exact settles_update rfl rfl rfl

theorem settles_connectFails (first : Bool) (err : String) :
    Settles s (s.connectFails first err) := by
  cases first with
  | true => exact settles_of_same rfl rfl rfl rfl
  | false =>
    refine settles_of_same rfl rfl rfl ?_
    simp [connectFails, ahead, sendEvent, TuiEvent.broadcast]

theorem settles_connectSucceeds (first : Bool) (conn : ℕ) :
    Settles s (s.connectSucceeds format first conn) := by
  cases first with
  | true => exact settles_of_same rfl rfl rfl rfl
  | false =>
    refine settles_of_same rfl rfl rfl ?_
    simp [connectSucceeds, ahead, sendEvent, TuiEvent.broadcast]

theorem settles_answered (moves : s.answered format = some t) : Settles s t := by
  unfold answered at moves
  split at moves
  · split at moves
    · exact Option.some_inj.mp moves ▸ settles_connectSucceeds _ _
    · exact Option.some_inj.mp moves ▸ settles_connectFails _ _
    · cases moves
  · cases moves

theorem settles_givesUp {err : String} (moves : s.givesUp err = some t) : Settles s t := by
  unfold givesUp at moves
  split at moves
  · exact Option.some_inj.mp moves ▸ settles_connectFails _ _
  · cases moves

/-- A status concerns the client and the task, not the connections. -/
theorem handleStatus_keeps (status : WsStatus) :
    (s.handleStatus status).opened = s.opened ∧
      (s.handleStatus status).broadcasts = s.broadcasts ∧
      (s.handleStatus status).connections = s.connections ∧
      (s.handleStatus status).handled = s.handled ∧ (s.handleStatus status).events = s.events := by
  have drops : ∀ s : TuiState, s.dropClient.opened = s.opened ∧
      s.dropClient.broadcasts = s.broadcasts ∧ s.dropClient.connections = s.connections ∧
      s.dropClient.handled = s.handled ∧ s.dropClient.events = s.events := by
    intro s
    unfold dropClient
    split
    · exact ⟨rfl, rfl, rfl, rfl, rfl⟩
    · exact ⟨rfl, rfl, rfl, rfl, rfl⟩
  cases status with
  | disconnected | error _ => exact drops _
  | connecting | connected => exact ⟨rfl, rfl, rfl, rfl, rfl⟩

theorem settles_handle (moves : s.handle format = some t) : Settles s t := by
  unfold handle at moves
  split_ifs at moves
  split at moves
  · cases moves
  · rename_i event rest front
    have ahead : s.ahead = s.handled ++ event.broadcast.toList ++
        rest.filterMap TuiEvent.broadcast := by
      rw [TuiState.ahead, front, List.append_assoc, List.filterMap_cons]
      cases event.broadcast <;> rfl
    cases event with
    | agent broadcast agentEvent =>
      obtain rfl := Option.some_inj.mp moves
      exact settles_of_same rfl rfl rfl ahead.symm
    | wsStatus status =>
      obtain rfl := Option.some_inj.mp moves
      obtain ⟨opened, broadcasts, connections, handled, events⟩ :=
        @handleStatus_keeps { s with events := rest } status
      refine settles_of_same opened broadcasts connections ?_
      rw [ahead, TuiState.ahead, handled, events]
      exact congrArg (· ++ _) (List.append_nil _).symm
    | reconnected result =>
      have drained : s.handled ++ rest.filterMap TuiEvent.broadcast = s.ahead :=
        ahead.symm ▸ congrArg (· ++ _) (List.append_nil _).symm
      cases result with
      | ok conn =>
        obtain rfl := Option.some_inj.mp moves
        exact settles_of_same rfl rfl rfl drained
      | error err =>
        obtain rfl := Option.some_inj.mp moves
        exact settles_of_same rfl rfl rfl drained

/-! ### Dialing -/

theorem connector_connectFails {first again : Bool} {err : String}
    (dialing : (s.connectFails first err).connector = some (.dialing again)) : first = false := by
  cases first with
  | false => rfl
  | true => simp [connectFails] at dialing

theorem connector_connectSucceeds (first : Bool) (conn : ℕ) :
    (s.connectSucceeds format first conn).connector = none := by
  cases first <;> rfl

/-- A task that is about to dial was about to before, or is sent dialing by the main loop. -/
theorem connector_handleStatus {status : WsStatus} {first : Bool}
    (dialing : (s.handleStatus status).connector = some (.dialing first)) :
    s.connector = some (.dialing first) ∨ s.reconnecting = false ∧ status.down = true := by
  have drops : ∀ s : TuiState, s.dropClient.connector = some (.dialing first) →
      s.connector = some (.dialing first) ∨ s.reconnecting = false := by
    intro s dialing
    unfold dropClient at dialing
    split_ifs at dialing with reconnecting
    · exact Or.inl dialing
    · exact Or.inr (by simpa using reconnecting)
  cases status with
  | disconnected => exact (drops _ dialing).imp_right fun idle => ⟨idle, rfl⟩
  | error err => exact (drops _ dialing).imp_right fun idle => ⟨idle, rfl⟩
  | connecting | connected => exact Or.inl dialing

theorem connector_handle {first : Bool} (moves : s.handle format = some t)
    (dialing : t.connector = some (.dialing first)) :
    s.connector = some (.dialing first) ∨ s.redials .handle = true := by
  unfold handle at moves
  split_ifs at moves with started
  split at moves
  · cases moves
  · rename_i event rest front
    cases event with
    | agent broadcast agentEvent =>
      obtain rfl := Option.some_inj.mp moves
      exact Or.inl dialing
    | wsStatus status =>
      obtain rfl := Option.some_inj.mp moves
      apply (connector_handleStatus dialing).imp_right
      intro ⟨idle, down⟩
      have idle : s.reconnecting = false := idle
      simp [redials, front, started, idle, down]
    | reconnected result =>
      cases result with
      | ok conn =>
        obtain rfl := Option.some_inj.mp moves
        exact Or.inl dialing
      | error err =>
        obtain rfl := Option.some_inj.mp moves
        exact Or.inl dialing

/-- A task is about to dial after a step if it was before, or is sent dialing. -/
theorem connector_step {label : TuiStep} {first : Bool} (moves : s.step format label = some t)
    (dialing : t.connector = some (.dialing first)) :
    (∃ first, s.connector = some (.dialing first)) ∨ s.redials label = true := by
  -- a task that dials now did so before, or a failed attempt or a lost connection sent it
  cases label with
  | send conn message =>
    obtain rfl := Option.some_inj.mp moves
    exact Or.inl ⟨first, dialing⟩
  | broadcast text receives =>
    obtain rfl := Option.some_inj.mp moves
    exact Or.inl ⟨first, dialing⟩
  | read conn =>
    obtain ⟨_, _, _, _, _, _, _, _, _, rfl⟩ := read_cases moves
    exact Or.inl ⟨first, dialing⟩
  | writeFails conn =>
    simp only [step, writeFails] at moves
    split_ifs at moves
    obtain rfl := Option.some_inj.mp moves
    exact Or.inl ⟨first, dialing⟩
  | dial result =>
    simp only [step, dial] at moves
    split at moves
    · rename_i before waits
      exact Or.inl ⟨before, waits⟩
    · cases moves
  | answered =>
    simp only [step, answered] at moves
    split at moves
    · rename_i before conn shaking
      split at moves
      · obtain rfl := Option.some_inj.mp moves
        rw [connector_connectSucceeds] at dialing
        cases dialing
      · rename_i err refused
        obtain rfl := Option.some_inj.mp moves
        obtain rfl := connector_connectFails dialing
        exact Or.inr (by simp [redials, shaking, refused])
      · cases moves
    · cases moves
  | givesUp err =>
    simp only [step, givesUp] at moves
    split at moves
    · rename_i before conn shaking
      obtain rfl := Option.some_inj.mp moves
      obtain rfl := connector_connectFails dialing
      exact Or.inr (by simp [redials, shaking])
    · cases moves
  | handle =>
    exact (connector_handle moves dialing).imp_left fun waits => ⟨first, waits⟩

/-! ### Order -/

theorem Orderly.dial (orderly : s.Orderly) {result : Except String Unit}
    (moves : s.dial result = some t) : t.Orderly := by
  unfold TuiState.dial at moves
  split at moves
  · rename_i first waits
    have silent := orderly.idle first waits
    have quiet := orderly.silent_iff.mp silent
    cases result with
    | error err =>
      obtain rfl := Option.some_inj.mp moves
      exact orderly.of_settles (settles_connectFails first err) fun _ _ => silent
    | ok done =>
      obtain rfl := Option.some_inj.mp moves
      have others : ∀ conn, ((Function.update s.connections s.opened .accepted) conn).reading =
          true → conn = s.opened := by
        intro conn reads
        by_contra other
        rw [Function.update_of_ne other, quiet conn] at reads
        cases reads
      have trails : ∀ conn, ((s.ahead ++
          ((Function.update s.connections s.opened .accepted) conn).live)).Sublist
            (s.trail conn) := by
        intro conn
        by_cases new : conn = s.opened
        · rw [new, Function.update_self]
          exact (List.Sublist.refl _).append (List.nil_sublist _)
        · rw [Function.update_of_ne new]
          exact List.Sublist.refl _
      constructor
      · intro conn unopened
        by_contra running
        have reads : ((Function.update s.connections s.opened .accepted) conn).reading = true :=
          Bool.not_eq_false _ ▸ running
        rw [others conn reads] at unopened
        exact absurd unopened (Nat.not_succ_le_self _)
      · intro again dialing
        cases dialing
      · intro conn other reads alsoReads
        exact (others conn reads).trans (others other alsoReads).symm
      · exact fun conn => (orderly.once conn).sublist (trails conn)
      · exact fun conn n member => orderly.past conn n ((trails conn).subset member)
  · cases moves

theorem Orderly.broadcast (orderly : s.Orderly) (text : String) (receives : ℕ → Bool) :
    (s.broadcastTo text receives).Orderly := by
  have reading : ∀ conn, ((s.broadcastTo text receives).connections conn).reading =
      (s.connections conn).reading := by
    intro conn
    simp only [broadcastTo]
    split_ifs
    · rfl
    · rfl
  have trails : ∀ conn, ((s.broadcastTo text receives).trail conn).Sublist
      (s.trail conn ++ [s.broadcasts]) := by
    intro conn
    have live : ((s.broadcastTo text receives).connections conn).live.Sublist
        ((s.connections conn).live ++ [s.broadcasts]) := by
      simp only [broadcastTo]
      split_ifs
      · cases reads : (s.connections conn).reading with
        | true => simp [Connection.live, deliver, reads]
        | false => simp [Connection.live, deliver, reads]
      · exact List.sublist_append_left _ _
    rw [trail, trail, List.append_assoc]
    exact (List.Sublist.refl _).append live
  constructor
  · exact fun conn unopened => (reading conn).trans (orderly.unopened conn unopened)
  · exact fun first waits conn opened => (reading conn).trans (orderly.idle first waits conn opened)
  · intro conn other reads alsoReads
    rw [reading] at reads alsoReads
    exact orderly.alone conn other reads alsoReads
  · intro conn
    refine List.Nodup.sublist (trails conn) ?_
    rw [List.nodup_append]
    refine ⟨orderly.once conn, by simp, ?_⟩
    intro n member m new same
    have earlier := orderly.past conn n member
    rw [same, List.mem_singleton.mp new] at earlier
    exact absurd earlier (lt_irrefl _)
  · intro conn n member
    rcases List.mem_append.mp ((trails conn).subset member) with earlier | new
    · exact (orderly.past conn n earlier).trans (Nat.lt_succ_self _)
    · rw [List.mem_singleton.mp new]
      exact Nat.lt_succ_self _

theorem Orderly.step {label : TuiStep} (orderly : s.Orderly) (quietly : s.RedialsQuietly label)
    (moves : s.step format label = some t) : t.Orderly := by
  have idle : ∀ first, t.connector = some (.dialing first) → s.Silent := by
    intro first dialing
    rcases connector_step moves dialing with ⟨before, waits⟩ | redials
    · exact orderly.idle before waits
    · exact quietly redials
  cases label with
  | send conn message =>
    obtain rfl := Option.some_inj.mp moves
    exact orderly.of_settles (settles_send conn message) idle
  | broadcast text receives =>
    obtain rfl := Option.some_inj.mp moves
    exact orderly.broadcast text receives
  | read conn => exact orderly.of_settles (settles_read orderly moves) idle
  | writeFails conn => exact orderly.of_settles (settles_writeFails moves) idle
  | dial result => exact orderly.dial moves
  | answered => exact orderly.of_settles (settles_answered moves) idle
  | givesUp err => exact orderly.of_settles (settles_givesUp moves) idle
  | handle => exact orderly.of_settles (settles_handle moves) idle

theorem orderly_initial (app : App) : (initial app).Orderly where
  unopened _ _ := rfl
  idle _ _ _ _ := rfl
  alone _ _ reads := by cases reads
  once _ := List.nodup_nil
  past _ _ member := by cases member

end TuiState

variable {format : FrameFormat} {s t : TuiState}

/-- **Each event once.** In every run in which no reader runs when a task is sent dialing, at most
one reader runs, and no broadcast is handled twice. -/
theorem deliversOnce_of_reachable (format : FrameFormat) (s : TuiState)
    (reached : (tui format).ReachableWhen TuiState.RedialsQuietly s) : s.DeliversOnce := by
  have orderly := reached.invariant TuiState.Orderly ?_ ?_
  · have trail := orderly.once 0
    rw [TuiState.trail, TuiState.ahead, List.append_assoc, List.nodup_append] at trail
    exact ⟨orderly.alone, trail.1⟩
  · rintro s ⟨app, rfl⟩
    exact TuiState.orderly_initial app
  · exact fun s label t orderly quietly moves => orderly.step quietly moves

/-! ### One dialing task -/

namespace TuiState

/-- The reconnect tasks that run, and those whose client the main loop has not heard of. -/
def tasks (s : TuiState) : ℕ :=
  (s.connector.any fun connector => !connector.first).toNat + s.events.countP TuiEvent.succeeded

theorem tasks_sendEvent (event : TuiEvent) :
    (s.sendEvent event).tasks = s.tasks + event.succeeded.toNat := by
  cases found : event.succeeded <;> simp [tasks, sendEvent, found, Nat.add_assoc]

theorem tasks_connectFails {first : Bool}
    (calls : s.connector.any (fun connector => !connector.first) = !first) (err : String)
    (counted : s.tasks = s.reconnecting.toNat) :
    (s.connectFails first err).tasks = (s.connectFails first err).reconnecting.toNat := by
  rw [tasks, calls] at counted
  cases first with
  | true => simpa [tasks, connectFails] using counted
  | false =>
    simpa [tasks, connectFails, sendEvent, Connector.first, TuiEvent.succeeded] using counted

theorem tasks_connectSucceeds {first : Bool}
    (calls : s.connector.any (fun connector => !connector.first) = !first) (conn : ℕ)
    (counted : s.tasks = s.reconnecting.toNat) :
    (s.connectSucceeds format first conn).tasks =
      (s.connectSucceeds format first conn).reconnecting.toNat := by
  rw [tasks, calls] at counted
  cases first with
  | true => simpa [tasks, connectSucceeds] using counted
  | false =>
    simpa [tasks, connectSucceeds, sendEvent, TuiEvent.succeeded, Nat.add_comm] using counted

theorem tasks_handleStatus (status : WsStatus) (counted : s.tasks = s.reconnecting.toNat) :
    (s.handleStatus status).tasks = (s.handleStatus status).reconnecting.toNat := by
  have drops : ∀ s : TuiState, s.tasks = s.reconnecting.toNat →
      s.dropClient.tasks = s.dropClient.reconnecting.toNat := by
    intro s counted
    unfold dropClient
    split_ifs with reconnecting
    · exact counted
    · -- there is no task that the new one would replace
      have idle : s.tasks = 0 := by simpa [reconnecting] using counted
      have none : s.events.countP TuiEvent.succeeded = 0 := (Nat.add_eq_zero_iff.mp idle).2
      simp only [tasks, none]
      rfl
  cases status with
  | disconnected | error _ => exact drops _ counted
  | connecting | connected => exact counted

theorem tasks_handle (moves : s.handle format = some t)
    (counted : s.tasks = s.reconnecting.toNat) : t.tasks = t.reconnecting.toNat := by
  unfold handle at moves
  split_ifs at moves
  split at moves
  · cases moves
  · rename_i event rest front
    have rests : s.tasks = TuiState.tasks { s with events := rest } + event.succeeded.toNat := by
      cases found : event.succeeded <;> simp [tasks, front, found, Nat.add_assoc]
    rw [rests] at counted
    cases event with
    | agent broadcast agentEvent =>
      obtain rfl := Option.some_inj.mp moves
      exact counted
    | wsStatus status =>
      obtain rfl := Option.some_inj.mp moves
      exact tasks_handleStatus status counted
    | reconnected result =>
      cases result with
      | ok conn =>
        obtain rfl := Option.some_inj.mp moves
        have bound := Bool.toNat_le s.reconnecting
        have none : TuiState.tasks { s with events := rest } = 0 := by
          simp only [TuiEvent.succeeded, Bool.toNat_true] at counted
          omega
        exact none
      | error err =>
        obtain rfl := Option.some_inj.mp moves
        exact counted

theorem tasks_step {label : TuiStep} (moves : s.step format label = some t)
    (counted : s.tasks = s.reconnecting.toNat) : t.tasks = t.reconnecting.toNat := by
  -- the flag and the count change together, or neither does
  cases label with
  | send conn message =>
    obtain rfl := Option.some_inj.mp moves
    exact counted
  | broadcast text receives =>
    obtain rfl := Option.some_inj.mp moves
    exact counted
  | read conn =>
    obtain ⟨_, _, _, sent, _, _, _, _, none, rfl⟩ := read_cases moves
    simpa [tasks, afterRead, none] using counted
  | writeFails conn =>
    simp only [step, writeFails] at moves
    split_ifs at moves
    obtain rfl := Option.some_inj.mp moves
    rw [tasks_sendEvent]
    exact counted
  | dial result =>
    simp only [step, dial] at moves
    split at moves
    · rename_i first calls
      cases result with
      | ok done =>
        obtain rfl := Option.some_inj.mp moves
        rw [tasks, calls] at counted
        exact counted
      | error err =>
        obtain rfl := Option.some_inj.mp moves
        exact tasks_connectFails (by rw [calls]; rfl) err counted
    · cases moves
  | answered =>
    simp only [step, answered] at moves
    split at moves
    · rename_i first conn calls
      split at moves
      · obtain rfl := Option.some_inj.mp moves
        exact tasks_connectSucceeds (by rw [calls]; rfl) conn counted
      · rename_i err _
        obtain rfl := Option.some_inj.mp moves
        exact tasks_connectFails (by rw [calls]; rfl) err counted
      · cases moves
    · cases moves
  | givesUp err =>
    simp only [step, givesUp] at moves
    split at moves
    · rename_i first conn calls
      obtain rfl := Option.some_inj.mp moves
      exact tasks_connectFails (by rw [calls]; rfl) err counted
    · cases moves
  | handle => exact tasks_handle moves counted

/-- There is one reconnect task, or a client that the main loop has not heard of, exactly while
the main loop is reconnecting. -/
theorem tasks_eq_of_reachable (reached : (tui format).Reachable s) :
    s.tasks = s.reconnecting.toNat := by
  apply reached.invariant fun s => s.tasks = s.reconnecting.toNat
  · rintro s ⟨app, rfl⟩
    rfl
  · exact fun s label t counted _ moves => tasks_step moves counted

end TuiState

/-- The task that is sent dialing is about to dial, and no connection has changed. -/
theorem TuiState.dialing_of_redials {label : TuiStep} (moves : s.step format label = some t)
    (redials : s.redials label = true) : t.connector = some (.dialing false) ∧
      t.opened = s.opened ∧ t.connections = s.connections := by
  cases label with
  | answered =>
    simp only [TuiState.redials] at redials
    split at redials
    · rename_i conn shaking
      split at redials
      · rename_i err refused
        simp only [TuiState.step, TuiState.answered, shaking, refused] at moves
        obtain rfl := Option.some_inj.mp moves
        exact ⟨rfl, rfl, rfl⟩
      · cases redials
    · cases redials
  | givesUp err =>
    simp only [TuiState.redials] at redials
    split at redials
    · rename_i conn shaking
      simp only [TuiState.step, TuiState.givesUp, shaking] at moves
      obtain rfl := Option.some_inj.mp moves
      exact ⟨rfl, rfl, rfl⟩
    · cases redials
  | handle =>
    simp only [TuiState.redials] at redials
    split at redials
    · rename_i status rest front
      simp only [Bool.and_eq_true, Bool.not_eq_true'] at redials
      obtain ⟨⟨started, idle⟩, down⟩ := redials
      simp only [TuiState.step, TuiState.handle, started, front, if_true] at moves
      obtain rfl := Option.some_inj.mp moves
      obtain ⟨opened, _, connections, _⟩ := @TuiState.handleStatus_keeps
        { s with events := rest } status
      refine ⟨?_, opened, connections⟩
      cases status with
      | disconnected | error err =>
        simp [TuiState.handleStatus, TuiState.dropClient, TuiState.chatSystem, idle]
      | connecting | connected => cases down
    · cases redials
  | _ => cases redials

/-- A task that is sent dialing while a reader runs can open a second connection with a reader. -/
theorem exists_two_readers {label : TuiStep} {conn : ℕ} (moves : s.step format label = some t)
    (redials : s.redials label = true) (opened : conn < s.opened)
    (reads : (s.connections conn).reading = true) :
    ∃ u, t.step format (.dial (.ok ())) = some u ∧ ¬ u.DeliversOnce := by
  obtain ⟨dialing, kept, connections⟩ := TuiState.dialing_of_redials moves redials
  have dials : t.step format (.dial (.ok ())) = some (t.accept false) := by
    simp only [TuiState.step, TuiState.dial, dialing]
  refine ⟨t.accept false, dials, ?_⟩
  intro ⟨alone, _⟩
  have older : conn ≠ t.opened := by
    rw [kept]
    exact opened.ne
  have same := alone conn t.opened ?_ ?_
  · exact older same
  · rw [← connections] at reads
    simpa [TuiState.accept, TuiState.setConnection, Function.update_of_ne older] using reads
  · simp [TuiState.accept, TuiState.setConnection, Connection.accepted]

/-! ### A frame that cannot be parsed -/

/-- The answer to the first request of a connection. -/
def welcome (conn : ℕ) : String :=
  "\x7b\"type\":\"res\",\"id\":\"connect-" ++ toString conn ++ "\",\"ok\":true\x7d"

def greetingText : String :=
  "\x7b\"type\":\"event\",\"event\":\"agent\",\"payload\":\x7b\"seq\":1,\"data\":\x7b" ++
    "\"stream\":\"assistant\",\"run_id\":\"run-1\",\"delta\":\"Hi\",\"final_chunk\":true," ++
    "\"ts_ms\":0\x7d\x7d\x7d"

def greetingValue : Value :=
  .obj
    [("data", .obj
        [("delta", .str "Hi"), ("final_chunk", .bool true), ("run_id", .str "run-1"),
          ("stream", .str "assistant"), ("ts_ms", .num 0)]),
      ("seq", .num 1)]

def sampleFormat : FrameFormat where
  parseFrame text :=
    if text = welcome 0 then .ok (.res "connect-0" true none none)
    else if text = welcome 1 then .ok (.res "connect-1" true none none)
    else if text = greetingText then .ok (.event "agent" greetingValue)
    else .error "EOF while parsing a value at line 1 column 0"
  parseAgentEvent payload :=
    if payload = greetingValue then .ok ⟨1, "run-1", 0, .assistant "Hi" true⟩
    else .error "missing field"
  connectId conn := "connect-" ++ toString conn
  gatewayUrl := "ws://127.0.0.1:34617"

theorem initial_reachable (guard : TuiState → TuiStep → Prop) :
    (tui sampleFormat).ReachableWhen guard (.initial .initial) :=
  .init ⟨.initial, rfl⟩

/-- After an empty frame, one task dials again. -/
theorem one_task_reconnects : ∃ s : TuiState, s.reconnecting = true ∧ s.tasks = 1 := by
  obtain ⟨s, reached, down⟩ := TransitionSystem.exists_of_run?
    (initial_reachable fun _ _ => True)
    (show ((tui sampleFormat).run? (fun _ _ => True) (.initial .initial)
      [.dial (.ok ()), .send 0 (.text (welcome 0)), .read 0, .answered, .send 0 (.text ""), .read 0,
        .handle]).map TuiState.reconnecting = some true by decide +kernel)
  have counted := TuiState.tasks_eq_of_reachable reached
  rw [down] at counted
  exact ⟨s, down, counted⟩

/-- An empty frame makes the interface open a second connection, and the next broadcast is handled
twice. -/
theorem broadcast_handled_twice :
    ¬ ∀ format s, (tui format).Reachable s → s.DeliversOnce := by
  intro law
  obtain ⟨s, reached, handled⟩ := TransitionSystem.exists_of_run?
    (initial_reachable fun _ _ => True)
    (show ((tui sampleFormat).run? (fun _ _ => True) (.initial .initial)
      [.dial (.ok ()), .send 0 (.text (welcome 0)), .read 0, .answered, .send 0 (.text ""), .read 0,
        .handle, .dial (.ok ()), .send 1 (.text (welcome 1)), .read 1, .answered, .handle,
        .broadcast greetingText fun _ => true, .read 0, .read 1, .handle, .handle]).map
          TuiState.handled = some [0, 0] by decide +kernel)
  have once := (law sampleFormat s reached).2
  rw [handled] at once
  simp at once

instance (s : TuiState) (step : TuiStep) : Decidable (s.RedialsQuietly step) :=
  inferInstanceAs (Decidable (_ = true → ∀ conn < s.opened, (s.connections conn).reading = false))

/-- The first connection closes after the bad frame and before the main loop hears of it: both
broadcasts are handled once. -/
theorem broadcasts_handled_once : ∃ s : TuiState, s.handled = [0, 1] ∧ s.DeliversOnce := by
  obtain ⟨s, reached, handled⟩ := TransitionSystem.exists_of_run?
    (initial_reachable TuiState.RedialsQuietly)
    (show ((tui sampleFormat).run? TuiState.RedialsQuietly (.initial .initial)
      [.dial (.ok ()), .send 0 (.text (welcome 0)), .read 0, .answered,
        .broadcast greetingText fun _ => true, .read 0, .send 0 (.text ""), .send 0 .close, .read 0,
        .read 0, .handle, .handle, .dial (.ok ()), .send 1 (.text (welcome 1)), .read 1, .answered,
        .handle, .handle, .broadcast greetingText fun _ => true, .read 1, .handle]).map
          TuiState.handled = some [0, 1] by decide +kernel)
  exact ⟨s, handled, deliversOnce_of_reachable sampleFormat s reached⟩

end KelvinClaw.Tui
