import KelvinClaw.Core.Text
import KelvinClaw.Core.Tool
import KelvinClaw.Library.TransitionSystem

/-!
# The connection to the Discord gateway

The gateway keeps a WebSocket to Discord. After each disconnect it connects again and, once the
server has said hello, it resumes the session that it had or identifies anew. A session begins
with a READY frame and ends with an INVALID_SESSION frame that is not resumable; frames carry
sequence numbers.

JSON frames come parsed. The task that sends heartbeats at an interval is left out: it changes
nothing that the loop reads.
-/

namespace KelvinClaw.Ingress

open KelvinClaw.Core Systems Systems.TransitionSystem

/-! ### Frames -/

structure GatewayPayload where
  op : ℕ
  d : Option Value
  s : Option ℤ
  t : Option String
  deriving DecidableEq, Repr

structure ReadyEvent where
  sessionId : String
  resumeGatewayUrl : String
  deriving DecidableEq, Repr

structure MessageCreateEvent where
  id : String
  channelId : String
  authorId : String
  authorBot : Bool
  content : String
  deriving DecidableEq, Repr

structure DiscordIngressRequest where
  deliveryId : String
  channelId : String
  userId : String
  text : String
  timeoutMs : Option ℕ
  authToken : Option String
  sessionId : Option String
  workspaceDir : Option String
  deriving DecidableEq, Repr

/-- What the stream yields: a text message, a close message with its code, any other message, an
error, or its end. -/
inductive Frame where
  | text (payload : Except String GatewayPayload)
  | close (code : Option ℕ)
  | other
  | error (err : String)
  | ended
  deriving DecidableEq

/-- The interval of `HelloData`. -/
def readHello (d : Value) : Option ℕ :=
  match d.get "heartbeat_interval" with
  | some (.num interval) =>
    if 0 ≤ interval ∧ interval ≤ u64Max then some interval.toNat else none
  | _ => none

def readString (key : String) (d : Value) : Option String := (d.get key).bind Value.asStr

def readReady (d : Value) : Option ReadyEvent := do
  let sessionId ← readString "session_id" d
  let resumeGatewayUrl ← readString "resume_gateway_url" d
  some ⟨sessionId, resumeGatewayUrl⟩

def readDefault {α : Type} (key : String) (read : Value → Option α) (default : α) (d : Value) :
    Option α :=
  match d.get key with
  | none => some default
  | some found => read found

def readMessageCreate (d : Value) : Option MessageCreateEvent := do
  let id ← readString "id" d
  let channelId ← readString "channel_id" d
  let author ← d.get "author"
  let authorId ← readString "id" author
  let authorBot ← readDefault "bot" Value.asBool false author
  let content ← readDefault "content" Value.asStr "" d
  some ⟨id, channelId, authorId, authorBot, content⟩

def gatewayMessageToRequest (msg : MessageCreateEvent) : Option DiscordIngressRequest :=
  if msg.authorBot = true ∨ trim msg.content = "" then none
  else
    some
      { deliveryId := "discord:" ++ msg.id
        channelId := msg.channelId
        userId := msg.authorId
        text := trim msg.content
        timeoutMs := none
        authToken := none
        sessionId := none
        workspaceDir := none }

/-! ### The loop -/

structure DiscordGatewayConfig where
  botToken : String
  intents : ℕ
  deriving DecidableEq, Repr

/-- Where the loop stands: before a connection, before the hello, before it identifies or resumes,
or in the receive loop. -/
inductive GatewayPhase where
  | connecting
  | awaitingHello
  | opening
  | receiving
  deriving DecidableEq, Repr

structure GatewayLoop where
  phase : GatewayPhase
  sessionId : Option String
  resumeGatewayUrl : Option String
  seq : Option ℤ
  resume : Bool
  sessionEstablished : Bool
  deriving DecidableEq, Repr

def GatewayLoop.start : GatewayLoop := ⟨.connecting, none, none, none, false, false⟩

/-- The first message of a connection. -/
inductive Opening where
  | identify
  | resume (sessionId : String) (seq : ℤ)
  deriving DecidableEq, Repr

def Opening.payload (config : DiscordGatewayConfig) : Opening → Value
  | .identify =>
    Value.object
      [("op", .num 2),
        ("d", Value.object
          [("token", .str config.botToken), ("intents", .num config.intents),
            ("properties", Value.object
              [("os", .str "linux"), ("browser", .str "kelvin-gateway"),
                ("device", .str "kelvin-gateway")])])]
  | .resume sessionId seq =>
    Value.object
      [("op", .num 6),
        ("d", Value.object
          [("token", .str config.botToken), ("session_id", .str sessionId), ("seq", .num seq)])]

def heartbeatPayload (seq : Option ℤ) : Value :=
  Value.object [("op", .num 1), ("d", (seq.map Value.num).getD .null)]

inductive GatewayEffect where
  | connect (url : String)
  | send (payload : Value)
  | ingest (request : DiscordIngressRequest)
  | sleep (secs : ℕ)
  deriving DecidableEq

/-- What happens to the loop: an attempt to connect, what the stream yields, or the end of
sending the opening. -/
inductive GatewayEvent where
  | connect (ok : Bool)
  | frame (frame : Frame)
  | sent (ok : Bool)
  deriving DecidableEq

namespace GatewayLoop

variable (config : DiscordGatewayConfig) (s : GatewayLoop)

def url : String :=
  if s.resume then (s.resumeGatewayUrl.getD "wss://gateway.discord.gg") ++ "/?v=10&encoding=json"
  else "wss://gateway.discord.gg/?v=10&encoding=json"

def connect (ok : Bool) : GatewayLoop × List GatewayEffect :=
  if ok then ({ s with phase := .awaitingHello }, [.connect s.url])
  else ({ s with resume := false }, [.connect s.url, .sleep 5])

def hello : Frame → GatewayLoop × List GatewayEffect
  | .text (.ok payload) =>
    if payload.op = 10 then
      if (payload.d.bind readHello).getD 41250 = 0 then ({ s with phase := .connecting }, [])
      else ({ s with phase := .opening }, [])
    else (s, [])
  | .text (.error _) => (s, [])
  | .close _ | .other | .error _ | .ended =>
    ({ s with resume := false, phase := .connecting }, [.sleep 5])

def opening : Opening :=
  if s.resume then
    match s.sessionId, s.seq with
    | some sessionId, some seq => .resume sessionId seq
    | _, _ => .identify
  else .identify

def sent (ok : Bool) : GatewayLoop × List GatewayEffect :=
  ({ s with
      resume := match s.opening with
        | .identify => false
        | .resume _ _ => s.resume
      phase := if ok then .receiving else .connecting },
    [.send (s.opening.payload config)])

def disconnect (shouldResume : Bool) (before : List GatewayEffect) :
    GatewayLoop × List GatewayEffect :=
  let resume := shouldResume && s.sessionEstablished
  ({ s with resume, sessionEstablished := false, phase := .connecting },
    before ++
      if s.sessionEstablished = false then [.sleep 15] else if resume then [] else [.sleep 5])

/-- Close codes after which the session may be resumed. -/
def resumableCodes : List ℕ := [4000, 4001, 4002, 4003, 4007, 4008, 4009]

def dispatch (payload : GatewayPayload) : GatewayLoop × List GatewayEffect :=
  if payload.t = some "READY" then
    match payload.d.bind readReady with
    | some ready =>
      ({ s with
        sessionId := some ready.sessionId
        resumeGatewayUrl := some ready.resumeGatewayUrl
        sessionEstablished := true }, [])
    | none => (s, [])
  else if payload.t = some "MESSAGE_CREATE" then
    (s, (((payload.d.bind readMessageCreate).bind gatewayMessageToRequest).map
      GatewayEffect.ingest).toList)
  else (s, [])

/-- A payload that is parsed: its sequence number first, and then its operation. -/
def receivePayload (payload : GatewayPayload) : GatewayLoop × List GatewayEffect :=
  let s := { s with seq := payload.s.or s.seq }
  if payload.op = 0 then s.dispatch payload
  else if payload.op = 1 then (s, [.send (heartbeatPayload s.seq)])
  else if payload.op = 7 then s.disconnect true []
  else if payload.op = 9 then
    if (payload.d.bind Value.asBool).getD false then s.disconnect true [.sleep 2]
    else { s with sessionId := none, seq := none }.disconnect false [.sleep 5]
  else (s, [])

def receive : Frame → GatewayLoop × List GatewayEffect
  | .text (.ok payload) => s.receivePayload payload
  | .text (.error _) => (s, [])
  | .close code =>
    s.disconnect (decide (code.getD 0 ∈ resumableCodes))
      (if code.getD 0 = 4004 then [.sleep 60] else [])
  | .other => (s, [])
  | .error _ | .ended => s.disconnect true []

/-- `run_gateway`, an event at a time. -/
def step (event : GatewayEvent) : Option (GatewayLoop × List GatewayEffect) :=
  match s.phase, event with
  | .connecting, .connect ok => some (s.connect ok)
  | .awaitingHello, .frame frame => some (s.hello frame)
  | .opening, .sent ok => some (s.sent config ok)
  | .receiving, .frame frame => some (s.receive frame)
  | _, _ => none

end GatewayLoop

/-! ### The observer -/

/-- What the receive loop makes of a frame that ends it: whether it treats the disconnect as
resumable. -/
def treatedAsResumable : Frame → Option Bool
  | .text (.ok payload) =>
    if payload.op = 7 then some true
    else if payload.op = 9 then some ((payload.d.bind Value.asBool).getD false)
    else none
  | .text (.error _) | .other => none
  | .close code => some (decide (code.getD 0 ∈ GatewayLoop.resumableCodes))
  | .error _ | .ended => some true

def readySession : Frame → Option String
  | .text (.ok payload) =>
    if payload.op = 0 ∧ payload.t = some "READY" then
      (payload.d.bind readReady).map ReadyEvent.sessionId
    else none
  | _ => none

/-- The frame tells that the session is invalid and cannot be resumed. -/
def invalidates : Frame → Bool
  | .text (.ok payload) =>
    payload.op = 9 && (payload.d.bind Value.asBool).getD false = false
  | _ => false

def frameSeq : Frame → Option ℤ
  | .text (.ok payload) => payload.s
  | _ => none

/-- What an observer knows: the session of the last READY frame, unless it was invalidated since;
the last sequence number, and whether it came since a session was last invalidated; whether a READY
frame has come in the connection that is open; and the session that the next connection has to
resume. -/
structure ResumeWatch where
  live : Option String
  lastSeq : Option ℤ
  numbered : Bool
  ready : Bool
  owed : Option String
  deriving DecidableEq, Repr

namespace ResumeWatch

variable (w : ResumeWatch)

def receive (frame : Frame) : ResumeWatch :=
  let live := if invalidates frame then none else (readySession frame).or w.live
  { live
    lastSeq := (frameSeq frame).or w.lastSeq
    numbered := !invalidates frame && ((frameSeq frame).isSome || w.numbered)
    ready := (treatedAsResumable frame).isNone && ((readySession frame).isSome || w.ready)
    owed := if treatedAsResumable frame = some true then live else none }

def hello : Frame → ResumeWatch
  | .text _ => w
  | .close _ | .other | .error _ | .ended => { w with owed := none }

/-- A connection that fails before the hello is treated as not resumable, and one that has sent
its opening owes nothing more. -/
def observe (phase : GatewayPhase) : GatewayEvent → ResumeWatch
  | .connect ok => if ok then w else { w with owed := none }
  | .sent ok => if ok then { w with owed := none } else w
  | .frame frame => if phase = .receiving then w.receive frame else w.hello frame

end ResumeWatch

/-- The loop and its observer. -/
structure WatchedGateway where
  gateway : GatewayLoop
  watch : ResumeWatch
  deriving DecidableEq, Repr

/-- The runs of the loop over all frames, disconnects and reconnects. -/
def discordGateway (config : DiscordGatewayConfig) :
    TransitionSystem WatchedGateway GatewayEvent where
  init s := s = ⟨.start, ⟨none, none, false, false, none⟩⟩
  step s event := (s.gateway.step config event).map fun after =>
    ⟨after.1, s.watch.observe s.gateway.phase event⟩

/-- A connection that owes the resumption of a session opens with it and with the last sequence
number, and a connection resumes no session but the live one. -/
def Complies (s : WatchedGateway) : Prop :=
  s.gateway.phase = .opening →
    (∀ sessionId, s.watch.owed = some sessionId →
      ∃ seq, s.watch.lastSeq = some seq ∧ s.gateway.opening = .resume sessionId seq) ∧
    ∀ sessionId seq, s.gateway.opening = .resume sessionId seq →
      s.watch.live = some sessionId ∧ s.watch.lastSeq = some seq

/-- A disconnect that is treated as resumable while a session is live ends a connection in which a
READY frame came, and a frame had a sequence number since a session was last invalidated. -/
def ReadyBeforeDrop (s : WatchedGateway) : GatewayEvent → Prop
  | .frame frame =>
    s.gateway.phase = .receiving → treatedAsResumable frame = some true →
      s.watch.live.isSome = true →
        s.watch.ready = true ∧ ((frameSeq frame).isSome || s.watch.numbered) = true
  | .connect _ | .sent _ => True

/-! ### What every step keeps -/

/-- The loop knows the session of the observer, and its last sequence number when it came since a
session was last invalidated. -/
structure Knows (sessionId : Option String) (number : Option ℤ) (watch : ResumeWatch) : Prop where
  session : sessionId = watch.live
  seq : number = none ∨ number = watch.lastSeq
  numbered : number.isSome = watch.numbered

theorem Knows.owing {sessionId : Option String} {number : Option ℤ} {watch : ResumeWatch}
    (knows : Knows sessionId number watch) (owed : Option String) :
    Knows sessionId number { watch with owed } :=
  ⟨knows.session, knows.seq, knows.numbered⟩

/-- The loop knows what the observer knows, also of the open connection, and outside the receive
loop it is about to resume what is owed. -/
structure Tracked (s : WatchedGateway) : Prop where
  knows : Knows s.gateway.sessionId s.gateway.seq s.watch
  ready : s.gateway.sessionEstablished = s.watch.ready
  owed : s.gateway.phase ≠ .receiving → ∀ sessionId, s.watch.owed = some sessionId →
    s.gateway.resume = true ∧ s.watch.live = some sessionId ∧ s.gateway.seq.isSome = true

theorem Tracked.complies {s : WatchedGateway} (tracked : Tracked s) : Complies s := by
  intro phase
  have outside : s.gateway.phase ≠ .receiving := by
    rw [phase]
    exact GatewayPhase.noConfusion
  constructor
  · intro sessionId owed
    obtain ⟨resume, live, known⟩ := tracked.owed outside sessionId owed
    obtain ⟨seq, isSeq⟩ := Option.isSome_iff_exists.mp known
    refine ⟨seq, ?_, ?_⟩
    · rcases tracked.knows.seq with none | same
      · rw [isSeq] at none
        cases none
      · rw [← same, isSeq]
    · simp only [GatewayLoop.opening, resume, tracked.knows.session, live, isSeq, if_true]
  · intro sessionId seq opening
    unfold GatewayLoop.opening at opening
    split_ifs at opening
    cases session : s.gateway.sessionId with
    | none =>
      rw [session] at opening
      cases opening
    | some found =>
      cases isSeq : s.gateway.seq with
      | none =>
        rw [session, isSeq] at opening
        cases opening
      | some number =>
        rw [session, isSeq] at opening
        cases opening
        rcases tracked.knows.seq with none | same
        · rw [isSeq] at none
          cases none
        · exact ⟨tracked.knows.session.symm.trans session, same.symm.trans isSeq⟩

section Steps

variable {g : GatewayLoop} {w : ResumeWatch} {config : DiscordGatewayConfig}

theorem Tracked.connect (tracked : Tracked ⟨g, w⟩) (phase : g.phase = .connecting) (ok : Bool) :
    Tracked ⟨(g.connect ok).1, w.observe g.phase (.connect ok)⟩ := by
  have outside : g.phase ≠ .receiving := by
    rw [phase]
    exact GatewayPhase.noConfusion
  cases ok with
  | true => exact ⟨tracked.knows, tracked.ready, fun _ => tracked.owed outside⟩
  | false => exact ⟨tracked.knows.owing none, tracked.ready, fun _ _ owed => by cases owed⟩

theorem Tracked.hello (tracked : Tracked ⟨g, w⟩) (phase : g.phase = .awaitingHello)
    (frame : Frame) : Tracked ⟨(g.hello frame).1, w.observe g.phase (.frame frame)⟩ := by
  have outside : g.phase ≠ .receiving := by
    rw [phase]
    exact GatewayPhase.noConfusion
  simp only [ResumeWatch.observe, if_neg outside]
  cases frame with
  | text payload =>
    cases payload with
    | error err => exact tracked
    | ok payload =>
      simp only [GatewayLoop.hello, ResumeWatch.hello]
      split_ifs
      · exact ⟨tracked.knows, tracked.ready, fun _ => tracked.owed outside⟩
      · exact ⟨tracked.knows, tracked.ready, fun _ => tracked.owed outside⟩
      · exact tracked
  | close code => exact ⟨tracked.knows.owing none, tracked.ready, fun _ _ owed => by cases owed⟩
  | other => exact ⟨tracked.knows.owing none, tracked.ready, fun _ _ owed => by cases owed⟩
  | error err => exact ⟨tracked.knows.owing none, tracked.ready, fun _ _ owed => by cases owed⟩
  | ended => exact ⟨tracked.knows.owing none, tracked.ready, fun _ _ owed => by cases owed⟩

theorem Tracked.sent (tracked : Tracked ⟨g, w⟩) (phase : g.phase = .opening) (ok : Bool) :
    Tracked ⟨(g.sent config ok).1, w.observe g.phase (.sent ok)⟩ := by
  cases ok with
  | true => exact ⟨tracked.knows.owing none, tracked.ready, fun _ _ owed => by cases owed⟩
  | false =>
    -- a resume that cannot be sent is still owed
    refine ⟨tracked.knows, tracked.ready, fun _ sessionId owed => ?_⟩
    obtain ⟨seq, _, opening⟩ := (tracked.complies phase).1 sessionId owed
    have outside : g.phase ≠ .receiving := by
      rw [phase]
      exact GatewayPhase.noConfusion
    obtain ⟨resume, live, known⟩ := tracked.owed outside sessionId owed
    refine ⟨?_, live, known⟩
    simp only at opening
    simp only [GatewayLoop.sent, opening]
    exact resume

theorem Tracked.disconnect {should : Bool} {before : List GatewayEffect}
    (knows : Knows g.sessionId g.seq w) (ended : w.ready = false)
    (owes : ∀ sessionId, w.owed = some sessionId → should = true ∧ w.live = some sessionId)
    (established : should = true → w.live.isSome = true →
      g.sessionEstablished = true ∧ w.numbered = true) :
    Tracked ⟨(g.disconnect should before).1, w⟩ := by
  refine ⟨knows, ended.symm, fun _ sessionId owed => ?_⟩
  obtain ⟨resumable, live⟩ := owes sessionId owed
  obtain ⟨ready, numbered⟩ := established resumable (by rw [live]; rfl)
  refine ⟨?_, live, knows.numbered.trans numbered⟩
  simp only [GatewayLoop.disconnect, resumable, ready, Bool.and_self]

theorem Tracked.stay {after : GatewayLoop} (phase : after.phase = .receiving)
    (knows : Knows after.sessionId after.seq w) (ready : after.sessionEstablished = w.ready) :
    Tracked ⟨after, w⟩ :=
  ⟨knows, ready, fun outside => absurd phase outside⟩

theorem Knows.receive {frame : Frame} {sessionId : Option String}
    (knows : Knows g.sessionId g.seq w) (valid : invalidates frame = false)
    (session : sessionId = (w.receive frame).live) :
    Knows sessionId ((frameSeq frame).or g.seq) (w.receive frame) := by
  refine ⟨session, ?_, ?_⟩
  · rcases knows.seq with none | same
    · cases number : frameSeq frame with
      | none => exact .inl none
      | some number => exact .inr (by simp [ResumeWatch.receive, number])
    · exact .inr (congrArg (frameSeq frame).or same)
  · simp only [ResumeWatch.receive, valid, Bool.not_false, Bool.true_and, ← knows.numbered,
      Option.isSome_or]

theorem ResumeWatch.live_receive {frame : Frame} (unready : readySession frame = none)
    (valid : invalidates frame = false) : (w.receive frame).live = w.live := by
  simp only [ResumeWatch.receive, unready, valid, Bool.false_eq_true, if_false, Option.none_or]

theorem ResumeWatch.ready_receive {frame : Frame} (unready : readySession frame = none)
    (stays : treatedAsResumable frame = none) : (w.receive frame).ready = w.ready := by
  simp [ResumeWatch.receive, unready, stays]

theorem Tracked.pass {frame : Frame} {after : GatewayLoop} (tracked : Tracked ⟨g, w⟩)
    (phase : g.phase = .receiving) (unready : readySession frame = none)
    (valid : invalidates frame = false) (stays : treatedAsResumable frame = none)
    (notes : after = { g with seq := (frameSeq frame).or g.seq }) :
    Tracked ⟨after, w.receive frame⟩ := by
  subst notes
  have live := ResumeWatch.live_receive (w := w) unready valid
  have ready := ResumeWatch.ready_receive (w := w) unready stays
  exact .stay phase (tracked.knows.receive valid (tracked.knows.session.trans live.symm))
    (tracked.ready.trans ready.symm)

theorem Tracked.dispatch {payload : GatewayPayload} (tracked : Tracked ⟨g, w⟩)
    (phase : g.phase = .receiving) (op : payload.op = 0) :
    Tracked ⟨({ g with seq := payload.s.or g.seq }.dispatch payload).1,
      w.receive (.text (.ok payload))⟩ := by
  have valid : invalidates (.text (.ok payload)) = false := by simp [invalidates, op]
  have stays : treatedAsResumable (.text (.ok payload)) = none := by simp [treatedAsResumable, op]
  by_cases begins : payload.t = some "READY"
  · cases read : payload.d.bind readReady with
    | none =>
      have unready : readySession (.text (.ok payload)) = none := by
        simp [readySession, op, begins, read]
      apply tracked.pass phase unready valid stays
      simp only [GatewayLoop.dispatch, begins, if_true, read, frameSeq]
    | some event =>
      have session : readySession (.text (.ok payload)) = some event.sessionId := by
        simp [readySession, op, begins, read]
      simp only [GatewayLoop.dispatch, begins, if_true, read]
      refine .stay phase (tracked.knows.receive valid ?_) ?_
      · simp [ResumeWatch.receive, valid, session]
      · simp [ResumeWatch.receive, stays, session]
  · have unready : readySession (.text (.ok payload)) = none := by
      simp [readySession, begins]
    apply tracked.pass phase unready valid stays
    simp only [GatewayLoop.dispatch, if_neg begins, frameSeq]
    split_ifs
    · rfl
    · rfl

theorem Tracked.drop {frame : Frame} {should : Bool} {before : List GatewayEffect}
    (tracked : Tracked ⟨g, w⟩) (treated : treatedAsResumable frame = some should)
    (unready : readySession frame = none) (valid : invalidates frame = false)
    (established : treatedAsResumable frame = some true → w.live.isSome = true →
      w.ready = true ∧ ((frameSeq frame).isSome || w.numbered) = true) :
    Tracked ⟨({ g with seq := (frameSeq frame).or g.seq }.disconnect should before).1,
      w.receive frame⟩ := by
  have live := ResumeWatch.live_receive (w := w) unready valid
  refine .disconnect (tracked.knows.receive valid (tracked.knows.session.trans live.symm))
    (by simp [ResumeWatch.receive, treated]) ?_ ?_
  · intro sessionId owed
    rw [live]
    simp only [ResumeWatch.receive, treated, unready, valid, Bool.false_eq_true, if_false,
      Option.none_or] at owed
    split_ifs at owed with resumable
    exact ⟨Option.some_inj.mp resumable, owed⟩
  · intro resumable alive
    rw [live] at alive
    rw [resumable] at treated
    obtain ⟨ready, numbered⟩ := established treated alive
    refine ⟨tracked.ready.trans ready, ?_⟩
    simpa [ResumeWatch.receive, valid] using numbered

theorem Tracked.invalidate {payload : GatewayPayload} {before : List GatewayEffect}
    (op : payload.op = 9) (final : (payload.d.bind Value.asBool).getD false = false) :
    Tracked ⟨({ g with sessionId := none, seq := none }.disconnect false before).1,
      w.receive (.text (.ok payload))⟩ := by
  have invalid : invalidates (.text (.ok payload)) = true := by simp [invalidates, op, final]
  have treated : treatedAsResumable (.text (.ok payload)) = some false := by
    simp [treatedAsResumable, op, final]
  have gone : (w.receive (.text (.ok payload))).live = none := by
    simp [ResumeWatch.receive, invalid]
  have unnumbered : (w.receive (.text (.ok payload))).numbered = false := by
    simp [ResumeWatch.receive, invalid]
  refine .disconnect ⟨gone.symm, .inl rfl, unnumbered.symm⟩ ?_ ?_ fun never => by cases never
  · simp [ResumeWatch.receive, treated]
  · intro sessionId owed
    simp [ResumeWatch.receive, treated] at owed

theorem Tracked.receive {frame : Frame} (tracked : Tracked ⟨g, w⟩)
    (phase : g.phase = .receiving)
    (established : treatedAsResumable frame = some true → w.live.isSome = true →
      w.ready = true ∧ ((frameSeq frame).isSome || w.numbered) = true) :
    Tracked ⟨(g.receive frame).1, w.receive frame⟩ := by
  cases frame with
  | close code => exact tracked.drop rfl rfl rfl established
  | error err => exact tracked.drop rfl rfl rfl established
  | ended => exact tracked.drop rfl rfl rfl established
  | other => exact tracked.pass phase rfl rfl rfl rfl
  | text payload =>
    cases payload with
    | error err => exact tracked.pass phase rfl rfl rfl rfl
    | ok payload =>
      simp only [GatewayLoop.receive, GatewayLoop.receivePayload]
      have unready : payload.op ≠ 0 → readySession (.text (.ok payload)) = none :=
        fun op => if_neg fun both => op both.1
      have valid : payload.op ≠ 9 → invalidates (.text (.ok payload)) = false := by
        intro op
        simp [invalidates, op]
      split_ifs with dispatched heartbeat reconnect invalid resumable
      · exact tracked.dispatch phase dispatched
      · refine tracked.pass phase (unready dispatched) (valid (by omega)) ?_ rfl
        simp [treatedAsResumable, heartbeat]
      · have treated : treatedAsResumable (.text (.ok payload)) = some true := if_pos reconnect
        exact tracked.drop treated (unready dispatched) (valid (by omega)) established
      · refine tracked.drop ?_ (unready dispatched) ?_ established
        · simp [treatedAsResumable, invalid, resumable]
        · simp [invalidates, resumable]
      · exact .invalidate invalid (Bool.not_eq_true _ ▸ resumable)
      · refine tracked.pass phase (unready dispatched) (valid invalid) ?_ rfl
        simp [treatedAsResumable, reconnect, invalid]

theorem Tracked.step {s t : WatchedGateway} {event : GatewayEvent} (tracked : Tracked s)
    (ready : ReadyBeforeDrop s event)
    (moves : (discordGateway config).step s event = some t) : Tracked t := by
  obtain ⟨g, w⟩ := s
  obtain ⟨after, ran, rfl⟩ := Option.map_eq_some_iff.mp moves
  unfold GatewayLoop.step at ran
  cases phase : g.phase with
  | connecting =>
    simp only [phase] at ran
    cases event with
    | connect ok =>
      obtain rfl := Option.some_inj.mp ran
      exact tracked.connect phase ok
    | frame frame => cases ran
    | sent ok => cases ran
  | awaitingHello =>
    simp only [phase] at ran
    cases event with
    | connect ok => cases ran
    | frame frame =>
      obtain rfl := Option.some_inj.mp ran
      have kept := tracked.hello phase frame
      rw [phase] at kept
      exact kept
    | sent ok => cases ran
  | opening =>
    simp only [phase] at ran
    cases event with
    | connect ok => cases ran
    | frame frame => cases ran
    | sent ok =>
      obtain rfl := Option.some_inj.mp ran
      exact tracked.sent phase ok
  | receiving =>
    simp only [phase] at ran
    cases event with
    | connect ok => cases ran
    | frame frame =>
      obtain rfl := Option.some_inj.mp ran
      simp only [ResumeWatch.observe, if_true]
      exact tracked.receive phase (ready phase)
    | sent ok => cases ran

end Steps

/-- **The resume protocol.** In every run of frames, disconnects and reconnects in which each
disconnect that is treated as resumable while a session is live ends a connection in which a READY
frame came, and a frame had a sequence number since a session was last invalidated: a connection
after such a disconnect resumes the session with the last sequence number, and no connection
resumes a session that is invalid. -/
theorem complies_of_reachable (config : DiscordGatewayConfig) (s : WatchedGateway)
    (reached : (discordGateway config).ReachableWhen ReadyBeforeDrop s) : Complies s := by
  refine (reached.invariant Tracked ?_ fun s event t tracked ready moves =>
    tracked.step ready moves).complies
  rintro s rfl
  exact ⟨⟨rfl, .inl rfl, rfl⟩, rfl, fun _ _ owed => by cases owed⟩

/-! ### A session that is resumed twice -/

instance (s : WatchedGateway) (event : GatewayEvent) : Decidable (ReadyBeforeDrop s event) :=
  match event with
  | .frame frame => inferInstanceAs (Decidable (s.gateway.phase = .receiving →
      treatedAsResumable frame = some true → s.watch.live.isSome = true →
        s.watch.ready = true ∧ ((frameSeq frame).isSome || s.watch.numbered) = true))
  | .connect _ | .sent _ => .isTrue trivial

def plainConfig : DiscordGatewayConfig := ⟨"token", 33280⟩

def helloFrame : GatewayEvent :=
  .frame (.text (.ok ⟨10, some (.obj [("heartbeat_interval", .num 41250)]), none, none⟩))

def readyFrame : GatewayEvent :=
  .frame (.text (.ok ⟨0, some (.obj [("resume_gateway_url", .str "wss://resume"),
    ("session_id", .str "A")]), some 1, some "READY"⟩))

def resumedFrame : GatewayEvent := .frame (.text (.ok ⟨0, none, some 2, some "RESUMED"⟩))

def reconnectFrame : GatewayEvent := .frame (.text (.ok ⟨7, none, none, none⟩))

/-- A session begins and is dropped, and the next connection has heard the hello. -/
def droppedOnce : List GatewayEvent :=
  [.connect true, helloFrame, .sent true, readyFrame, reconnectFrame, .connect true, helloFrame]

def droppedTwice : List GatewayEvent :=
  droppedOnce ++ [.sent true, resumedFrame, reconnectFrame, .connect true, helloFrame]

def idleGateway : WatchedGateway := ⟨.start, ⟨none, none, false, false, none⟩⟩

/-- The session is resumed after the first drop. -/
theorem dropped_session_resumed : ∃ s, Complies s ∧ s.watch.owed = some "A" ∧
    s.gateway.opening = .resume "A" 1 := by
  have ran : ((discordGateway plainConfig).run? ReadyBeforeDrop idleGateway droppedOnce).map
      (fun s => (s.watch.owed, s.gateway.opening)) = some (some "A", .resume "A" 1) := by
    decide +kernel
  obtain ⟨s, reached, facts⟩ := exists_of_run? (.init rfl) ran
  exact ⟨s, complies_of_reachable plainConfig s reached, (Prod.mk.inj facts).1,
    (Prod.mk.inj facts).2⟩

/-- After the second drop the connection identifies anew. -/
theorem resumed_session_dropped : ∃ s, (discordGateway plainConfig).Reachable s ∧
    ¬ Complies s := by
  have ran : ((discordGateway plainConfig).run? (fun _ _ => True) idleGateway droppedTwice).map
      (fun s => (s.gateway.phase, s.watch.owed, s.gateway.opening)) =
        some (.opening, some "A", .identify) := by
    decide +kernel
  obtain ⟨s, reached, facts⟩ := exists_of_run? (.init rfl) ran
  obtain ⟨phase, rest⟩ := Prod.mk.inj facts
  obtain ⟨owed, opening⟩ := Prod.mk.inj rest
  refine ⟨s, reached, fun complies => ?_⟩
  obtain ⟨seq, _, resumes⟩ := (complies phase).1 "A" owed
  rw [opening] at resumes
  cases resumes

end KelvinClaw.Ingress
