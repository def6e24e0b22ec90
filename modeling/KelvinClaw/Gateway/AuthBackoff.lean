import KelvinClaw.Gateway.AuthFailures
import KelvinClaw.Library.TransitionSystem

/-!
# Authentication backoff over interleaved connections

A connection asks for the backoff of its address once, when its socket starts. The
token arrives later and is verified without asking again; what follows from the
verification, recording a failure or clearing the address, is a step of its own. Other
connections of the same address move in between.
-/

namespace KelvinClaw.Gateway

open KelvinClaw.Core Systems Systems.TransitionSystem AuthFailureTracker

variable {ι κ : Type} [DecidableEq ι] [DecidableEq κ]

/-- How far `handle_connection` has come with a socket. -/
inductive Phase where
  | opening
  | awaitingMessage
  | refused (reply : ErrorReply)
  | verified (id : String)
  | connected (id : String)
  | closed (reply : Option ErrorReply)
  deriving DecidableEq, Repr

/-- A verification of a token: the address it came from, the time, and the end of the
block of the address at that time. -/
structure Verification (κ : Type) where
  peerIp : κ
  atMs : ℕ
  blockedUntilMs : ℕ

/-- The tracker and the sockets, with two history variables: the verifications so far,
and for each socket the end of the last block that a failure set for its address since
its own check and that was not lifted again. -/
structure ConnectionState (ι κ : Type) where
  tracker : AuthFailureTracker κ
  phase : ι → Phase
  overtakenUntilMs : ι → ℕ
  verifications : List (Verification κ)

/-- A step of a connection, at the time its clock reads. -/
inductive ConnectionEvent (ι : Type) where
  | checkBackoff (connection : ι) (nowMs : ℕ)
  | receive (connection : ι) (nowMs : ℕ) (message : FirstMessage)
  | recordFailure (connection : ι) (nowMs : ℕ)
  | clear (connection : ι)

section Steps

variable (security : GatewaySecurityConfig) (authToken : Option String) (peerIp : ι → κ)
  (s : ConnectionState ι κ) (connection : ι)

def checkBackoff (nowMs : ℕ) : ConnectionState ι κ :=
  let check := s.tracker.backoffRemainingMs (peerIp connection) nowMs
  match check.1 with
  | some remainingMs =>
    let message := s!"auth backoff active; retry after {remainingMs}ms"
    { s with
      tracker := check.2
      phase := Function.update s.phase connection (.closed (some ⟨"", "unauthorized", message⟩)) }
  | none =>
    { s with
      tracker := check.2
      phase := Function.update s.phase connection .awaitingMessage
      overtakenUntilMs := fun other =>
        if peerIp other = peerIp connection then 0 else s.overtakenUntilMs other }

def receive (nowMs : ℕ) (message : FirstMessage) : ConnectionState ι κ :=
  match connectRequest message with
  | .error reply => { s with phase := Function.update s.phase connection (.closed reply) }
  | .ok (id, params) =>
    let ip := peerIp connection
    { s with
      phase := Function.update s.phase connection <|
        match verifyAuthToken authToken params.auth with
        | .error error => .refused ⟨id, error⟩
        | .ok () => .verified id
      verifications := s.verifications ++ [⟨ip, nowMs, s.tracker.blockedUntilMs ip⟩] }

def recordRefusal (reply : ErrorReply) (nowMs : ℕ) : ConnectionState ι κ :=
  let ip := peerIp connection
  let tracker := recordFailure security s.tracker ip nowMs
  { s with
    tracker := tracker
    phase := Function.update s.phase connection (.closed (some reply))
    overtakenUntilMs := fun other =>
      if peerIp other = ip then
        (nextBlock security s.tracker ip nowMs).getD (s.overtakenUntilMs other)
      else if tracker.map (peerIp other) = none then 0
      else s.overtakenUntilMs other }

def clearFailures (id : String) : ConnectionState ι κ :=
  { s with
    tracker := s.tracker.clear (peerIp connection)
    phase := Function.update s.phase connection (.connected id)
    overtakenUntilMs := fun other =>
      if peerIp other = peerIp connection then 0 else s.overtakenUntilMs other }

end Steps

/-- Any number of connections, each with the address of its client. -/
def connections (security : GatewaySecurityConfig) (authToken : Option String)
    (peerIp : ι → κ) : TransitionSystem (ConnectionState ι κ) (ConnectionEvent ι) where
  init s := s = ⟨.new authFailureMaxEntries, fun _ => .opening, fun _ => 0, []⟩
  step s event :=
    match event with
    | .checkBackoff connection nowMs =>
      match s.phase connection with
      | .opening => some (checkBackoff peerIp s connection nowMs)
      | _ => none
    | .receive connection nowMs message =>
      match s.phase connection with
      | .awaitingMessage => some (receive authToken peerIp s connection nowMs message)
      | _ => none
    | .recordFailure connection nowMs =>
      match s.phase connection with
      | .refused reply => some (recordRefusal security peerIp s connection reply nowMs)
      | _ => none
    | .clear connection =>
      match s.phase connection with
      | .verified id => some (clearFailures peerIp s connection id)
      | _ => none

/-- No token is verified while a block lasts that was set after the connection's own
backoff check. -/
def NotOvertaken (s : ConnectionState ι κ) : ConnectionEvent ι → Prop
  | .receive connection nowMs message =>
    (connectRequest message).toBool → s.overtakenUntilMs connection ≤ nowMs
  | .checkBackoff .. | .recordFailure .. | .clear _ => True

instance (s : ConnectionState ι κ) : ∀ event, Decidable (NotOvertaken s event)
  | .receive connection nowMs message =>
    inferInstanceAs (Decidable
      ((connectRequest message).toBool → s.overtakenUntilMs connection ≤ nowMs))
  | .checkBackoff .. | .recordFailure .. | .clear _ => inferInstanceAs (Decidable True)

/-- Every verification so far took place after the end of the block of its address. -/
def Unblocked (s : ConnectionState ι κ) : Prop :=
  ∀ verification ∈ s.verifications, verification.blockedUntilMs ≤ verification.atMs

/-! ### The block in force while a connection waits -/

section Invariant

variable {security : GatewaySecurityConfig} {authToken : Option String} {peerIp : ι → κ}
  {s t : ConnectionState ι κ} {connection : ι} {nowMs : ℕ}

/-- A connection that waits for its first message is blocked by nothing but the blocks
that were set since its own check. -/
def TracksBlocks (peerIp : ι → κ) (s : ConnectionState ι κ) : Prop :=
  ∀ connection, s.phase connection = .awaitingMessage →
    s.tracker.blockedUntilMs (peerIp connection) = s.overtakenUntilMs connection

theorem phase_of_update {phase : ι → Phase} {next : Phase} {other : ι}
    (waits : Function.update phase connection next other = .awaitingMessage)
    (leaves : next ≠ .awaitingMessage) :
    phase other = .awaitingMessage := by
  by_cases same : other = connection
  · rw [same, Function.update_self] at waits
    exact absurd waits leaves
  · rwa [Function.update_of_ne same] at waits

theorem tracksBlocks_checkBackoff (tracks : TracksBlocks peerIp s) :
    TracksBlocks peerIp (checkBackoff peerIp s connection nowMs) := by
  intro other waits
  have passes := backoffRemainingMs_eq_none s.tracker (peerIp connection) nowMs
  have blocks := blockedUntilMs_backoffRemainingMs s.tracker (peerIp connection) nowMs
    (peerIp other)
  unfold checkBackoff at waits ⊢
  cases remaining : (s.tracker.backoffRemainingMs (peerIp connection) nowMs).1 with
  | some remainingMs =>
    -- the socket is closed and no block changes
    have blocked : ¬ s.tracker.blockedUntilMs (peerIp connection) ≤ nowMs := by
      rw [← passes, remaining]
      exact Option.some_ne_none _
    simp only [remaining] at waits ⊢
    rw [blocks, if_neg fun ended => blocked ended.2]
    exact tracks other (phase_of_update waits nofun)
  | none =>
    have ended := passes.mp remaining
    simp only [remaining] at waits ⊢
    rw [blocks]
    by_cases same : peerIp other = peerIp connection
    · rw [if_pos ⟨same, ended⟩, if_pos same]
    · rw [if_neg fun both => same both.1, if_neg same]
      apply tracks
      rwa [Function.update_of_ne fun equal => same (congrArg peerIp equal)] at waits

omit [DecidableEq κ] in
theorem tracksBlocks_receive {message : FirstMessage} (tracks : TracksBlocks peerIp s) :
    TracksBlocks peerIp (receive authToken peerIp s connection nowMs message) := by
  intro other waits
  unfold receive at waits ⊢
  cases request : connectRequest message with
  | error reply =>
    simp only [request] at waits ⊢
    exact tracks other (phase_of_update waits nofun)
  | ok asked =>
    obtain ⟨id, params⟩ := asked
    simp only [request] at waits ⊢
    apply tracks other
    apply phase_of_update waits
    cases verifyAuthToken authToken params.auth <;> exact nofun

theorem tracksBlocks_recordRefusal {reply : ErrorReply} (tracks : TracksBlocks peerIp s) :
    TracksBlocks peerIp (recordRefusal security peerIp s connection reply nowMs) := by
  intro other waits
  have waited := tracks other (phase_of_update waits nofun)
  simp only [recordRefusal]
  rw [blockedUntilMs_recordFailure]
  by_cases same : peerIp other = peerIp connection
  · rw [if_pos same, if_pos same, ← waited, same]
  · rw [if_neg same, if_neg same, waited]

theorem tracksBlocks_clearFailures {id : String} (tracks : TracksBlocks peerIp s) :
    TracksBlocks peerIp (clearFailures peerIp s connection id) := by
  intro other waits
  have waited := tracks other (phase_of_update waits nofun)
  simp only [clearFailures]
  rw [blockedUntilMs_clear, waited]

/-- What an enabled step does. -/
inductive Moves (security : GatewaySecurityConfig) (authToken : Option String)
    (peerIp : ι → κ) (s : ConnectionState ι κ) :
    ConnectionEvent ι → ConnectionState ι κ → Prop
  | checkBackoff {connection : ι} {nowMs : ℕ} (opens : s.phase connection = .opening) :
    Moves security authToken peerIp s (.checkBackoff connection nowMs)
      (checkBackoff peerIp s connection nowMs)
  | receive {connection : ι} {nowMs : ℕ} {message : FirstMessage}
    (waits : s.phase connection = .awaitingMessage) :
    Moves security authToken peerIp s (.receive connection nowMs message)
      (receive authToken peerIp s connection nowMs message)
  | recordFailure {connection : ι} {nowMs : ℕ} {reply : ErrorReply}
    (refused : s.phase connection = .refused reply) :
    Moves security authToken peerIp s (.recordFailure connection nowMs)
      (recordRefusal security peerIp s connection reply nowMs)
  | clear {connection : ι} {id : String} (verified : s.phase connection = .verified id) :
    Moves security authToken peerIp s (.clear connection) (clearFailures peerIp s connection id)

theorem moves_of_step {event : ConnectionEvent ι}
    (moves : (connections security authToken peerIp).step s event = some t) :
    Moves security authToken peerIp s event t := by
  simp only [connections] at moves
  cases event <;>
  · simp only at moves
    split at moves
    · obtain rfl := Option.some_inj.mp moves
      constructor
      assumption
    · cases moves

theorem tracksBlocks_step {event : ConnectionEvent ι} (tracks : TracksBlocks peerIp s)
    (moves : Moves security authToken peerIp s event t) : TracksBlocks peerIp t := by
  cases moves with
  | checkBackoff _ => exact tracksBlocks_checkBackoff tracks
  | receive _ => exact tracksBlocks_receive tracks
  | recordFailure _ => exact tracksBlocks_recordRefusal tracks
  | clear _ => exact tracksBlocks_clearFailures tracks

theorem unblocked_step {event : ConnectionEvent ι} (tracks : TracksBlocks peerIp s)
    (moves : Moves security authToken peerIp s event t) :
    Unblocked t ↔ Unblocked s ∧ NotOvertaken s event := by
  cases moves with
  | @checkBackoff connection nowMs opens =>
    have same : (checkBackoff peerIp s connection nowMs).verifications = s.verifications := by
      simp only [checkBackoff]
      split <;> rfl
    rw [Unblocked, same]
    exact (and_iff_left trivial).symm
  | @receive connection nowMs message waits =>
    simp only [receive, NotOvertaken]
    cases connectRequest message with
    | error reply => simp [Unblocked, Except.toBool]
    | ok asked =>
      simp only [Unblocked, List.forall_mem_append, List.forall_mem_singleton, Except.toBool,
        tracks connection waits, forall_const]
  | recordFailure _ => exact (and_iff_left trivial).symm
  | clear _ => exact (and_iff_left trivial).symm

/-- **Backoff.** In a run in which no connection is overtaken by a block, no token is
verified while its address is blocked. -/
theorem verified_unblocked (security : GatewaySecurityConfig) (authToken : Option String)
    (peerIp : ι → κ) (s : ConnectionState ι κ)
    (reached : (connections security authToken peerIp).ReachableWhen NotOvertaken s) :
    Unblocked s := by
  suffices invariant : TracksBlocks peerIp s ∧ Unblocked s from invariant.2
  refine reached.invariant (fun s => TracksBlocks peerIp s ∧ Unblocked s) ?_ ?_
  · rintro _ rfl
    exact ⟨fun _ waits => (nomatch waits), fun _ none => (nomatch none)⟩
  · intro s event t ⟨tracks, unblocked⟩ meets moves
    have moves := moves_of_step moves
    exact ⟨tracksBlocks_step tracks moves, (unblocked_step tracks moves).mpr ⟨unblocked, meets⟩⟩

end Invariant

/-! ### Two runs with one address -/

def connectMessage (token : String) : FirstMessage :=
  .request "1" "connect" (.ok ⟨some ⟨token⟩, none⟩)

def refusal (connection atMs : ℕ) : List (ConnectionEvent ℕ) :=
  [.receive connection atMs (connectMessage "guess"), .recordFailure connection atMs]

/-- Three failures block the address; the next socket is opened after the block. -/
def patientRun : List (ConnectionEvent ℕ) :=
  [.checkBackoff 0 1000, .checkBackoff 1 1000, .checkBackoff 2 1000] ++
    refusal 0 1001 ++ refusal 1 1002 ++ refusal 2 1003 ++
    [.checkBackoff 3 2503, .receive 3 2504 (connectMessage "secret")]

/-- The fourth socket is opened before the failures and sends its token after them. -/
def overtakenRun : List (ConnectionEvent ℕ) :=
  [.checkBackoff 0 1000, .checkBackoff 1 1000, .checkBackoff 2 1000, .checkBackoff 3 1000] ++
    refusal 0 1001 ++ refusal 1 1002 ++ refusal 2 1003 ++
    [.receive 3 1004 (connectMessage "secret")]


/-- The gateway with its default configuration, all clients at one address. -/
abbrev oneAddress : TransitionSystem (ConnectionState ℕ Unit) (ConnectionEvent ℕ) :=
  connections .default (some "secret") fun _ => ()

abbrev atRest : ConnectionState ℕ Unit :=
  ⟨.new authFailureMaxEntries, fun _ => .opening, fun _ => 0, []⟩

def lastVerification (s : ConnectionState ℕ Unit) : Option (ℕ × ℕ) :=
  s.verifications.getLast?.map fun verification =>
    (verification.atMs, verification.blockedUntilMs)

theorem patientRun_unblocked :
    ∃ s : ConnectionState ℕ Unit, lastVerification s = some (2504, 0) ∧ Unblocked s := by
  have ran : (oneAddress.run? NotOvertaken atRest patientRun).map lastVerification =
      some (some (2504, 0)) := by decide +kernel
  obtain ⟨s, reached, last⟩ := exists_of_run? (.init rfl) ran
  exact ⟨s, last, verified_unblocked _ _ _ s reached⟩

/-- The token of the fourth socket is verified at 1004 although the third failure
blocked the address until 2503. -/
theorem blocked_token_verified : ¬ ∀ s, oneAddress.Reachable s → Unblocked s := by
  intro unblocked
  have ran : (oneAddress.run? (fun _ _ => True) atRest overtakenRun).map lastVerification =
      some (some (1004, 2503)) := by decide +kernel
  obtain ⟨s, reached, last⟩ := exists_of_run? (.init rfl) ran
  obtain ⟨verification, isLast, times⟩ := Option.map_eq_some_iff.mp last
  have inTime := unblocked s reached verification (List.mem_of_getLast? isLast)
  obtain ⟨at_, until_⟩ := Prod.mk.injEq .. ▸ times
  rw [at_, until_] at inTime
  omega

end KelvinClaw.Gateway
