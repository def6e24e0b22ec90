import KelvinClaw.Core.Text
import KelvinClaw.Library.LockedTasks
import KelvinClaw.Library.TransitionSystem

/-!
# The Telegram poller

The poller asks Telegram for updates, and spawns a task for each text message among them. A task
takes the lock of the channels and hands its message to the adapter.

The runtime may poll the tasks in any order, and they come through the lock in that order. So the
messages of a chat keep their order only if the runtime polls the tasks of the chat in turn.
-/

namespace KelvinClaw.Ingress

open KelvinClaw.Core Systems Systems.TransitionSystem

/-! ### Updates -/

structure TelegramChat where
  id : ℤ
  deriving DecidableEq, Repr

structure TelegramMessage where
  chat : TelegramChat
  text : Option String
  deriving DecidableEq, Repr

structure TelegramUpdate where
  updateId : ℤ
  message : Option TelegramMessage
  editedMessage : Option TelegramMessage
  channelPost : Option TelegramMessage
  deriving DecidableEq, Repr

structure TelegramIngressRequest where
  deliveryId : String
  chatId : ℤ
  text : String
  timeoutMs : Option ℕ
  authToken : Option String
  sessionId : Option String
  workspaceDir : Option String
  deriving DecidableEq, Repr

def intoRequest (update : TelegramUpdate) : Option TelegramIngressRequest := do
  let message ← (update.message.or update.editedMessage).or update.channelPost
  let text := trim (← message.text)
  if text = "" then none
  else
    some
      { deliveryId := s!"telegram:{update.updateId}"
        chatId := message.chat.id
        text
        timeoutMs := none
        authToken := none
        sessionId := none
        workspaceDir := none }

/-! ### The poller -/

structure GetUpdatesResponse where
  ok : Bool
  result : List TelegramUpdate
  description : Option String
  deriving DecidableEq, Repr

/-- The outcome of a request: it fails, its answer cannot be read, or it is read. -/
inductive PollOutcome where
  | requestFailed (err : String)
  | invalid (err : String)
  | answered (body : GetUpdatesResponse)
  deriving DecidableEq, Repr

def PollOutcome.updates : PollOutcome → List TelegramUpdate
  | .requestFailed _ | .invalid _ => []
  | .answered body => if body.ok then body.result else []

/-- Those who use the channels: the task of an update, or somebody else. -/
inductive ChannelUser where
  | ingest (updateId : ℤ) (request : TelegramIngressRequest)
  | elsewhere
  deriving DecidableEq, Repr

/-- The poller, with the rest of the batch that it goes through, and the users of the channels. -/
structure PollerRun where
  offset : ℤ
  batch : List TelegramUpdate
  users : LockedTasks ChannelUser
  deriving DecidableEq

inductive PollerEvent where
  | polled (outcome : PollOutcome)
  /-- The next update of the batch is handled. -/
  | handled
  /-- Somebody else wants to use the channels. -/
  | joined
  /-- The runtime polls a task for the first time. -/
  | started (index : ℕ)
  /-- The lock is released, after an ingestion or by somebody else. -/
  | released
  deriving DecidableEq, Repr

/-- The offset after an update. The addition wraps around. -/
def nextOffset (offset updateId : ℤ) : ℤ :=
  if offset ≤ updateId then Int.bmod (updateId + 1) (2 ^ 64) else offset

namespace PollerRun

variable (s : PollerRun)

def start : PollerRun := ⟨0, [], .none⟩

/-- A batch is asked for when the last one is done. -/
def receive (outcome : PollOutcome) : Option PollerRun :=
  if s.batch = [] then some { s with batch := outcome.updates } else none

def handle : Option PollerRun :=
  match s.batch with
  | [] => none
  | update :: rest =>
    some
      { offset := nextOffset s.offset update.updateId
        batch := rest
        users :=
          match intoRequest update with
          | none => s.users
          | some request => s.users.spawn (.ingest update.updateId request) }

end PollerRun

def telegramPoller : TransitionSystem PollerRun PollerEvent where
  init s := s = .start
  step s
    | .polled outcome => s.receive outcome
    | .handled => s.handle
    | .joined => some { s with users := s.users.spawn .elsewhere }
    | .started index => (s.users.poll index).map fun users => { s with users }
    | .released => s.users.release.map fun users => { s with users }

/-! ### Messages in order -/

def ChannelUser.Before : ChannelUser → ChannelUser → Prop
  | .ingest updateId request, .ingest laterId later =>
    request.chatId = later.chatId → updateId < laterId
  | _, _ => True

def InOrder (s : PollerRun) : Prop := s.users.entered.Pairwise ChannelUser.Before

def ChannelUser.SameChat : ChannelUser → ChannelUser → Prop
  | .ingest _ request, .ingest _ later => request.chatId = later.chatId
  | _, _ => False

/-- Telegram sends the updates of a chat in order, and the runtime polls no task while an earlier
one of its chat was not polled. -/
def InTurn (s : PollerRun) : PollerEvent → Prop
  | .handled => ∀ update ∈ s.batch.head?, ∀ request ∈ intoRequest update,
      ∀ user ∈ s.users.line, user.Before (.ingest update.updateId request)
  | .started index => ∀ user ∈ s.users.spawned[index]?,
      ∀ earlier ∈ s.users.spawned.take index, ¬ user.SameChat earlier
  | .polled _ | .joined | .released => True

instance : DecidableRel ChannelUser.Before
  | .ingest updateId request, .ingest laterId later =>
    inferInstanceAs (Decidable (request.chatId = later.chatId → updateId < laterId))
  | .ingest _ _, .elsewhere | .elsewhere, .ingest _ _ | .elsewhere, .elsewhere => isTrue trivial

instance : DecidableRel ChannelUser.SameChat
  | .ingest _ request, .ingest _ later =>
    inferInstanceAs (Decidable (request.chatId = later.chatId))
  | .ingest _ _, .elsewhere | .elsewhere, .ingest _ _ | .elsewhere, .elsewhere => isFalse id

instance (s : PollerRun) (event : PollerEvent) : Decidable (InTurn s event) :=
  match event with
  | .handled => inferInstanceAs (Decidable (∀ update ∈ s.batch.head?,
      ∀ request ∈ intoRequest update, ∀ user ∈ s.users.line,
        user.Before (.ingest update.updateId request)))
  | .started index => inferInstanceAs (Decidable (∀ user ∈ s.users.spawned[index]?,
      ∀ earlier ∈ s.users.spawned.take index, ¬ user.SameChat earlier))
  | .polled _ | .joined | .released => isTrue trivial

instance (s : PollerRun) : Decidable (InOrder s) :=
  inferInstanceAs (Decidable (s.users.entered.Pairwise ChannelUser.Before))

theorem ChannelUser.before_of_not_sameChat {user later : ChannelUser}
    (apart : ¬ user.SameChat later) : user.Before later := by
  cases user with
  | elsewhere => trivial
  | ingest updateId request =>
    cases later with
    | elsewhere => trivial
    | ingest laterId other => exact fun same => absurd same apart

theorem ChannelUser.before_elsewhere (user : ChannelUser) : user.Before .elsewhere := by
  cases user with
  | elsewhere => trivial
  | ingest updateId request => trivial

theorem users_step {s t : PollerRun} {event : PollerEvent} :
    telegramPoller.step s event = some t → match event with
    | .polled _ => t.users = s.users
    | .handled => t.users = s.users ∨ ∃ update ∈ s.batch.head?, ∃ request ∈ intoRequest update,
        t.users = s.users.spawn (.ingest update.updateId request)
    | .joined => t.users = s.users.spawn .elsewhere
    | .started index => s.users.poll index = some t.users
    | .released => s.users.release = some t.users := by
  intro moves
  cases event with
  | polled outcome =>
    by_cases done : s.batch = []
    · obtain rfl := Option.some_inj.mp ((if_pos done).symm.trans moves)
      rfl
    · cases (if_neg done).symm.trans moves
  | handled =>
    cases batch : s.batch with
    | nil => simp [telegramPoller, PollerRun.handle, batch] at moves
    | cons update rest =>
      simp only [telegramPoller, PollerRun.handle, batch, Option.some_inj] at moves
      subst moves
      cases accepted : intoRequest update with
      | none => exact .inl rfl
      | some request => exact .inr ⟨update, rfl, request, accepted, rfl⟩
  | joined =>
    obtain rfl := Option.some_inj.mp moves
    rfl
  | started index =>
    obtain ⟨users, polls, rfl⟩ := Option.map_eq_some_iff.mp moves
    exact polls
  | released =>
    obtain ⟨users, releases, rfl⟩ := Option.map_eq_some_iff.mp moves
    exact releases

/-- All tasks are in order, also those that were not polled. -/
def AllInOrder (s : PollerRun) : Prop := s.users.line.Pairwise ChannelUser.Before

theorem AllInOrder.step {s t : PollerRun} {event : PollerEvent} (ordered : AllInOrder s)
    (turn : InTurn s event) (moves : telegramPoller.step s event = some t) : AllInOrder t := by
  have users := users_step moves
  unfold AllInOrder at ordered ⊢
  cases event with
  | polled outcome => rwa [users]
  | handled =>
    rcases users with same | ⟨update, next, request, accepted, spawned⟩
    · rwa [same]
    · rw [spawned]
      exact LockedTasks.pairwise_line_spawn ordered (turn update next request accepted)
  | joined =>
    rw [users]
    exact LockedTasks.pairwise_line_spawn ordered fun user _ => user.before_elsewhere
  | started index =>
    refine LockedTasks.pairwise_line_poll ordered users fun user found earlier member => ?_
    exact ChannelUser.before_of_not_sameChat (turn user found earlier member)
  | released => rwa [LockedTasks.line_release users]

/-- **Messages in order.** In every run in which Telegram sends the updates of each chat in order
and no task overtakes another one of its chat, the messages of each chat are ingested in the order
of their updates. -/
theorem inOrder_of_inTurn (s : PollerRun) (reached : telegramPoller.ReachableWhen InTurn s) :
    InOrder s := by
  suffices ordered : AllInOrder s from LockedTasks.pairwise_entered ordered
  refine reached.invariant AllInOrder ?_ fun s event t => AllInOrder.step
  rintro s rfl
  exact .nil

/-! ### Messages out of order -/

/-- A task that overtook another one of its chat comes before it to the end. -/
theorem overtaken_run {s t : PollerRun} {events : List PollerEvent} {task other : ChannelUser}
    (after : LockedTasks.Overtaken task other s.users)
    (follows : telegramPoller.run? (fun _ _ => True) s events = some t) :
    LockedTasks.Overtaken task other t.users := by
  induction events generalizing s with
  | nil =>
    obtain rfl := Option.some_inj.mp follows
    exact after
  | cons event rest ih =>
    rw [run?, if_pos trivial] at follows
    obtain ⟨u, moves, follows⟩ := Option.bind_eq_some_iff.mp follows
    have users := users_step moves
    apply ih _ follows
    cases event with
    | polled outcome => rwa [users]
    | handled =>
      rcases users with same | ⟨update, next, request, accepted, spawned⟩
      · rwa [same]
      · rw [spawned]
        exact after.spawn _
    | joined =>
      rw [users]
      exact after.spawn _
    | started index => exact after.poll users
    | released => exact after.release users

/-- After a task overtook an earlier one of its chat, the messages are out of order once all tasks
are done. -/
theorem not_inOrder_of_overtaken {s t u : PollerRun} {index : ℕ} {events : List PollerEvent}
    (ordered : AllInOrder s) (overtakes : ¬ InTurn s (.started index))
    (moves : telegramPoller.step s (.started index) = some t)
    (follows : telegramPoller.run? (fun _ _ => True) t events = some u)
    (spawned : u.users.spawned = []) (waiting : u.users.waiting = []) : ¬ InOrder u := by
  rw [InTurn] at overtakes
  push Not at overtakes
  obtain ⟨user, found, earlier, member, same⟩ := overtakes
  have after :=
    overtaken_run (LockedTasks.overtaken_of_poll (users_step moves) found member) follows
  intro inOrder
  have late := inOrder.sublist (after.sublist_entered spawned waiting)
  -- the earlier task has the smaller id
  have early : earlier.Before user := by
    have inSpawned := ordered.sublist (List.sublist_append_right _ _)
    obtain ⟨inside, isUser⟩ := List.getElem?_eq_some_iff.mp found
    rw [← List.take_append_drop index s.users.spawned] at inSpawned
    refine (List.pairwise_append.mp inSpawned).2.2 earlier member user ?_
    rw [← isUser, ← List.getElem_cons_drop inside]
    exact List.mem_cons_self
  cases user with
  | elsewhere => exact same
  | ingest updateId request =>
    cases earlier with
    | elsewhere => exact same
    | ingest earlierId first =>
      have later := List.rel_of_pairwise_cons late (List.mem_singleton.mpr rfl) same
      exact lt_asymm later (early same.symm)

/-! ### Two messages of a chat -/

def chatMessage (updateId : ℤ) (text : String) : TelegramUpdate :=
  ⟨updateId, some ⟨⟨7⟩, some text⟩, none, none⟩

def twoMessages (first : ℕ) : List PollerEvent :=
  [.polled (.answered ⟨true, [chatMessage 1 "one", chatMessage 2 "two"], none⟩), .handled, .handled,
    .started first, .released, .started 0]

def PollerRun.ingestedIds (s : PollerRun) : List ℤ :=
  s.users.entered.filterMap fun
    | .ingest updateId _ => some updateId
    | .elsewhere => none

/-- Polled in turn, the messages keep their order. -/
theorem messages_in_turn : ∃ s, telegramPoller.ReachableWhen InTurn s ∧ InOrder s ∧
    s.ingestedIds = [1, 2] := by
  have ran : (telegramPoller.run? InTurn .start (twoMessages 0)).map PollerRun.ingestedIds =
      some [1, 2] := by
    decide +kernel
  obtain ⟨s, reached, ids⟩ := exists_of_run? (.init rfl) ran
  exact ⟨s, reached, inOrder_of_inTurn s reached, ids⟩

/-- If the second task is polled first, its message is ingested first. -/
theorem message_overtakes : ¬ ∀ s, telegramPoller.Reachable s → InOrder s := by
  intro law
  have ran : (telegramPoller.run? (fun _ _ => True) .start (twoMessages 1)).map
      (fun s => decide (InOrder s)) = some false := by
    decide +kernel
  obtain ⟨s, reached, disordered⟩ := exists_of_run? (.init rfl) ran
  exact of_decide_eq_false disordered (law s reached)

end KelvinClaw.Ingress
