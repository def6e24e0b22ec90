import Mathlib.Data.List.Basic
import Mathlib.Order.Monotone.Defs

/-!
# Journaling computations

Sequential code that changes a state, may fail, and does things that outlive it: it
writes files, sends requests, starts jobs. A computation is a function from the state
to its result, the state after it and the journal of its lasting events, in order. A
failure keeps the changes and the events before it.

An observer keeps a *ledger* of the events. When the computation is cut short, the
state is lost and the ledger is that of a prefix of the journal. The program logic
has therefore two postconditions: one for the ledgers of all prefixes, and one for
the result, the state and the ledger at the end.
-/

namespace Systems

universe u

/-- What a computation leaves behind. -/
structure Outcome (σ ε err α : Type u) where
  result : Except err α
  state : σ
  journal : List ε

/-- A computation on a state, which logs events and may fail. -/
def Action (σ ε err α : Type u) : Type u := σ → Outcome σ ε err α

namespace Action

variable {σ ε err α β : Type u}

/-- Continue after a success; a failure ends the whole. -/
protected def bind (act : Action σ ε err α) (next : α → Action σ ε err β) : Action σ ε err β :=
  fun s =>
    match act s with
    | ⟨.ok a, t, log⟩ =>
      match next a t with
      | ⟨result, u, rest⟩ => ⟨result, u, log ++ rest⟩
    | ⟨.error e, t, log⟩ => ⟨.error e, t, log⟩

instance : Monad (Action σ ε err) where
  pure a := fun s => ⟨.ok a, s, []⟩
  bind := Action.bind

/-- End with an error. -/
def fail (e : err) : Action σ ε err α := fun s => ⟨.error e, s, []⟩

def get : Action σ ε err σ := fun s => ⟨.ok s, s, []⟩

/-- Change the state. -/
def modify (change : σ → σ) : Action σ ε err PUnit := fun s => ⟨.ok ⟨⟩, change s, []⟩

/-- Do something lasting. -/
def log (event : ε) : Action σ ε err PUnit := fun s => ⟨.ok ⟨⟩, s, [event]⟩

/-- Run a computation for its result, which may be an error. -/
def attempt (act : Action σ ε err α) : Action σ ε err (Except err α) := fun s =>
  match act s with
  | ⟨result, t, log⟩ => ⟨.ok result, t, log⟩

/-- The value of a result. -/
def ofExcept : Except err α → Action σ ε err α
  | .ok a => pure a
  | .error e => fail e

/-! ### Sequences -/

section Sequences

variable {γ : Type u} (act : Action σ ε err α) (next : α → Action σ ε err β)

variable {act next} in
/-- A sequence after a success. -/
theorem bind_apply_of_result {a : α} {s : σ} (ran : (act s).result = .ok a) :
    (act >>= next) s = ⟨(next a (act s).state).result, (next a (act s).state).state,
      (act s).journal ++ (next a (act s).state).journal⟩ := by
  change Action.bind act next s = _
  unfold Action.bind
  cases outcome : act s with
  | mk result t log =>
    rw [outcome] at ran
    obtain rfl : result = .ok a := ran
    rfl

variable {act next} in
/-- A sequence after a failure. -/
theorem bind_apply_of_error {e : err} {s : σ} (ran : (act s).result = .error e) :
    (act >>= next) s = ⟨.error e, (act s).state, (act s).journal⟩ := by
  change Action.bind act next s = _
  unfold Action.bind
  cases outcome : act s with
  | mk result t log =>
    rw [outcome] at ran
    obtain rfl : result = .error e := ran
    rfl

variable {act next} in
theorem bind_apply_ok {a : α} {s t : σ} {log : List ε} (ran : act s = ⟨.ok a, t, log⟩) :
    (act >>= next) s =
      ⟨(next a t).result, (next a t).state, log ++ (next a t).journal⟩ := by
  rw [bind_apply_of_result (congrArg Outcome.result ran), ran]

variable {act next} in
/-- A sequence depends on its first part at its state only. -/
theorem bind_apply_congr {other : Action σ ε err α} {s : σ} (same : act s = other s) :
    (act >>= next) s = (other >>= next) s := by
  change Action.bind act next s = Action.bind other next s
  unfold Action.bind
  rw [same]

@[simp] theorem result_pure (a : α) (s : σ) :
    ((pure a : Action σ ε err α) s).result = .ok a := rfl

@[simp] theorem result_fail (e : err) (s : σ) :
    ((fail e : Action σ ε err α) s).result = .error e := rfl

@[simp] theorem result_ofExcept (result : Except err α) (s : σ) :
    ((ofExcept result : Action σ ε err α) s).result = result := by
  cases result <;> rfl

@[simp] theorem state_ofExcept (result : Except err α) (s : σ) :
    ((ofExcept result : Action σ ε err α) s).state = s := by
  cases result <;> rfl

theorem log_apply (event : ε) (s : σ) :
    (log event : Action σ ε err PUnit) s = ⟨.ok ⟨⟩, s, [event]⟩ := rfl

theorem journal_ofExcept (result : Except err α) (s : σ) :
    ((ofExcept result : Action σ ε err α) s).journal = [] := by
  cases result <;> rfl

variable {act next} in
/-- The events of a sequence are those of its first part and, after a success, of its second. -/
theorem mem_journal_bind {event : ε} {s : σ} : event ∈ ((act >>= next) s).journal ↔
    event ∈ (act s).journal ∨
      ∃ a, (act s).result = .ok a ∧ event ∈ (next a (act s).state).journal := by
  change event ∈ (Action.bind act next s).journal ↔ _
  unfold Action.bind
  cases act s with
  | mk result t log => cases result <;> simp

variable {act next} in
/-- A sequence succeeds when both of its parts do. -/
theorem result_bind_ok {b : β} {s : σ} : ((act >>= next) s).result = .ok b ↔
    ∃ a, (act s).result = .ok a ∧ (next a (act s).state).result = .ok b := by
  change (Action.bind act next s).result = .ok b ↔ _
  unfold Action.bind
  cases act s with
  | mk result t log => cases result <;> simp

theorem attempt_apply (act : Action σ ε err α) (s : σ) :
    attempt act s = ⟨.ok (act s).result, (act s).state, (act s).journal⟩ := rfl

theorem ofExcept_ok (a : α) : (ofExcept (.ok a) : Action σ ε err α) = pure a := rfl

theorem ofExcept_error (e : err) : (ofExcept (.error e) : Action σ ε err α) = fail e := rfl

/-- A result computed at the end changes nothing else. -/
theorem state_bind_pure (act : Action σ ε err α) (value : α → β) (s : σ) :
    ((act >>= fun a => pure (value a)) s).state = (act s).state := by
  change (Action.bind act (fun a => pure (value a)) s).state = _
  unfold Action.bind
  cases act s with
  | mk result t log => cases result <;> rfl

/-- Nor does it log anything. -/
theorem journal_bind_pure (act : Action σ ε err α) (value : α → β) (s : σ) :
    ((act >>= fun a => pure (value a)) s).journal = (act s).journal := by
  change (Action.bind act (fun a => pure (value a)) s).journal = _
  unfold Action.bind
  cases act s with
  | mk result t log =>
    cases result with
    | error e => rfl
    | ok a => exact List.append_nil log

theorem get_bind_apply (next : σ → Action σ ε err β) (s : σ) : (get >>= next) s = next s s := rfl

protected theorem pure_bind (a : α) : (pure a >>= next : Action σ ε err β) = next a := rfl

protected theorem bind_assoc (last : β → Action σ ε err γ) :
    (act >>= next) >>= last = act >>= fun a => next a >>= last := by
  funext s
  change Action.bind (Action.bind act next) last s =
    Action.bind act (fun a => Action.bind (next a) last) s
  unfold Action.bind
  cases act s with
  | mk result t log =>
    cases result with
    | error e => rfl
    | ok a =>
      simp only
      cases next a t with
      | mk result u more => cases result <;> simp only [List.append_assoc]

end Sequences

/-! ### Refusals -/

section Refusals

/-- The computation fails before it does anything. -/
def Refuses (act : Action σ ε err α) (s : σ) : Prop := ∃ e, act s = ⟨.error e, s, []⟩

theorem refuses_fail (e : err) (s : σ) : Refuses (fail e : Action σ ε err α) s := ⟨e, rfl⟩

/-- A check, and a refusal after the check has passed. -/
theorem refuses_check {check : Except err β} {next : β → Action σ ε err α} {s : σ}
    (later : ∀ b, check = .ok b → Refuses (next b) s) : Refuses (ofExcept check >>= next) s := by
  cases check with
  | ok b => exact later b rfl
  | error e => exact ⟨e, rfl⟩

/-- Nothing follows a refusal. -/
theorem Refuses.bind {act : Action σ ε err β} {s : σ} (refuses : Refuses act s)
    (next : β → Action σ ε err α) : Refuses (act >>= next) s := by
  obtain ⟨e, failed⟩ := refuses
  refine ⟨e, ?_⟩
  rw [bind_apply_of_error (congrArg Outcome.result failed), failed]

end Refusals

/-! ### Weakest preconditions -/

section Rules

variable {L : Type*} (record : L → ε → L) (during : L → Prop)
  {act : Action σ ε err α} {post post' : Except err α → σ → L → Prop} {s : σ} {ledger : L}

/-- From state `s` and `ledger`, the ledger after any number of events of the journal
satisfies `during`, and the result, the state and the ledger at the end satisfy `post`. -/
def wp (act : Action σ ε err α) (post : Except err α → σ → L → Prop) (s : σ) (ledger : L) : Prop :=
  (∀ events, during (((act s).journal.take events).foldl record ledger)) ∧
    post (act s).result (act s).state ((act s).journal.foldl record ledger)

variable {record during}

/-- A computation cut short after some events leaves a ledger in `during`. -/
theorem wp.crash (holds : wp record during act post s ledger) (events : ℕ) :
    during (((act s).journal.take events).foldl record ledger) :=
  holds.1 events

/-- A weaker postcondition, for which `during` may be used. -/
theorem wp.mono (holds : wp record during act post s ledger)
    (weaker : ∀ result t after, during after → post result t after → post' result t after) :
    wp record during act post' s ledger := by
  refine ⟨holds.1, weaker _ _ _ ?_ holds.2⟩
  have atEnd := holds.1 (act s).journal.length
  rwa [List.take_length] at atEnd

@[simp] theorem wp_pure {a : α} : wp record during (pure a : Action σ ε err α) post s ledger ↔
    during ledger ∧ post (.ok a) s ledger := by
  simp [wp, pure]

@[simp] theorem wp_fail {e : err} : wp record during (fail e : Action σ ε err α) post s ledger ↔
    during ledger ∧ post (.error e) s ledger := by
  simp [wp, fail]

@[simp] theorem wp_get {post : Except err σ → σ → L → Prop} :
    wp record during (get : Action σ ε err σ) post s ledger ↔
      during ledger ∧ post (.ok s) s ledger := by
  simp [wp, get]

@[simp] theorem wp_modify {change : σ → σ} {post : Except err PUnit → σ → L → Prop} :
    wp record during (modify change : Action σ ε err PUnit) post s ledger ↔
      during ledger ∧ post (.ok ⟨⟩) (change s) ledger := by
  simp [wp, modify]

@[simp] theorem wp_log {event : ε} {post : Except err PUnit → σ → L → Prop} :
    wp record during (log event : Action σ ε err PUnit) post s ledger ↔
      (during ledger ∧ during (record ledger event)) ∧ post (.ok ⟨⟩) s (record ledger event) := by
  simp only [wp, log, List.foldl_cons, List.foldl_nil, and_congr_left_iff]
  intro _
  constructor
  · intro always
    exact ⟨always 0, always 1⟩
  · intro ⟨before, after⟩ events
    cases events with
    | zero => exact before
    | succ more => simpa using after

@[simp] theorem wp_attempt {post : Except err (Except err α) → σ → L → Prop} :
    wp record during (attempt act) post s ledger ↔
      wp record during act (fun result => post (.ok result)) s ledger := by
  simp [wp, attempt]

/-- Of a sequence, the second part is run from where the first one succeeds. -/
@[simp] theorem wp_bind {next : α → Action σ ε err β} {post : Except err β → σ → L → Prop} :
    wp record during (act >>= next) post s ledger ↔
      wp record during act (fun result t after => match result with
        | .ok a => wp record during (next a) post t after
        | .error e => post (.error e) t after) s ledger := by
  change wp record during (Action.bind act next) post s ledger ↔ _
  unfold wp Action.bind
  cases ran : act s with
  | mk result t log =>
    cases result with
    | error e => rfl
    | ok a =>
      -- a cut falls into the first journal, or into the second one after all of the first
      simp only [List.foldl_append, ← and_assoc, and_congr_left_iff, List.take_append]
      intro _
      constructor
      · intro always
        constructor
        · intro events
          by_cases early : events ≤ log.length
          · simpa [Nat.sub_eq_zero_of_le early] using always events
          · simpa [List.take_of_length_le (Nat.le_of_not_le early)] using always log.length
        · intro events
          simpa [List.take_of_length_le (Nat.le_add_right ..)] using always (log.length + events)
      · intro ⟨first, second⟩ events
        by_cases early : events ≤ log.length
        · simpa [Nat.sub_eq_zero_of_le early] using first events
        · simpa [List.take_of_length_le (Nat.le_of_not_le early)] using
            second (events - log.length)

end Rules

/-- What each of some events keeps true of a ledger. -/
theorem foldl_of_allowed {L : Type*} {record : L → ε → L} {inv : L → Prop} {allowed : ε → Prop}
    (closed : ∀ ledger event, inv ledger → allowed event → inv (record ledger event))
    {events : List ε} {ledger : L} (starts : inv ledger) (every : ∀ event ∈ events, allowed event) :
    inv (events.foldl record ledger) := by
  induction events generalizing ledger with
  | nil => exact starts
  | cons event rest ih =>
    rw [List.forall_mem_cons] at every
    exact ih (closed _ _ starts every.1) every.2

/-! ### Frames -/

section Frames

variable {V : Type*} (view : σ → V) (allowed : V → ε → Prop)

/-- The computation leaves the view of the state alone, and the events it logs are ones
that the view allows. -/
def Frames (act : Action σ ε err α) : Prop :=
  ∀ s, view (act s).state = view s ∧ ∀ event ∈ (act s).journal, allowed (view s) event

variable {view allowed} {act : Action σ ε err α}

theorem frames_pure (a : α) : Frames view allowed (pure a : Action σ ε err α) :=
  fun _ => ⟨rfl, fun _ member => by cases member⟩

theorem frames_fail (e : err) : Frames view allowed (fail e : Action σ ε err α) :=
  fun _ => ⟨rfl, fun _ member => by cases member⟩

theorem frames_get : Frames view allowed (get : Action σ ε err σ) :=
  fun _ => ⟨rfl, fun _ member => by cases member⟩

theorem frames_log {event : ε} (always : ∀ v, allowed v event) :
    Frames view allowed (log event : Action σ ε err PUnit) := by
  intro s
  refine ⟨rfl, fun other member => ?_⟩
  obtain rfl := List.mem_singleton.mp member
  exact always _

theorem frames_modify {change : σ → σ} (same : ∀ s, view (change s) = view s) :
    Frames view allowed (modify change : Action σ ε err PUnit) :=
  fun s => ⟨same s, fun _ member => by cases member⟩

theorem frames_ofExcept (result : Except err α) :
    Frames view allowed (ofExcept result : Action σ ε err α) := by
  cases result with
  | ok a => exact frames_pure a
  | error e => exact frames_fail e

/-- What follows a check is run with what was checked. -/
theorem frames_check {result : Except err α} {next : α → Action σ ε err β}
    (passed : ∀ a, result = .ok a → Frames view allowed (next a)) :
    Frames view allowed (ofExcept result >>= next) := by
  cases result with
  | ok a => exact passed a rfl
  | error e => exact frames_fail e

theorem frames_attempt (frames : Frames view allowed act) : Frames view allowed (attempt act) :=
  frames

theorem frames_bind {next : α → Action σ ε err β} (first : Frames view allowed act)
    (second : ∀ a, Frames view allowed (next a)) : Frames view allowed (act >>= next) := by
  intro s
  change view (Action.bind act next s).state = _ ∧ ∀ event ∈ (Action.bind act next s).journal, _
  obtain ⟨same, logged⟩ := first s
  unfold Action.bind
  cases ran : act s with
  | mk result t log =>
    rw [ran] at same logged
    cases result with
    | error e => exact ⟨same, logged⟩
    | ok a =>
      obtain ⟨sameToo, loggedToo⟩ := second a t
      refine ⟨sameToo.trans same, fun event member => ?_⟩
      rcases List.mem_append.mp member with early | late
      · exact logged event early
      · exact same ▸ loggedToo event late

theorem Frames.mono {W : Type*} {allowed' : W → ε → Prop} (frames : Frames view allowed act)
    (coarser : V → W) (weaker : ∀ v event, allowed v event → allowed' (coarser v) event) :
    Frames (fun s => coarser (view s)) allowed' act :=
  fun s => ⟨congrArg coarser (frames s).1,
    fun event member => weaker _ event ((frames s).2 event member)⟩

theorem frames_ite {condition : Prop} [Decidable condition] {other : Action σ ε err α}
    (yes : Frames view allowed act) (no : Frames view allowed other) :
    Frames view allowed (if condition then act else other) := by
  split
  · exact yes
  · exact no

/-- **The frame rule.** What the allowed events keep true of the view and the ledger
stays true throughout. -/
theorem Frames.wp {L : Type*} {record : L → ε → L} {during : L → Prop} (inv : V → L → Prop)
    (frames : Frames view allowed act)
    (closed : ∀ v ledger event, inv v ledger → allowed v event → inv v (record ledger event))
    (safe : ∀ v ledger, inv v ledger → during ledger) {s : σ} {ledger : L}
    (starts : inv (view s) ledger) :
    wp record during act (fun _ t after => view t = view s ∧ inv (view s) after) s ledger := by
  obtain ⟨same, logged⟩ := frames s
  have kept : ∀ events : List ε, (∀ event ∈ events, allowed (view s) event) →
      inv (view s) (events.foldl record ledger) :=
    fun _ => foldl_of_allowed (closed (view s)) starts
  refine ⟨fun events => safe _ _ (kept _ ?_), same, kept _ logged⟩
  exact fun event member => logged event (List.mem_of_mem_take member)

end Frames

/-! ### Advances -/

section Advances

variable {V : Type*} [Preorder V] (view : σ → V) (allowed : V → ε → Prop)

/-- The computation moves the view of the state forward, and the events it logs are ones that
the view before allows. -/
def Advances (act : Action σ ε err α) : Prop :=
  ∀ s, view s ≤ view (act s).state ∧ ∀ event ∈ (act s).journal, allowed (view s) event

variable {view allowed} {act : Action σ ε err α}

theorem advances_pure (a : α) : Advances view allowed (pure a : Action σ ε err α) :=
  fun _ => ⟨le_refl _, fun _ member => by cases member⟩

theorem advances_fail (e : err) : Advances view allowed (fail e : Action σ ε err α) :=
  fun _ => ⟨le_refl _, fun _ member => by cases member⟩

theorem advances_get : Advances view allowed (get : Action σ ε err σ) :=
  fun _ => ⟨le_refl _, fun _ member => by cases member⟩

theorem advances_log {event : ε} (always : ∀ v, allowed v event) :
    Advances view allowed (log event : Action σ ε err PUnit) := by
  intro s
  refine ⟨le_refl _, fun other member => ?_⟩
  obtain rfl := List.mem_singleton.mp member
  exact always _

theorem advances_modify {change : σ → σ} (forward : ∀ s, view s ≤ view (change s)) :
    Advances view allowed (modify change : Action σ ε err PUnit) :=
  fun s => ⟨forward s, fun _ member => by cases member⟩

theorem advances_attempt (advances : Advances view allowed act) :
    Advances view allowed (attempt act) :=
  advances

theorem advances_ite {condition : Prop} [Decidable condition] {other : Action σ ε err α}
    (yes : Advances view allowed act) (no : Advances view allowed other) :
    Advances view allowed (if condition then act else other) := by
  split
  · exact yes
  · exact no

/-- A sequence advances when what a later view allows was allowed before. -/
theorem advances_bind (earlier : Antitone allowed) {next : α → Action σ ε err β}
    (first : Advances view allowed act) (second : ∀ a, Advances view allowed (next a)) :
    Advances view allowed (act >>= next) := by
  intro s
  change view s ≤ view (Action.bind act next s).state ∧
    ∀ event ∈ (Action.bind act next s).journal, _
  obtain ⟨forward, logged⟩ := first s
  unfold Action.bind
  cases ran : act s with
  | mk result t log =>
    rw [ran] at forward logged
    cases result with
    | error e => exact ⟨forward, logged⟩
    | ok a =>
      obtain ⟨further, loggedToo⟩ := second a t
      refine ⟨forward.trans further, fun event member => ?_⟩
      rcases List.mem_append.mp member with early | late
      · exact logged event early
      · exact earlier forward event (loggedToo event late)

/-- What the allowed events keep true of the ledger holds throughout, and the view moves
forward. -/
theorem Advances.wp {L : Type*} {record : L → ε → L} {inv : L → Prop} {s : σ}
    (advances : Advances view allowed act)
    (closed : ∀ ledger event, inv ledger → allowed (view s) event → inv (record ledger event))
    {ledger : L} (starts : inv ledger) :
    wp record inv act (fun _ t after => view s ≤ view t ∧ inv after) s ledger := by
  obtain ⟨forward, logged⟩ := advances s
  have kept : ∀ events : List ε, (∀ event ∈ events, allowed (view s) event) →
      inv (events.foldl record ledger) := fun _ => foldl_of_allowed closed starts
  refine ⟨fun events => kept _ ?_, forward, kept _ logged⟩
  exact fun event member => logged event (List.mem_of_mem_take member)

end Advances

/-! ### Invariants of the state and the ledger -/

section Keeps

variable {L : Type*} (record : L → ε → L) (during : L → Prop) (inv : σ → L → Prop)

/-- The computation keeps an invariant of the state and the ledger, and `during` throughout. -/
def Keeps (act : Action σ ε err α) : Prop :=
  ∀ s ledger, inv s ledger → wp record during act (fun _ t after => inv t after) s ledger

variable {record during inv} {act : Action σ ε err α}
  (safe : ∀ s ledger, inv s ledger → during ledger)
include safe

theorem keeps_pure (a : α) : Keeps record during inv (pure a : Action σ ε err α) :=
  fun s ledger holds => wp_pure.mpr ⟨safe s ledger holds, holds⟩

theorem keeps_fail (e : err) : Keeps record during inv (fail e : Action σ ε err α) :=
  fun s ledger holds => wp_fail.mpr ⟨safe s ledger holds, holds⟩

theorem keeps_log {event : ε} (kept : ∀ s ledger, inv s ledger → inv s (record ledger event)) :
    Keeps record during inv (log event : Action σ ε err PUnit) := by
  intro s ledger holds
  have after := kept s ledger holds
  exact wp_log.mpr ⟨⟨safe s ledger holds, safe s _ after⟩, after⟩

omit safe in
theorem keeps_attempt (keeps : Keeps record during inv act) :
    Keeps record during inv (attempt act) :=
  fun s ledger holds => wp_attempt.mpr (keeps s ledger holds)

omit safe in
theorem keeps_ite {condition : Prop} [Decidable condition] {other : Action σ ε err α}
    (yes : Keeps record during inv act) (no : Keeps record during inv other) :
    Keeps record during inv (if condition then act else other) := by
  split
  · exact yes
  · exact no

omit safe in
theorem keeps_bind {next : α → Action σ ε err β} (first : Keeps record during inv act)
    (second : ∀ a, Keeps record during inv (next a)) :
    Keeps record during inv (act >>= next) := by
  intro s ledger holds
  apply wp_bind.mpr
  apply (first s ledger holds).mono
  intro result t after _ kept
  cases result with
  | ok a => exact second a t after kept
  | error e => exact kept

omit safe in
/-- What a framed computation leaves alone. -/
theorem keeps_of_frames {V : Type*} {view : σ → V} {allowed : V → ε → Prop}
    {keeps : V → L → Prop} (viewed : ∀ s ledger, inv s ledger ↔ keeps (view s) ledger)
    (frames : Frames view allowed act)
    (closed : ∀ v ledger event, keeps v ledger → allowed v event → keeps v (record ledger event))
    (kept : ∀ v ledger, keeps v ledger → during ledger) : Keeps record during inv act := by
  intro s ledger holds
  apply (frames.wp keeps closed kept ((viewed s ledger).mp holds)).mono
  intro result t after _ ⟨same, holds⟩
  rw [viewed, same]
  exact holds

end Keeps

/-! ### Computations made of steps -/

section MadeOf

/-- The computations that run some steps one after the other, and may catch a failure. -/
inductive MadeOf (steps : (α : Type u) → Action σ ε err α → Prop) :
    {α : Type u} → Action σ ε err α → Prop
  | step {α : Type u} {act : Action σ ε err α} (is : steps α act) : MadeOf steps act
  | pure {α : Type u} (a : α) : MadeOf steps (pure a)
  | fail {α : Type u} (e : err) : MadeOf steps (fail e : Action σ ε err α)
  | bind {α β : Type u} {act : Action σ ε err α} {next : α → Action σ ε err β}
    (first : MadeOf steps act) (second : ∀ a, MadeOf steps (next a)) : MadeOf steps (act >>= next)
  | attempt {α : Type u} {act : Action σ ε err α} (made : MadeOf steps act) :
    MadeOf steps (attempt act)

variable {steps : (α : Type u) → Action σ ε err α → Prop} {act : Action σ ε err α}

theorem MadeOf.ofExcept (result : Except err α) :
    MadeOf steps (ofExcept result : Action σ ε err α) := by
  cases result with
  | ok a => exact .pure a
  | error e => exact .fail e

theorem MadeOf.ite {condition : Prop} [Decidable condition] {other : Action σ ε err α}
    (yes : MadeOf steps act) (no : MadeOf steps other) :
    MadeOf steps (if condition then act else other) := by
  split
  · exact yes
  · exact no

theorem MadeOf.frames {V : Type*} {view : σ → V} {allowed : V → ε → Prop}
    (made : MadeOf steps act) (each : ∀ {α} {act}, steps α act → Frames view allowed act) :
    Frames view allowed act := by
  induction made with
  | step is => exact each is
  | pure a => exact frames_pure a
  | fail e => exact frames_fail e
  | bind _ _ first second => exact frames_bind first second
  | attempt _ ih => exact frames_attempt ih

theorem MadeOf.advances {V : Type*} [Preorder V] {view : σ → V} {allowed : V → ε → Prop}
    (made : MadeOf steps act) (earlier : Antitone allowed)
    (each : ∀ {α} {act}, steps α act → Advances view allowed act) : Advances view allowed act := by
  induction made with
  | step is => exact each is
  | pure a => exact advances_pure a
  | fail e => exact advances_fail e
  | bind _ _ first second => exact advances_bind earlier first second
  | attempt _ ih => exact advances_attempt ih

theorem MadeOf.keeps {L : Type*} {record : L → ε → L} {during : L → Prop} {inv : σ → L → Prop}
    (made : MadeOf steps act) (safe : ∀ s ledger, inv s ledger → during ledger)
    (each : ∀ {α} {act}, steps α act → Keeps record during inv act) :
    Keeps record during inv act := by
  induction made with
  | step is => exact each is
  | pure a => exact keeps_pure safe a
  | fail e => exact keeps_fail safe e
  | bind _ _ first second => exact keeps_bind first second
  | attempt _ ih => exact keeps_attempt ih

end MadeOf

/-! ### Triples -/

/-- An observer keeps a ledger of the events, and expects something of it at every time and
more where a computation fails. -/
structure Observer (L ε : Type*) where
  record : L → ε → L
  during : L → Prop
  failing : L → Prop

section Triples

variable {L : Type*} (observer : Observer L ε) {pre : L → Prop} {act : Action σ ε err α}
  {post : α → L → Prop}

/-- From a ledger with `pre`, a computation meets what the observer expects, and a success
leads to a ledger with `post`. -/
def Triple (pre : L → Prop) (act : Action σ ε err α) (post : α → L → Prop) : Prop :=
  ∀ s ledger, pre ledger →
    wp observer.record observer.during act (fun result _ after => match result with
      | .ok a => post a after
      | .error _ => observer.failing after) s ledger

variable {observer}

theorem Triple.mono {pre' : L → Prop} {post' : α → L → Prop} (triple : Triple observer pre act post)
    (stronger : ∀ ledger, pre' ledger → pre ledger)
    (weaker : ∀ a ledger, observer.during ledger → post a ledger → post' a ledger) :
    Triple observer pre' act post' := by
  intro s ledger holds
  apply (triple s ledger (stronger ledger holds)).mono
  intro result t after during reached
  cases result with
  | ok a => exact weaker a after during reached
  | error e => exact reached

/-- What is so of every success of a computation may be added. -/
theorem Triple.and_result {P : α → Prop} (triple : Triple observer pre act post)
    (yields : ∀ s a, (act s).result = .ok a → P a) :
    Triple observer pre act fun a ledger => post a ledger ∧ P a := by
  intro s ledger holds
  obtain ⟨always, atEnd⟩ := triple s ledger holds
  refine ⟨always, ?_⟩
  cases ran : (act s).result with
  | ok a =>
    rw [ran] at atEnd
    exact ⟨atEnd, yields s a ran⟩
  | error e =>
    rw [ran] at atEnd
    exact atEnd

theorem triple_pure {a : α}
    (reached : ∀ ledger, pre ledger → observer.during ledger ∧ post a ledger) :
    Triple observer pre (pure a : Action σ ε err α) post := by
  intro s ledger holds
  exact wp_pure.mpr (reached ledger holds)

theorem triple_fail {e : err}
    (reached : ∀ ledger, pre ledger → observer.during ledger ∧ observer.failing ledger) :
    Triple observer pre (fail e : Action σ ε err α) post := by
  intro s ledger holds
  exact wp_fail.mpr (reached ledger holds)

theorem triple_ofExcept {result : Except err α}
    (safe : ∀ ledger, pre ledger → observer.during ledger ∧ observer.failing ledger) :
    Triple observer pre (ofExcept result : Action σ ε err α) fun _ => pre := by
  cases result with
  | ok a => exact triple_pure fun ledger holds => ⟨(safe ledger holds).1, holds⟩
  | error e => exact triple_fail safe

theorem triple_log {event : ε} {post : PUnit → L → Prop}
    (before : ∀ ledger, pre ledger → observer.during ledger)
    (after : ∀ ledger, pre ledger →
      observer.during (observer.record ledger event) ∧ post ⟨⟩ (observer.record ledger event)) :
    Triple observer pre (log event : Action σ ε err PUnit) post := by
  intro s ledger holds
  obtain ⟨during, reached⟩ := after ledger holds
  exact wp_log.mpr ⟨⟨before ledger holds, during⟩, reached⟩

theorem triple_bind {next : α → Action σ ε err β} {R : α → L → Prop} {post : β → L → Prop}
    (first : Triple observer pre act R) (second : ∀ a, Triple observer (R a) (next a) post) :
    Triple observer pre (act >>= next) post := by
  intro s ledger holds
  apply wp_bind.mpr
  apply (first s ledger holds).mono
  intro result t after _ reached
  cases result with
  | ok a => exact second a t after reached
  | error e => exact reached

/-- A failure that is caught is a result. -/
theorem triple_attempt {fails : L → Prop}
    (triple : Triple { observer with failing := fails } pre act post) :
    Triple observer pre (attempt act) fun result after => match result with
      | .ok a => post a after
      | .error _ => fails after := by
  intro s ledger holds
  exact wp_attempt.mpr (triple s ledger holds)

/-- The events of a computation. -/
abbrev Logs (allowed : ε → Prop) (act : Action σ ε err α) : Prop :=
  Frames (fun _ => ()) (fun _ => allowed) act

/-- What the allowed events keep true of a ledger holds throughout. -/
theorem triple_of_logs {allowed : ε → Prop} (logs : Logs allowed act)
    (closed : ∀ ledger event, pre ledger → allowed event → pre (observer.record ledger event))
    (safe : ∀ ledger, pre ledger → observer.during ledger ∧ observer.failing ledger) :
    Triple observer pre act fun _ => pre := by
  intro s ledger holds
  have kept : wp observer.record observer.during act (fun _ _ after => () = () ∧ pre after) s
      ledger :=
    Frames.wp (fun _ => pre) logs (fun _ => closed)
      (fun _ ledger kept => (safe ledger kept).1) holds
  apply kept.mono
  intro result t after _ reached
  cases result with
  | ok a => exact reached.2
  | error e => exact (safe after reached.2).2

section Outcomes

variable {s : σ} {ledger : L}

/-- What a triple says of the prefixes of the journal. -/
theorem Triple.throughout (triple : Triple observer pre act post) (s : σ) (holds : pre ledger)
    (events : ℕ) :
    observer.during (((act s).journal.take events).foldl observer.record ledger) :=
  (triple s ledger holds).1 events

theorem Triple.of_ok (triple : Triple observer pre act post) (holds : pre ledger) {a : α}
    (succeeds : (act s).result = .ok a) :
    post a ((act s).journal.foldl observer.record ledger) := by
  have reached := (triple s ledger holds).2
  rw [succeeds] at reached
  exact reached

theorem Triple.of_error (triple : Triple observer pre act post) (holds : pre ledger) {e : err}
    (fails : (act s).result = .error e) :
    observer.failing ((act s).journal.foldl observer.record ledger) := by
  have reached := (triple s ledger holds).2
  rw [fails] at reached
  exact reached

end Outcomes

end Triples

/-! ### Results -/

section Ends

variable {act : Action σ ε err α} {s : σ}

/-- The result and the state at the end satisfy `post`. -/
abbrev Ends (act : Action σ ε err α) (post : Except err α → σ → Prop) (s : σ) : Prop :=
  wp (fun (_ : Unit) _ => ()) (fun _ => True) act (fun result t _ => post result t) s ()

theorem ends_iff {post : Except err α → σ → Prop} :
    Ends act post s ↔ post (act s).result (act s).state := by
  simp [wp]

variable {V : Type*} {view : σ → V} {allowed : V → ε → Prop}

/-- What follows a computation that leaves a view of the state alone. -/
theorem ends_bind_of_frames {next : α → Action σ ε err β} {post : Except err β → σ → Prop}
    (frames : Frames view allowed act) (fails : ∀ e t, view t = view s → post (.error e) t)
    (goes : ∀ a t, view t = view s → Ends (next a) post t) : Ends (act >>= next) post s := by
  refine wp_bind.mpr ⟨fun _ => trivial, ?_⟩
  have same := (frames s).1
  cases ran : (act s).result with
  | error e => exact fails e _ same
  | ok a => exact goes a _ same

/-- The same after a computation whose failure is caught. -/
theorem ends_bind_of_frames_attempt {next : Except err α → Action σ ε err β}
    {post : Except err β → σ → Prop} (frames : Frames view allowed act)
    (goes : ∀ result t, view t = view s → Ends (next result) post t) :
    Ends (attempt act >>= next) post s :=
  wp_bind.mpr (wp_attempt.mpr ⟨fun _ => trivial, goes _ _ (frames s).1⟩)

end Ends

end Action

end Systems
