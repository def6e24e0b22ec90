import Mathlib.Data.List.Basic
import Mathlib.Data.List.Count
import Mathlib.Data.List.Nodup
import KelvinClaw.Library.TransitionSystem

/-!
# Inboxes that execute every message once

A consumer that receives messages which may be sent again remembers their ids, oldest
first, and forgets the oldest ones. A new message is put into an inbox, from which it
is later taken and executed, or it is executed right away, past the inbox. Snapshots of
the remembered ids and of the inbox are saved from time to time; a crash throws away
the memory and goes on from the last snapshot.

An id that is being handled is in at most one place: in the inbox, admitted (remembered
and not yet in the inbox), taken (from the inbox and not yet executed) or executed. The
snapshot has to agree, so a crash must not come between an execution past the inbox and
the next save.
-/

namespace Systems

/-- What a snapshot holds. -/
structure InboxSnapshot (ι : Type*) where
  seen : List ι
  waiting : List ι
  deriving DecidableEq

/-- The state of a consumer, and what happened to ids so far. -/
structure DurableInbox (ι : Type*) where
  /-- The remembered ids, oldest first. -/
  seen : List ι
  /-- The ids in the inbox, next one first. -/
  waiting : List ι
  /-- The last id that was remembered, until it is queued or executed. -/
  admitted : Option ι
  /-- The last id that was taken from the inbox, until it is executed. -/
  taken : Option ι
  /-- The state was saved after the last id was taken. -/
  settled : Bool
  saved : Option (InboxSnapshot ι)
  executed : List ι
  forgotten : List ι
  /-- The ids executed past the inbox since the last save, and those executed when
  nothing had ever been saved. -/
  unsaved : List ι

inductive InboxEvent (ι : Type*) where
  | save
  | remember (id : ι)
  | forget (id : ι)
  | queue (id : ι)
  | bypass (id : ι)
  | take (id : ι)
  | execute (id : ι)
  /-- Go on from the last snapshot, without its oldest ids and its last entries. -/
  | crash (dropped kept : ℕ)

variable {ι : Type*}

namespace DurableInbox

/-- The consumer at the start. -/
def fresh : DurableInbox ι := ⟨[], [], none, none, false, none, [], [], []⟩

variable (a : DurableInbox ι)

/-- The last snapshot, which is empty as long as nothing was saved. -/
def snapshot : InboxSnapshot ι := a.saved.getD ⟨[], []⟩

def save : DurableInbox ι :=
  { a with saved := some ⟨a.seen, a.waiting⟩, settled := true, unsaved := [] }

def execute (id : ι) : DurableInbox ι :=
  { a with
    taken := none
    executed := a.executed ++ [id]
    unsaved := if a.saved.isNone then a.unsaved ++ [id] else a.unsaved }

def crash (dropped kept : ℕ) : DurableInbox ι :=
  { a with
    seen := a.snapshot.seen.drop dropped
    waiting := a.snapshot.waiting.take kept
    admitted := none
    taken := none
    settled := false
    forgotten := a.forgotten ++ a.snapshot.seen.take dropped }

end DurableInbox

variable [DecidableEq ι]

/-- The steps of a consumer. -/
def durableInbox (ι : Type*) [DecidableEq ι] :
    TransitionSystem (DurableInbox ι) (InboxEvent ι) where
  init a := a = .fresh
  step a
    | .save => some a.save
    | .remember id =>
      if id ∈ a.seen then none else some { a with seen := a.seen ++ [id], admitted := some id }
    | .forget id =>
      if a.seen.head? = some id then
        some { a with seen := a.seen.tail, forgotten := a.forgotten ++ [id] }
      else none
    | .queue id =>
      if a.admitted = some id then
        some { a with waiting := a.waiting ++ [id], admitted := none }
      else none
    | .bypass id =>
      if a.admitted = some id then
        some { a with
          admitted := none, executed := a.executed ++ [id], unsaved := a.unsaved ++ [id] }
      else none
    | .take id =>
      if a.waiting.head? = some id then
        some { a with waiting := a.waiting.tail, taken := some id, settled := false }
      else none
    | .execute id =>
      if a.taken = some id ∧ (a.settled ∨ a.saved = none) then some (a.execute id) else none
    | .crash dropped kept => some (a.crash dropped kept)

/-- A crash finds every execution saved. -/
def AfterSave (a : DurableInbox ι) : InboxEvent ι → Prop
  | .crash .. => a.unsaved = []
  | _ => True

namespace DurableInbox

/-! ### Places -/

def places (a : DurableInbox ι) (id : ι) : ℕ :=
  a.waiting.count id + a.admitted.toList.count id + a.taken.toList.count id + a.executed.count id

/-- In how many places it is for somebody who goes on from the last snapshot. -/
def savedPlaces (a : DurableInbox ι) (id : ι) : ℕ :=
  a.snapshot.waiting.count id + (if a.settled then a.taken.toList.count id else 0) +
    a.executed.count id

/-- An id that was not forgotten is in one place at most, and remembered if it is in one;
and the same is true of the snapshot when the execution of the id has been saved. -/
structure Sound (a : DurableInbox ι) : Prop where
  memory : ∀ id ∉ a.forgotten, a.places id ≤ 1 ∧ (0 < a.places id → id ∈ a.seen)
  disk : ∀ id ∉ a.forgotten, id ∉ a.unsaved →
    a.savedPlaces id ≤ 1 ∧ (0 < a.savedPlaces id → id ∈ a.snapshot.seen)

theorem sound_fresh : Sound (fresh : DurableInbox ι) := by
  constructor <;> simp [fresh, places, savedPlaces, snapshot]

variable {a : DurableInbox ι}

theorem Sound.save (sound : Sound a) : Sound a.save := by
  refine ⟨sound.memory, fun id kept _ => ?_⟩
  have here := sound.memory id kept
  simp only [savedPlaces, snapshot, DurableInbox.save, places, Option.getD_some, if_true] at here ⊢
  refine ⟨by omega, fun present => here.2 (by omega)⟩

theorem Sound.remember {id : ι} (sound : Sound a) (new : id ∉ a.seen) :
    Sound { a with seen := a.seen ++ [id], admitted := some id } := by
  refine ⟨fun other kept => ?_, sound.disk⟩
  have here := sound.memory other kept
  simp only [places, Option.toList_some, List.count_singleton, List.mem_append] at here ⊢
  by_cases same : other = id
  · -- a new id is nowhere yet
    subst same
    have nowhere := mt here.2 new
    simp only [beq_self_eq_true, if_true, List.mem_singleton, or_true, implies_true, and_true]
    omega
  · rw [if_neg (by simpa using Ne.symm same)]
    refine ⟨by omega, fun present => .inl (here.2 (by omega))⟩

theorem Sound.forget {id : ι} (sound : Sound a) (oldest : a.seen.head? = some id) :
    Sound { a with seen := a.seen.tail, forgotten := a.forgotten ++ [id] } := by
  have split : a.seen = id :: a.seen.tail := List.eq_cons_of_mem_head? oldest
  refine ⟨fun other kept => ?_, fun other kept => ?_⟩
  · simp only [List.mem_append, List.mem_singleton, not_or] at kept
    have here := sound.memory other kept.1
    refine ⟨here.1, fun present => ?_⟩
    have remembered := here.2 present
    rw [split, List.mem_cons] at remembered
    exact remembered.resolve_left kept.2
  · simp only [List.mem_append, not_or] at kept
    exact sound.disk other kept.1

theorem Sound.queue {id : ι} (sound : Sound a) (admitted : a.admitted = some id) :
    Sound { a with waiting := a.waiting ++ [id], admitted := none } := by
  refine ⟨fun other kept => ?_, sound.disk⟩
  have here := sound.memory other kept
  simp only [places, admitted, Option.toList_some, Option.toList_none, List.count_append,
    List.count_nil] at here ⊢
  refine ⟨by omega, fun present => here.2 (by omega)⟩

theorem Sound.bypass {id : ι} (sound : Sound a) (admitted : a.admitted = some id) :
    Sound { a with
      admitted := none, executed := a.executed ++ [id], unsaved := a.unsaved ++ [id] } := by
  refine ⟨fun other kept => ?_, fun other kept saved => ?_⟩
  · have here := sound.memory other kept
    simp only [places, admitted, Option.toList_some, Option.toList_none, List.count_append,
      List.count_nil] at here ⊢
    refine ⟨by omega, fun present => here.2 (by omega)⟩
  · simp only [List.mem_append, List.mem_singleton, not_or] at saved
    have here := sound.disk other kept saved.1
    have apart := List.count_eq_zero.mpr (mt List.mem_singleton.mp saved.2)
    simp only [savedPlaces, List.count_append, snapshot] at here ⊢
    refine ⟨by omega, fun present => here.2 (by omega)⟩

theorem Sound.take {id : ι} (sound : Sound a) (next : a.waiting.head? = some id) :
    Sound { a with waiting := a.waiting.tail, taken := some id, settled := false } := by
  have split : a.waiting = [id] ++ a.waiting.tail := List.eq_cons_of_mem_head? next
  refine ⟨fun other kept => ?_, fun other kept saved => ?_⟩
  · have here := sound.memory other kept
    have counted := congrArg (List.count other) split
    simp only [places, Option.toList_some, List.count_append] at here counted ⊢
    refine ⟨by omega, fun present => here.2 (by omega)⟩
  · have here := sound.disk other kept saved
    simp only [savedPlaces, snapshot, Bool.false_eq_true, if_false] at here ⊢
    refine ⟨by omega, fun present => here.2 (by omega)⟩

theorem Sound.execute {id : ι} (sound : Sound a) (taken : a.taken = some id)
    (settled : a.settled ∨ a.saved = none) : Sound (a.execute id) := by
  refine ⟨fun other kept => ?_, fun other kept saved => ?_⟩
  · have here := sound.memory other kept
    simp only [places, DurableInbox.execute, taken, Option.toList_some, Option.toList_none,
      List.count_append, List.count_nil] at here ⊢
    refine ⟨by omega, fun present => here.2 (by omega)⟩
  · cases snapshots : a.saved with
    | none =>
      -- nothing was ever saved, so that the executed id counts as unsaved
      simp only [DurableInbox.execute, snapshots, Option.isNone_none, if_true, List.mem_append,
        List.mem_singleton, not_or] at saved
      have here := sound.disk other kept saved.1
      have apart := List.count_eq_zero.mpr (mt List.mem_singleton.mp saved.2)
      simp only [savedPlaces, DurableInbox.execute, snapshot, snapshots, List.count_append,
        Option.toList_none, List.count_nil, ite_self] at here ⊢
      refine ⟨by omega, fun present => here.2 (by omega)⟩
    | some snap =>
      -- the last snapshot has the id as taken
      have afterTake : a.settled = true := by simpa [snapshots] using settled
      simp only [DurableInbox.execute, snapshots, Option.isNone_some, Bool.false_eq_true,
        if_false] at saved
      have here := sound.disk other kept saved
      simp only [savedPlaces, DurableInbox.execute, snapshot, snapshots, List.count_append,
        Option.toList_none, Option.toList_some, List.count_nil, ite_self, afterTake, if_true,
        taken] at here ⊢
      refine ⟨by omega, fun present => here.2 (by omega)⟩

theorem Sound.crash (sound : Sound a) (saved : a.unsaved = []) (dropped kept : ℕ) :
    Sound (a.crash dropped kept) := by
  have agrees : ∀ id, id ∉ a.forgotten ++ a.snapshot.seen.take dropped →
      a.savedPlaces id ≤ 1 ∧
        (0 < a.savedPlaces id → id ∈ a.snapshot.seen ∧ id ∈ a.snapshot.seen.drop dropped) := by
    intro id remembered
    rw [List.mem_append, not_or] at remembered
    have here := sound.disk id remembered.1 (by simp [saved])
    refine ⟨here.1, fun present => ⟨here.2 present, ?_⟩⟩
    have member := here.2 present
    rw [← List.take_append_drop dropped a.snapshot.seen, List.mem_append] at member
    exact member.resolve_left remembered.2
  refine ⟨fun id remembered => ?_, fun id remembered _ => ?_⟩
  · have here := agrees id remembered
    have fewer : (a.snapshot.waiting.take kept).count id ≤ a.snapshot.waiting.count id :=
      (List.take_sublist ..).count_le id
    simp only [places, DurableInbox.crash, savedPlaces, Option.toList_none, List.count_nil]
      at here ⊢
    refine ⟨by omega, fun present => (here.2 (by omega)).2⟩
  · have here := agrees id remembered
    simp only [DurableInbox.crash, savedPlaces, snapshot, Bool.false_eq_true, if_false]
      at here ⊢
    refine ⟨by omega, fun present => (here.2 (by omega)).1⟩

/-- A step that crashes only after a save keeps every id in one place. -/
theorem sound_step {b : DurableInbox ι} {event : InboxEvent ι} (sound : Sound a)
    (meets : AfterSave a event) (moves : (durableInbox ι).step a event = some b) : Sound b := by
  cases event with
  | save =>
    obtain rfl := Option.some_inj.mp moves
    exact sound.save
  | remember id =>
    obtain ⟨new, moves⟩ := Option.ite_none_left_eq_some.mp moves
    obtain rfl := Option.some_inj.mp moves
    exact sound.remember new
  | forget id =>
    obtain ⟨oldest, moves⟩ := Option.ite_none_right_eq_some.mp moves
    obtain rfl := Option.some_inj.mp moves
    exact sound.forget oldest
  | queue id =>
    obtain ⟨admitted, moves⟩ := Option.ite_none_right_eq_some.mp moves
    obtain rfl := Option.some_inj.mp moves
    exact sound.queue admitted
  | bypass id =>
    obtain ⟨admitted, moves⟩ := Option.ite_none_right_eq_some.mp moves
    obtain rfl := Option.some_inj.mp moves
    exact sound.bypass admitted
  | take id =>
    obtain ⟨next, moves⟩ := Option.ite_none_right_eq_some.mp moves
    obtain rfl := Option.some_inj.mp moves
    exact sound.take next
  | execute id =>
    obtain ⟨⟨taken, settled⟩, moves⟩ := Option.ite_none_right_eq_some.mp moves
    obtain rfl := Option.some_inj.mp moves
    exact sound.execute taken settled
  | crash dropped kept =>
    obtain rfl := Option.some_inj.mp moves
    exact sound.crash meets dropped kept

/-- **At most once.** In runs where every crash finds the executions saved, an id that was
never forgotten is executed once at most. -/
theorem count_executed_le_one (reached : (durableInbox ι).ReachableWhen AfterSave a) (id : ι)
    (kept : id ∉ a.forgotten) : a.executed.count id ≤ 1 := by
  have sound : Sound a := by
    refine reached.invariant Sound ?_ fun s event t => sound_step
    intro s starts
    rw [show s = fresh from starts]
    exact sound_fresh
  have once := (sound.memory id kept).1
  simp only [places] at once
  omega

/-! ### The remembered ids -/

/-- The remembered ids are distinct, and so are those of the snapshot. -/
def Distinct (a : DurableInbox ι) : Prop := a.seen.Nodup ∧ a.snapshot.seen.Nodup

theorem distinct_step {b : DurableInbox ι} {event : InboxEvent ι} (distinct : Distinct a)
    (moves : (durableInbox ι).step a event = some b) : Distinct b := by
  obtain ⟨memory, disk⟩ := distinct
  cases event with
  | save =>
    obtain rfl := Option.some_inj.mp moves
    exact ⟨memory, memory⟩
  | remember id =>
    obtain ⟨new, moves⟩ := Option.ite_none_left_eq_some.mp moves
    obtain rfl := Option.some_inj.mp moves
    exact ⟨List.nodup_append_comm.mp (List.nodup_cons.mpr ⟨new, memory⟩), disk⟩
  | forget id =>
    obtain ⟨_, moves⟩ := Option.ite_none_right_eq_some.mp moves
    obtain rfl := Option.some_inj.mp moves
    exact ⟨memory.sublist (List.tail_sublist _), disk⟩
  | queue id | bypass id | take id | execute id =>
    obtain ⟨_, moves⟩ := Option.ite_none_right_eq_some.mp moves
    obtain rfl := Option.some_inj.mp moves
    exact ⟨memory, disk⟩
  | crash dropped kept =>
    obtain rfl := Option.some_inj.mp moves
    exact ⟨disk.sublist (List.drop_sublist ..), disk⟩

/-- In every run the remembered ids are distinct. -/
theorem nodup_seen {guard : DurableInbox ι → InboxEvent ι → Prop}
    (reached : (durableInbox ι).ReachableWhen guard a) : a.seen.Nodup := by
  have distinct : Distinct a := by
    refine reached.invariant Distinct ?_ fun s event t kept _ => distinct_step kept
    intro s starts
    rw [show s = fresh from starts]
    exact ⟨List.nodup_nil, List.nodup_nil⟩
  exact distinct.1

end DurableInbox

end Systems
