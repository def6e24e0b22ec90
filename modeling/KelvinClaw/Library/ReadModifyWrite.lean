import Mathlib.Data.List.Basic
import KelvinClaw.Library.TransitionSystem

/-!
# Read-modify-write over one shared cell

Clients share a cell. A call first *loads* the cell and computes, from the loaded
value alone, either an answer that stores nothing or a new value to store together
with the replies for a successful and for a failed store. Loading and storing are
two separate moves, so calls of different clients interleave between them, and a
store overwrites the cell with a value computed from what was loaded.

A call run *alone* loads and stores in one move. The question is when an
interleaving can be explained by running the same calls alone in some order: it
suffices that every store finds in the cell the very value its call had loaded.
-/

namespace Systems.ReadModifyWrite

variable {ι σ κ ρ : Type*}

/-- What a call makes of the loaded value: an answer that stores nothing, or a
value to store with the replies for a store that succeeds or fails. -/
inductive Prepared (σ ρ : Type*) where
  | answer (reply : ρ)
  | store (next : σ) (reply failed : ρ)

/-- A read-modify-write protocol: the effect of each call on the loaded value. -/
structure Protocol (σ κ ρ : Type*) where
  /-- What the call prepares from the value it loaded. -/
  load : κ → σ → Prepared σ ρ

/-- A finished call: whether its store (if it had one) succeeded, and its reply. -/
structure Finished (κ ρ : Type*) where
  call : κ
  stored : Bool
  reply : ρ
  deriving DecidableEq

/-- A call between its load and its store. -/
structure Pending (σ κ ρ : Type*) where
  call : κ
  loaded : σ
  next : σ
  reply : ρ
  failed : ρ

namespace Protocol

variable (proto : Protocol σ κ ρ)

def alone (call : κ) (stored : Bool) (cell : σ) : ρ × σ :=
  match proto.load call cell with
  | .answer reply => (reply, cell)
  | .store next reply failed => if stored then (reply, next) else (failed, cell)

/-- The cell after the calls run alone, one after the other. -/
def serialState : σ → List (Finished κ ρ) → σ
  | cell, [] => cell
  | cell, done :: rest => serialState (proto.alone done.call done.stored cell).2 rest

/-- Running the calls alone in this order leads from one cell to the other and
gives every call the reply it got. -/
def Replays : σ → List (Finished κ ρ) → σ → Prop
  | cell, [], final => final = cell
  | cell, done :: rest, final =>
    done.reply = (proto.alone done.call done.stored cell).1 ∧
      Replays (proto.alone done.call done.stored cell).2 rest final

/-- The log of calls run alone, one after the other. -/
def serialLog : σ → List (κ × Bool) → List (Finished κ ρ)
  | _, [] => []
  | cell, (call, stored) :: rest =>
    ⟨call, stored, (proto.alone call stored cell).1⟩ ::
      serialLog (proto.alone call stored cell).2 rest

variable {proto} {cell mid final : σ} {log rest : List (Finished κ ρ)} {done : Finished κ ρ}

theorem Replays.nil : proto.Replays cell [] cell := rfl

theorem Replays.cons {call : κ} {stored : Bool} {reply : ρ}
    (ran : proto.alone call stored cell = (reply, mid)) (replays : proto.Replays mid rest final) :
    proto.Replays cell (⟨call, stored, reply⟩ :: rest) final :=
  ⟨by rw [ran], by rwa [ran]⟩

theorem Replays.serialState_eq (replays : proto.Replays cell log final) :
    proto.serialState cell log = final := by
  induction log generalizing cell with
  | nil => exact replays.symm
  | cons done rest ih => exact ih replays.2

theorem replays_serialLog (proto : Protocol σ κ ρ) (cell : σ) (calls : List (κ × Bool)) :
    proto.Replays cell (proto.serialLog cell calls)
      (proto.serialState cell (proto.serialLog cell calls)) := by
  induction calls generalizing cell with
  | nil => rfl
  | cons call rest ih => exact ⟨rfl, ih _⟩

theorem replays_append :
    proto.Replays cell (log ++ rest) final ↔
      ∃ mid, proto.Replays cell log mid ∧ proto.Replays mid rest final := by
  induction log generalizing cell with
  | nil => simp [Replays]
  | cons done log ih => simp [Replays, ih, and_assoc]

/-- A call that starts from the final cell extends a serial log. -/
theorem Replays.snoc (replays : proto.Replays cell log mid)
    (replied : done.reply = (proto.alone done.call done.stored mid).1)
    (reaches : (proto.alone done.call done.stored mid).2 = final) :
    proto.Replays cell (log ++ [done]) final :=
  replays_append.mpr ⟨mid, replays, replied, reaches.symm⟩

/-- A finished call of a serial log ran alone at some moment: the log splits into
the calls before it and the calls after it. -/
theorem Replays.exists_at (replays : proto.Replays cell log final) (member : done ∈ log) :
    ∃ before after mid, log = before ++ done :: after ∧ proto.Replays cell before mid ∧
      done.reply = (proto.alone done.call done.stored mid).1 ∧
      proto.Replays (proto.alone done.call done.stored mid).2 after final := by
  obtain ⟨before, after, rfl⟩ := List.append_of_mem member
  obtain ⟨mid, earlier, later⟩ := replays_append.mp replays
  exact ⟨before, after, mid, rfl, earlier, later.1, later.2⟩

/-- A property of the cell that every call of a serial log keeps holds at its end. -/
theorem Replays.preserves (replays : proto.Replays cell log final) (P : σ → Prop)
    (keeps : ∀ done ∈ log, ∀ cell, done.reply = (proto.alone done.call done.stored cell).1 →
      P cell → P (proto.alone done.call done.stored cell).2)
    (start : P cell) : P final := by
  induction log generalizing cell with
  | nil => exact replays ▸ start
  | cons done rest ih =>
    exact ih replays.2 (fun later member => keeps later (List.mem_cons_of_mem _ member))
      (keeps done List.mem_cons_self cell replays.1 start)

end Protocol

/-! ### The interleaved system -/

/-- The shared cell, the call each client has under way, and the finished calls in
the order they finished. -/
structure State (ι σ κ ρ : Type*) where
  cell : σ
  pending : ι → Option (Pending σ κ ρ)
  log : List (Finished κ ρ)

/-- A client starts a call by loading the cell, or ends it by storing. -/
inductive Move (ι κ : Type*) where
  | load (client : ι) (call : κ)
  | store (client : ι) (succeeds : Bool)

namespace Protocol

variable [DecidableEq ι] (proto : Protocol σ κ ρ)

def step (s : State ι σ κ ρ) : Move ι κ → Option (State ι σ κ ρ)
  | .load client call =>
    match s.pending client with
    | some _ => none
    | none =>
      match proto.load call s.cell with
      | .answer reply => some { s with log := s.log ++ [⟨call, true, reply⟩] }
      | .store next reply failed =>
        some { s with
          pending := Function.update s.pending client (some ⟨call, s.cell, next, reply, failed⟩) }
  | .store client succeeds =>
    (s.pending client).map fun p =>
      { cell := if succeeds then p.next else s.cell
        pending := Function.update s.pending client none
        log := s.log ++ [⟨p.call, succeeds, if succeeds then p.reply else p.failed⟩] }

/-- The interleaved system over a cell that holds `initial`. -/
def system (ι : Type*) [DecidableEq ι] (proto : Protocol σ κ ρ) (initial : σ) :
    TransitionSystem (State ι σ κ ρ) (Move ι κ) where
  init s := s = ⟨initial, fun _ => none, []⟩
  step := proto.step

end Protocol

/-- Calls run one after the other are an interleaving: one client makes them all. -/
theorem exists_serial_run [DecidableEq ι] {proto : Protocol σ κ ρ} {initial : σ} (client : ι)
    (calls : List (κ × Bool)) :
    ∃ s, (proto.system ι initial).Reachable s ∧
      s.cell = proto.serialState initial (proto.serialLog initial calls) := by
  suffices extend : ∀ s, (proto.system ι initial).Reachable s → s.pending client = none →
      ∃ t, (proto.system ι initial).Reachable t ∧
        t.cell = proto.serialState s.cell (proto.serialLog s.cell calls) from
    extend ⟨initial, fun _ => none, []⟩ (.init rfl) rfl
  induction calls with
  | nil => exact fun s reached _ => ⟨s, reached, rfl⟩
  | cons call rest ih =>
    obtain ⟨call, stored⟩ := call
    intro s reached idle
    cases loads : proto.load call s.cell with
    | answer reply =>
      have moves : (proto.system ι initial).step s (.load client call) =
          some { s with log := s.log ++ [⟨call, true, reply⟩] } := by
        simp only [Protocol.system, Protocol.step, idle, loads]
      simpa [Protocol.serialState, Protocol.serialLog, Protocol.alone, loads] using
        ih _ (reached.step moves) idle
    | store next reply failed =>
      have loaded : (proto.system ι initial).step s (.load client call) = some { s with
          pending := Function.update s.pending client
            (some ⟨call, s.cell, next, reply, failed⟩) } := by
        simp only [Protocol.system, Protocol.step, idle, loads]
      let between : State ι σ κ ρ :=
        ⟨if stored then next else s.cell,
          Function.update (Function.update s.pending client
            (some ⟨call, s.cell, next, reply, failed⟩)) client none,
          s.log ++ [⟨call, stored, if stored then reply else failed⟩]⟩
      have ends : (proto.system ι initial).step { s with
          pending := Function.update s.pending client
            (some ⟨call, s.cell, next, reply, failed⟩) } (.store client stored) =
          some between := by
        simp only [Protocol.system, Protocol.step, Function.update_self, Option.map_some, between]
      have alone : (proto.alone call stored s.cell).2 = between.cell := by
        cases stored <;> simp [Protocol.alone, loads, between]
      obtain ⟨t, reached', cell⟩ :=
        ih between ((reached.step loaded).step ends) (Function.update_self ..)
      exact ⟨t, reached', by rw [cell, ← alone]; rfl⟩

def Undisturbed (s : State ι σ κ ρ) : Move ι κ → Prop
  | .load _ _ => True
  | .store client _ => ∀ p, s.pending client = some p → s.cell = p.loaded

/-- A move may finish this call: the one it loads, or the one whose value it stores. -/
def Finishes (s : State ι σ κ ρ) : Move ι κ → κ → Prop
  | .load _ call, done => done = call
  | .store client _, done => ∃ p, s.pending client = some p ∧ done = p.call

instance [DecidableEq σ] (s : State ι σ κ ρ) (move : Move ι κ) :
    Decidable (Undisturbed s move) :=
  match move with
  | .load _ _ => .isTrue trivial
  | .store client _ =>
    match found : s.pending client with
    | none => .isTrue fun p holds => by rw [found] at holds; cases holds
    | some q =>
      decidable_of_iff (s.cell = q.loaded)
        ⟨fun same p holds => by rw [found] at holds; cases holds; exact same,
          fun all => all q found⟩

instance (Q : κ → σ → Prop) [∀ call cell, Decidable (Q call cell)] (s : State ι σ κ ρ)
    (move : Move ι κ) : Decidable (∀ call, Finishes s move call → Q call s.cell) :=
  match move with
  | .load _ call => decidable_of_iff (Q call s.cell)
      ⟨fun holds _ same => same ▸ holds, fun all => all call rfl⟩
  | .store client _ =>
    match found : s.pending client with
    | none => .isTrue fun _ finishes => by
        obtain ⟨p, held, _⟩ := finishes
        rw [found] at held
        cases held
    | some p => decidable_of_iff (Q p.call s.cell)
        ⟨fun holds _ finishes => by
          obtain ⟨q, held, rfl⟩ := finishes
          rw [found] at held
          exact Option.some.inj held ▸ holds,
        fun all => all p.call ⟨p, found, rfl⟩⟩

section Invariants

variable [DecidableEq ι] {proto : Protocol σ κ ρ} {initial : σ} {s : State ι σ κ ρ}

/-- **Invariants of the cell.** What the calls of a kind keep when they run alone holds of the
cell in every interleaving of calls of the kind: stores write what a call makes of an earlier
cell. -/
theorem cell_invariant_of_calls {guard : State ι σ κ ρ → Move ι κ → Prop} {kind : κ → Prop}
    (asked : ∀ s client call, guard s (.load client call) → kind call) (P : σ → Prop)
    (start : P initial)
    (keeps : ∀ call stored cell, kind call → P cell → P (proto.alone call stored cell).2)
    (reached : (proto.system ι initial).ReachableWhen guard s) : P s.cell := by
  refine (reached.invariant
    (fun s => P s.cell ∧ ∀ client p, s.pending client = some p → P p.next) ?_ ?_).1
  · rintro _ rfl
    exact ⟨start, by simp⟩
  · rintro s move t ⟨holds, waiting⟩ meets moves
    cases move with
    | load mover call =>
      simp only [Protocol.system, Protocol.step] at moves
      split at moves
      · cases moves
      · split at moves
        · cases moves
          exact ⟨holds, waiting⟩
        · rename_i next _ _ loads
          cases moves
          refine ⟨holds, fun client p held => ?_⟩
          by_cases same : client = mover
          · subst same
            simp only [Function.update_self, Option.some_inj] at held
            have kept := keeps call true s.cell (asked s client call meets) holds
            rw [Protocol.alone, loads] at kept
            exact held ▸ kept
          · exact waiting client p (by simpa [Function.update_of_ne same] using held)
    | store mover succeeds =>
      simp only [Protocol.system, Protocol.step, Option.map_eq_some_iff] at moves
      obtain ⟨p, held, rfl⟩ := moves
      refine ⟨?_, fun client q holding => ?_⟩
      · cases succeeds with
        | true => exact waiting mover p held
        | false => exact holds
      · by_cases same : client = mover
        · simp [same] at holding
        · exact waiting client q (by simpa [Function.update_of_ne same] using holding)

/-- What every call keeps when it runs alone holds of the cell in every interleaving. -/
theorem cell_invariant {guard : State ι σ κ ρ → Move ι κ → Prop} (P : σ → Prop) (start : P initial)
    (keeps : ∀ call stored cell, P cell → P (proto.alone call stored cell).2)
    (reached : (proto.system ι initial).ReachableWhen guard s) : P s.cell :=
  cell_invariant_of_calls (fun _ _ _ _ => trivial) P start
    (fun call stored cell _ holds => keeps call stored cell holds) reached

end Invariants

section Serializability

variable [DecidableEq ι] {proto : Protocol σ κ ρ} {initial : σ} {s : State ι σ κ ρ}

/-- Every call under way prepared what it holds from the value it loaded. -/
def PendingSound (proto : Protocol σ κ ρ) (s : State ι σ κ ρ) : Prop :=
  ∀ client p, s.pending client = some p →
    proto.load p.call p.loaded = .store p.next p.reply p.failed

theorem pendingSound_step {t : State ι σ κ ρ} {move : Move ι κ} (sound : PendingSound proto s)
    (moves : proto.step s move = some t) : PendingSound proto t := by
  intro client p held
  cases move with
  | load mover call =>
    simp only [Protocol.step] at moves
    split at moves
    · cases moves
    · split at moves
      · cases moves
        exact sound client p held
      · rename_i loads
        cases moves
        by_cases same : client = mover
        · subst same
          simp only [Function.update_self, Option.some_inj] at held
          exact held ▸ loads
        · simp only [Function.update_of_ne same] at held
          exact sound client p held
  | store mover succeeds =>
    simp only [Protocol.step, Option.map_eq_some_iff] at moves
    obtain ⟨_, _, rfl⟩ := moves
    by_cases same : client = mover
    · subst same
      simp only [Function.update_self, reduceCtorEq] at held
    · simp only [Function.update_of_ne same] at held
      exact sound client p held

/-- One undisturbed move runs no call or one call alone: an answer takes effect when it
loads, a store when it stores. -/
theorem undisturbed_step {t : State ι σ κ ρ} {move : Move ι κ} (sound : PendingSound proto s)
    (calm : Undisturbed s move) (moves : proto.step s move = some t) :
    (t.cell = s.cell ∧ t.log = s.log) ∨
      ∃ call stored, Finishes s move call ∧ t.cell = (proto.alone call stored s.cell).2 ∧
        t.log = s.log ++ [⟨call, stored, (proto.alone call stored s.cell).1⟩] := by
  cases move with
  | load mover call =>
    simp only [Protocol.step] at moves
    split at moves
    · cases moves
    · split at moves
      · rename_i loads
        cases moves
        exact .inr ⟨call, true, rfl, by simp [Protocol.alone, loads],
          by simp [Protocol.alone, loads]⟩
      · cases moves
        exact .inl ⟨rfl, rfl⟩
  | store mover succeeds =>
    simp only [Protocol.step, Option.map_eq_some_iff] at moves
    obtain ⟨p, held, rfl⟩ := moves
    have loads := sound mover p held
    rw [← calm p held] at loads
    refine .inr ⟨p.call, succeeds, ⟨p, held, rfl⟩, ?_⟩
    cases succeeds <;> simp [Protocol.alone, loads]

/-- **Undisturbed runs refine serial ones.** What every call that meets `Q` keeps when
it runs alone, of the cell and of the log, holds in every undisturbed run whose calls
meet `Q` at the cell they finish on. -/
theorem undisturbed_induction (Q : κ → σ → Prop) (P : σ → List (Finished κ ρ) → Prop)
    (start : P initial [])
    (keeps : ∀ cell log call stored, Q call cell → P cell log →
      P (proto.alone call stored cell).2
        (log ++ [⟨call, stored, (proto.alone call stored cell).1⟩]))
    (reached : (proto.system ι initial).ReachableWhen
      (fun s move => Undisturbed s move ∧ ∀ call, Finishes s move call → Q call s.cell) s) :
    P s.cell s.log := by
  refine (reached.invariant (fun s => PendingSound proto s ∧ P s.cell s.log) ?_ ?_).2
  · rintro _ rfl
    exact ⟨by simp [PendingSound], start⟩
  · rintro s move t ⟨sound, holds⟩ ⟨calm, meets⟩ moves
    refine ⟨pendingSound_step sound moves, ?_⟩
    rcases undisturbed_step sound calm moves with ⟨cell, log⟩ | ⟨call, stored, ends, cell, log⟩
    · rwa [cell, log]
    · rw [cell, log]
      exact keeps s.cell s.log call stored (meets call ends) holds

/-- **Undisturbed runs are serial.** If every store finds the value its call
loaded, the cell is what the finished calls produce when run alone in the order of
the log, and each of them got the reply it gets there. -/
theorem replays_of_undisturbed
    (reached : (proto.system ι initial).ReachableWhen Undisturbed s) :
    proto.Replays initial s.log s.cell := by
  refine undisturbed_induction (fun _ _ => True)
    (fun cell log => proto.Replays initial log cell) rfl (fun cell log call stored _ replays => ?_)
    (reached.mono fun _ _ calm => ⟨calm, fun _ _ => trivial⟩)
  exact replays.snoc rfl rfl

end Serializability

end Systems.ReadModifyWrite
