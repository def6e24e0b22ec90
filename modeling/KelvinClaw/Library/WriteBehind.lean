import Mathlib.Data.List.Basic
import KelvinClaw.Library.TransitionSystem

/-!
# Values in memory that are written behind

Clients change values in memory and write a snapshot of what they made to disk. A change and
its snapshot are one move, the write is another, so that the writes of different clients may
overtake each other: the snapshot written last need not be the one taken last.

Two counters of each key tell the versions apart, the number of changes in memory and the
version of the snapshot on disk. The disk catches up with the memory when no write goes back
to an older version and no write of the newest version fails.
-/

namespace Systems.WriteBehind

variable {ι κ σ : Type*}

/-- A snapshot on its way to the disk, with the number of the change it was taken at. -/
structure Pending (κ σ : Type*) where
  key : κ
  version : ℕ
  snapshot : σ

/-- The values in memory and on disk, how often each was changed, which version of it is on
disk, and the write that each client has under way. -/
structure State (ι κ σ : Type*) where
  memory : κ → σ
  disk : κ → σ
  version : κ → ℕ
  written : κ → ℕ
  pending : ι → Option (Pending κ σ)

/-- A client changes a value and takes its snapshot, or writes the snapshot it took. -/
inductive Move (ι κ σ : Type*) where
  | change (client : ι) (key : κ) (next : σ)
  | write (client : ι) (succeeds : Bool)

section System

variable [DecidableEq ι] [DecidableEq κ]

namespace State

variable (s : State ι κ σ)

def change (client : ι) (key : κ) (next : σ) : State ι κ σ :=
  { s with
    memory := Function.update s.memory key next
    version := Function.update s.version key (s.version key + 1)
    pending := Function.update s.pending client (some ⟨key, s.version key + 1, next⟩) }

def write (client : ι) (p : Pending κ σ) : State ι κ σ :=
  { s with
    disk := Function.update s.disk p.key p.snapshot
    written := Function.update s.written p.key p.version
    pending := Function.update s.pending client none }

/-- Give up a write that failed. -/
def drop (client : ι) : State ι κ σ :=
  { s with pending := Function.update s.pending client none }

end State

def step (s : State ι κ σ) : Move ι κ σ → Option (State ι κ σ)
  | .change client key next =>
    match s.pending client with
    | some _ => none
    | none => some (s.change client key next)
  | .write client succeeds =>
    (s.pending client).map fun p => if succeeds then s.write client p else s.drop client

def system (ι κ σ : Type*) [DecidableEq ι] [DecidableEq κ] :
    TransitionSystem (State ι κ σ) (Move ι κ σ) where
  init s := (∀ key, s.disk key = s.memory key ∧ s.written key = s.version key) ∧
    ∀ client, s.pending client = none
  step := step

end System

/-- A write succeeds only where no later version of its key is on disk, and fails only where a
later version of its key is in memory. -/
def InOrder (s : State ι κ σ) : Move ι κ σ → Prop
  | .change .. => True
  | .write client true => ∀ p, s.pending client = some p → s.written p.key ≤ p.version
  | .write client false => ∀ p, s.pending client = some p → p.version < s.version p.key

/-- The invariant of ordered runs: a key is on disk as in memory once its newest version is
written, and until then the newest version is on its way. -/
structure CaughtUp (s : State ι κ σ) : Prop where
  bounded : ∀ key, s.written key ≤ s.version key
  pendingBounded : ∀ client p, s.pending client = some p → p.version ≤ s.version p.key
  newest : ∀ client p, s.pending client = some p → p.version = s.version p.key →
    p.snapshot = s.memory p.key
  settled : ∀ key, s.written key = s.version key → s.disk key = s.memory key
  underWay : ∀ key, s.written key < s.version key → ∃ client p, s.pending client = some p ∧
    p.key = key ∧ p.version = s.version key

/-- **Nothing is left behind.** A key without pending writes is on disk as in memory. -/
theorem CaughtUp.disk_eq_memory {s : State ι κ σ} (caughtUp : CaughtUp s) {key : κ}
    (idle : ∀ client p, s.pending client = some p → p.key ≠ key) :
    s.disk key = s.memory key := by
  apply caughtUp.settled
  apply Nat.le_antisymm (caughtUp.bounded key)
  by_contra behind
  obtain ⟨client, p, pending, same, -⟩ := caughtUp.underWay key (not_le.mp behind)
  exact idle client p pending same

section Steps

variable [DecidableEq ι] [DecidableEq κ] {s t : State ι κ σ} {client : ι} {key : κ}

theorem change_pending_self {next : σ} {p : Pending κ σ}
    (pending : (s.change client key next).pending client = some p) :
    (⟨key, s.version key + 1, next⟩ : Pending κ σ) = p := by
  simpa [State.change] using pending

theorem CaughtUp.change (caughtUp : CaughtUp s) (idle : s.pending client = none) (next : σ) :
    CaughtUp (s.change client key next) where
  bounded other := by
    have bounded := caughtUp.bounded other
    by_cases same : other = key
    · subst same
      simpa [State.change] using Nat.le_succ_of_le bounded
    · simpa [State.change, same] using bounded
  pendingBounded other p pending := by
    by_cases mine : other = client
    · subst mine
      obtain rfl := change_pending_self pending
      simp [State.change]
    · have bounded := caughtUp.pendingBounded other p (by simpa [State.change, mine] using pending)
      by_cases same : p.key = key
      · simpa [State.change, same] using Nat.le_succ_of_le (same ▸ bounded)
      · simpa [State.change, same] using bounded
  newest other p pending version := by
    by_cases mine : other = client
    · subst mine
      obtain rfl := change_pending_self pending
      simp [State.change]
    · have held : s.pending other = some p := by simpa [State.change, mine] using pending
      by_cases same : p.key = key
      · -- the change made the versions taken before old ones
        have bounded := caughtUp.pendingBounded other p held
        simp only [State.change, same, Function.update_self] at version bounded
        omega
      · simp only [State.change, Function.update_of_ne same] at version ⊢
        exact caughtUp.newest other p held version
  settled other written := by
    by_cases same : other = key
    · subst same
      have bounded := caughtUp.bounded other
      simp only [State.change, Function.update_self] at written
      omega
    · simp only [State.change, Function.update_of_ne same] at written ⊢
      exact caughtUp.settled other written
  -- the cell that was changed is under way with the client that changed it
  underWay other behind := by
    by_cases same : other = key
    · subst same
      exact ⟨client, _, Function.update_self .., rfl, by simp [State.change]⟩
    · simp only [State.change, Function.update_of_ne same] at behind ⊢
      obtain ⟨holder, p, pending, keyed, version⟩ := caughtUp.underWay other behind
      have notMine : holder ≠ client := by
        rintro rfl
        rw [idle] at pending
        cases pending
      exact ⟨holder, p, by rwa [Function.update_of_ne notMine], keyed, version⟩

omit [DecidableEq κ] in
/-- A client that ends a write of an old version leaves the newest one under way. -/
theorem CaughtUp.underWay_of_old (caughtUp : CaughtUp s) {p : Pending κ σ}
    (pending : s.pending client = some p)
    (old : p.key = key → p.version < s.version key) (behind : s.written key < s.version key) :
    ∃ holder q, Function.update s.pending client none holder = some q ∧ q.key = key ∧
      q.version = s.version key := by
  obtain ⟨holder, q, held, keyed, version⟩ := caughtUp.underWay key behind
  have notMine : holder ≠ client := by
    rintro rfl
    obtain rfl := Option.some_inj.mp (pending.symm.trans held)
    exact absurd version (old keyed).ne
  exact ⟨holder, q, by rwa [Function.update_of_ne notMine], keyed, version⟩

omit [DecidableEq κ] in
theorem pending_of_dropped {pending : ι → Option (Pending κ σ)} (client : ι) {other : ι}
    {p : Pending κ σ} (held : Function.update pending client none other = some p) :
    pending other = some p := by
  by_cases mine : other = client
  · simp [mine] at held
  · rwa [Function.update_of_ne mine] at held

theorem CaughtUp.write (caughtUp : CaughtUp s) {p : Pending κ σ}
    (pending : s.pending client = some p) (ordered : s.written p.key ≤ p.version) :
    CaughtUp (s.write client p) where
  bounded other := by
    by_cases same : other = p.key
    · subst same
      simpa [State.write] using caughtUp.pendingBounded client p pending
    · simpa [State.write, same] using caughtUp.bounded other
  pendingBounded other q held := caughtUp.pendingBounded other q (pending_of_dropped client held)
  newest other q held := caughtUp.newest other q (pending_of_dropped client held)
  settled other written := by
    by_cases same : other = p.key
    · subst same
      simp only [State.write, Function.update_self] at written ⊢
      exact caughtUp.newest client p pending written
    · simp only [State.write, Function.update_of_ne same] at written ⊢
      exact caughtUp.settled other written
  underWay other behind := by
    by_cases same : other = p.key
    · subst same
      simp only [State.write, Function.update_self] at behind
      exact caughtUp.underWay_of_old pending (fun _ => behind) (ordered.trans_lt behind)
    · simp only [State.write, Function.update_of_ne same] at behind
      exact caughtUp.underWay_of_old pending (fun keyed => absurd keyed.symm same) behind

omit [DecidableEq κ] in
theorem CaughtUp.drop (caughtUp : CaughtUp s) {p : Pending κ σ}
    (pending : s.pending client = some p) (superseded : p.version < s.version p.key) :
    CaughtUp (s.drop client) where
  bounded := caughtUp.bounded
  pendingBounded other q held := caughtUp.pendingBounded other q (pending_of_dropped client held)
  newest other q held := caughtUp.newest other q (pending_of_dropped client held)
  settled := caughtUp.settled
  underWay _ behind :=
    caughtUp.underWay_of_old pending (fun keyed => keyed ▸ superseded) behind

theorem caughtUp_step {move : Move ι κ σ} (caughtUp : CaughtUp s) (ordered : InOrder s move)
    (moves : step s move = some t) : CaughtUp t := by
  cases move with
  | change client key next =>
    simp only [step] at moves
    split at moves
    · cases moves
    · rename_i idle
      obtain rfl := Option.some_inj.mp moves
      exact caughtUp.change idle next
  | write client succeeds =>
    obtain ⟨p, pending, rfl⟩ := Option.map_eq_some_iff.mp moves
    cases succeeds with
    | true => exact caughtUp.write pending (ordered p pending)
    | false => exact caughtUp.drop pending (ordered p pending)

theorem caughtUp_of_inOrder (reached : (system ι κ σ).ReachableWhen InOrder s) : CaughtUp s := by
  refine reached.invariant CaughtUp ?_ ?_
  · rintro s ⟨same, idle⟩
    exact {
      bounded := fun key => (same key).2.le
      pendingBounded := fun client p pending => by simp [idle] at pending
      newest := fun client p pending => by simp [idle] at pending
      settled := fun key _ => (same key).1
      underWay := fun key behind => absurd (same key).2 behind.ne }
  · intro s move t caughtUp ordered moves
    exact caughtUp_step caughtUp ordered moves

end Steps

end Systems.WriteBehind
