import KelvinClaw.Channel.Runs

/-!
# Pairing codes

An account that is not paired yet is shown a code, which an operator approves. The code
is drawn from the clock and a hash of the account among 900000 values, and the pending
codes are kept in a map from codes to accounts. A code that is drawn for one account while
it is pending for another replaces the entry of that other account.
-/

namespace KelvinClaw.Channel

open KelvinClaw.Core Systems Systems.Action Systems.TransitionSystem

variable (ctx : ChannelContext)

/-! ### A request and an approval -/

def saveResult (m : Machine) : KelvinResult Unit :=
  if ctx.statePersistence then ctx.surroundings.save m.calls else .ok ()

def afterSave (m : Machine) : Machine :=
  if ctx.statePersistence then { m with calls := m.calls + 1 } else m

@[simp] theorem adapter_afterSave (m : Machine) : (afterSave ctx m).adapter = m.adapter := by
  unfold afterSave
  split <;> rfl

theorem wp_persistState {m : Machine} {post : Except KelvinError Unit → Machine → Unit → Prop} :
    wp (fun _ _ => ()) (fun _ => True) (persistState ctx) post m () ↔
      post (saveResult ctx m) (afterSave ctx m) () := by
  unfold wp saveResult afterSave
  cases persists : ctx.statePersistence with
  | false => simp [persistState_off persists]
  | true =>
    cases saved : ctx.surroundings.save m.calls with
    | ok _ => simp [persistState_saved persists saved]
    | error err => simp [persistState_failed persists saved]

@[simp] theorem mem_insertPairCode {entry : String × String} {code accountId : String}
    {pending : List (String × String)} : entry ∈ insertPairCode code accountId pending ↔
      entry = (code, accountId) ∨ entry ∈ pending ∧ entry.1 ≠ code := by
  simp [insertPairCode]

@[simp] theorem mem_removePairCode {entry : String × String} {code : String}
    {pending : List (String × String)} :
    entry ∈ removePairCode code pending ↔ entry ∈ pending ∧ entry.1 ≠ code := by
  simp [removePairCode]

theorem insertPairCode_distinct {pending : List (String × String)}
    (distinct : ∀ code first second, (code, first) ∈ pending → (code, second) ∈ pending →
      first = second)
    (code accountId key first second : String)
    (held : (key, first) ∈ insertPairCode code accountId pending)
    (heldToo : (key, second) ∈ insertPairCode code accountId pending) : first = second := by
  simp only [mem_insertPairCode, Prod.mk.injEq] at held heldToo
  rcases held with ⟨rfl, rfl⟩ | ⟨held, other⟩
  · rcases heldToo with ⟨-, rfl⟩ | ⟨-, other⟩
    · rfl
    · exact absurd rfl other
  · rcases heldToo with ⟨rfl, -⟩ | ⟨heldToo, -⟩
    · exact absurd rfl other
    · exact distinct key first second held heldToo

def drawnCode (m : Machine) (accountId : String) : Option String :=
  if ctx.config.pairingEnabled ∧ accountId ∉ ctx.config.policy.allowAccounts ∧
      accountId ∉ m.adapter.pairedAccounts ∧
      ∀ entry ∈ m.adapter.pendingPairCodes, entry.2 ≠ accountId then
    some (pairCode (ctx.surroundings.nowMs m.calls) accountId)
  else none

/-- The result of a request, and the adapter after it. -/
inductive Requested (m : Machine) (accountId : String) :
    KelvinResult (Option String) → TextChannelAdapter → Prop
  | free : Requested m accountId (.ok none) m.adapter
  | pending {code : String} (held : (code, accountId) ∈ m.adapter.pendingPairCodes)
      (enabled : ctx.config.pairingEnabled) : Requested m accountId (.ok (some code)) m.adapter
  | drawn {code : String} (draws : drawnCode ctx m accountId = some code) :
    Requested m accountId (.ok (some code))
      { m.adapter with
        pendingPairCodes := insertPairCode code accountId m.adapter.pendingPairCodes }
  | unsaved {code : String} {err : KelvinError} (draws : drawnCode ctx m accountId = some code) :
    Requested m accountId (.error err)
      { m.adapter with
        pendingPairCodes :=
          removePairCode code (insertPairCode code accountId m.adapter.pendingPairCodes) }

theorem requested (m : Machine) (accountId : String) :
    Ends (enforcePairingPolicy ctx accountId)
      (fun result t => Requested ctx m accountId result t.adapter) m := by
  unfold enforcePairingPolicy
  apply wp_bind.mpr
  refine wp_readAdapter.mpr ⟨trivial, ?_⟩
  by_cases enabled : ctx.config.pairingEnabled
  · by_cases known : accountId ∈ ctx.config.policy.allowAccounts ∨
        accountId ∈ m.adapter.pairedAccounts
    · simp only [enabled, not_true_eq_false, if_false, known, if_true, wp_pure]
      exact ⟨trivial, .free⟩
    · simp only [enabled, not_true_eq_false, if_false, known]
      cases held : m.adapter.pendingPairCodes.find? (·.2 = accountId) with
      | some existing =>
        have same : existing.2 = accountId := by simpa using List.find?_some held
        have member := List.mem_of_find?_eq_some held
        simp only [wp_pure]
        exact ⟨trivial, .pending (same ▸ member) enabled⟩
      | none =>
        have draws : drawnCode ctx m accountId =
            some (pairCode (ctx.surroundings.nowMs m.calls) accountId) := by
          rw [not_or] at known
          exact if_pos ⟨enabled, known.1, known.2, by simpa using held⟩
        simp only [wp_bind, wp_ask, wp_update, wp_attempt]
        refine ⟨trivial, trivial, ?_⟩
        apply (wp_persistState ctx).mpr
        cases saveResult ctx _ with
        | ok _ =>
          simp only [wp_pure, adapter_afterSave]
          exact ⟨trivial, .drawn draws⟩
        | error err =>
          simp only [wp_bind, wp_update, wp_fail, adapter_afterSave]
          exact ⟨trivial, trivial, .unsaved draws⟩
  · simp only [enabled]
    exact ⟨fun _ => trivial, .free⟩

/-- The result of an approval, and the adapter after it. -/
inductive Approved (m : Machine) (code : String) :
    KelvinResult String → TextChannelAdapter → Prop
  | refused {err : KelvinError}
      (unusable : ctx.config.pairingEnabled = false ∨ trim code = "" ∨
        ∀ entry ∈ m.adapter.pendingPairCodes, entry.1 ≠ trim code) :
    Approved m code (.error err) m.adapter
  | paired {accountId : String} (metrics : ChannelMetrics)
      (found : (trim code, accountId) ∈ m.adapter.pendingPairCodes) :
    Approved m code (.ok accountId)
      { m.adapter with
        pendingPairCodes := removePairCode (trim code) m.adapter.pendingPairCodes
        pairedAccounts := insert accountId m.adapter.pairedAccounts
        metrics := metrics }
  | unsaved {accountId : String} {err : KelvinError} (metrics : ChannelMetrics)
      (found : (trim code, accountId) ∈ m.adapter.pendingPairCodes)
      (failed : saveResult ctx m = .error err) :
    Approved m code (.error err)
      { m.adapter with
        pairedAccounts := (insert accountId m.adapter.pairedAccounts).erase accountId
        pendingPairCodes :=
          insertPairCode (trim code) accountId
            (removePairCode (trim code) m.adapter.pendingPairCodes)
        metrics := metrics }

theorem approved (m : Machine) (code : String) :
    Ends (approvePairing ctx code)
      (fun result t => Approved ctx m code result t.adapter) m := by
  unfold approvePairing
  by_cases enabled : ctx.config.pairingEnabled
  · by_cases blank : trim code = ""
    · simp only [enabled, not_true_eq_false, if_false, blank, if_true, wp_fail]
      exact ⟨trivial, .refused (.inr (.inl blank))⟩
    · simp only [enabled, not_true_eq_false, if_false, blank, wp_bind, wp_readAdapter]
      refine ⟨trivial, ?_⟩
      cases held : m.adapter.pendingPairCodes.find? (·.1 = trim code) with
      | none =>
        simp only [wp_fail]
        exact ⟨trivial, .refused (.inr (.inr (by simpa using held)))⟩
      | some entry =>
        obtain ⟨key, accountId⟩ := entry
        obtain rfl : key = trim code := by simpa using List.find?_some held
        have found := List.mem_of_find?_eq_some held
        simp only [wp_bind, wp_update, wp_attempt, record]
        refine ⟨trivial, trivial, ?_⟩
        apply (wp_persistState ctx).mpr
        cases saved : saveResult ctx _ with
        | ok _ =>
          simp only [wp_pure, adapter_afterSave]
          exact ⟨trivial, .paired _ found⟩
        | error err =>
          simp only [wp_bind, wp_update, wp_fail, adapter_afterSave]
          exact ⟨trivial, trivial, trivial, .unsaved _ found saved⟩
  · simp only [enabled]
    exact ⟨fun _ => trivial, .refused (.inl (by simpa using enabled))⟩

/-! ### Runs -/

/-- An adapter, and the accounts with the code that each was shown last. -/
structure PairingRun where
  machine : Machine
  shown : List (String × String)

inductive PairingEvent where
  | request (accountId : String)
  | approve (code : String)
  deriving DecidableEq

/-- The codes shown after an account is answered. A newer code replaces an older one. -/
def showCode (accountId : String) (shown : List (String × String)) :
    KelvinResult (Option String) → List (String × String)
  | .ok (some code) => (accountId, code) :: shown.filter (·.1 ≠ accountId)
  | .ok none | .error _ => shown

def PairingRun.request (s : PairingRun) (accountId : String) : PairingRun :=
  let outcome := enforcePairingPolicy ctx accountId s.machine
  { machine := outcome.state
    shown := showCode accountId s.shown outcome.result }

def PairingRun.approve (s : PairingRun) (code : String) : PairingRun :=
  { s with machine := (approvePairing ctx code s.machine).state }

def pairingRuns : TransitionSystem PairingRun PairingEvent where
  init s := s.machine.adapter.pendingPairCodes = [] ∧ s.shown = []
  step s
    | .request accountId => some (s.request ctx accountId)
    | .approve code => some (s.approve ctx code)

/-- Approving the code pairs the account, when the state can be saved, and no other one. -/
structure PairsOnly (m : Machine) (accountId code : String) : Prop where
  reports : ∀ other, (approvePairing ctx code m).result = .ok other → other = accountId
  noOther : ∀ other ∈ (approvePairing ctx code m).state.adapter.pairedAccounts,
    other = accountId ∨ other ∈ m.adapter.pairedAccounts
  pairs : saveResult ctx m = .ok () →
    accountId ∈ (approvePairing ctx code m).state.adapter.pairedAccounts

def BindsCodes (s : PairingRun) : Prop :=
  ∀ entry ∈ s.shown, PairsOnly ctx s.machine entry.1 entry.2

def DistinctCodes (adapter : TextChannelAdapter) : Prop :=
  ∀ code first second, (code, first) ∈ adapter.pendingPairCodes →
    (code, second) ∈ adapter.pendingPairCodes → first = second

def DrawsFreshCode (s : PairingRun) : PairingEvent → Prop
  | .request accountId =>
    ∀ entry ∈ s.shown, entry.1 ≠ accountId → drawnCode ctx s.machine accountId ≠ some entry.2
  | .approve _ => True

variable {ctx} {s t : PairingRun}

/-! ### Distinct codes -/

theorem DistinctCodes.insert {adapter : TextChannelAdapter} (distinct : DistinctCodes adapter)
    (code accountId : String) : DistinctCodes
      { adapter with
        pendingPairCodes := insertPairCode code accountId adapter.pendingPairCodes } :=
  insertPairCode_distinct distinct code accountId

theorem DistinctCodes.remove {adapter : TextChannelAdapter} (distinct : DistinctCodes adapter)
    (code : String) : DistinctCodes
      { adapter with pendingPairCodes := removePairCode code adapter.pendingPairCodes } := by
  intro key first second held heldToo
  rw [mem_removePairCode] at held heldToo
  exact distinct key first second held.1 heldToo.1

theorem distinctCodes_of_reachable (reached : (pairingRuns ctx).Reachable s) :
    DistinctCodes s.machine.adapter := by
  refine reached.invariant (fun s => DistinctCodes s.machine.adapter) ?_ ?_
  · intro s ⟨empty, _⟩ code first second held
    rw [empty] at held
    cases held
  · intro s event t distinct _ moves
    cases event with
    | request accountId =>
      obtain rfl := Option.some_inj.mp moves
      have outcome := ends_iff.mp (requested ctx s.machine accountId)
      simp only [PairingRun.request]
      generalize (enforcePairingPolicy ctx accountId s.machine).state.adapter = after at outcome ⊢
      generalize (enforcePairingPolicy ctx accountId s.machine).result = result at outcome
      cases outcome with
      | free | pending => exact distinct
      | drawn => exact distinct.insert _ _
      | unsaved => exact (distinct.insert _ _).remove _
    | approve code =>
      obtain rfl := Option.some_inj.mp moves
      have outcome := ends_iff.mp (approved ctx s.machine code)
      simp only [PairingRun.approve]
      generalize (approvePairing ctx code s.machine).state.adapter = after at outcome ⊢
      generalize (approvePairing ctx code s.machine).result = result at outcome
      cases outcome with
      | refused => exact distinct
      | paired => exact distinct.remove _
      | unsaved => exact (distinct.remove _).insert _ _

/-! ### Bound codes -/

/-- The invariant of runs that draw fresh codes: the pending codes are those that were
shown last, except for the accounts that are paired by now. -/
structure CodesBound (ctx : ChannelContext) (adapter : TextChannelAdapter)
    (shown : List (String × String)) : Prop where
  distinct : DistinctCodes adapter
  latest : ∀ accountId first second, (accountId, first) ∈ shown →
    (accountId, second) ∈ shown → first = second
  pending : ∀ code accountId, (code, accountId) ∈ adapter.pendingPairCodes →
    (accountId, code) ∈ shown ∧ accountId ∉ adapter.pairedAccounts
  kept : ∀ accountId code, (accountId, code) ∈ shown →
    (code, accountId) ∈ adapter.pendingPairCodes ∨
      accountId ∈ adapter.pairedAccounts ∧ ∀ other, (code, other) ∉ adapter.pendingPairCodes
  usable : ∀ entry ∈ shown,
    ctx.config.pairingEnabled = true ∧ trim entry.2 = entry.2 ∧ entry.2 ≠ ""

theorem CodesBound.congr {adapter after : TextChannelAdapter} {shown : List (String × String)}
    (bound : CodesBound ctx adapter shown)
    (pending : ∀ entry, entry ∈ after.pendingPairCodes ↔ entry ∈ adapter.pendingPairCodes)
    (paired : after.pairedAccounts = adapter.pairedAccounts) : CodesBound ctx after shown := by
  constructor
  · simpa only [DistinctCodes, pending] using bound.distinct
  · exact bound.latest
  · simpa only [pending, paired] using bound.pending
  · simpa only [pending, paired] using bound.kept
  · exact bound.usable

theorem CodesBound.bindsCodes (bound : CodesBound ctx s.machine.adapter s.shown) :
    BindsCodes ctx s := by
  rintro ⟨accountId, code⟩ shown
  obtain ⟨enabled, trimmed, nonblank⟩ := bound.usable _ shown
  have outcome := ends_iff.mp (approved ctx s.machine code)
  generalize result_ : (approvePairing ctx code s.machine).result = result at outcome
  generalize after_ : (approvePairing ctx code s.machine).state.adapter = after at outcome
  -- the account that an approval finds is the one that the code was shown to
  have same : ∀ other, (trim code, other) ∈ s.machine.adapter.pendingPairCodes →
      other = accountId := by
    intro other found
    rw [trimmed] at found
    rcases bound.kept accountId code shown with held | ⟨-, gone⟩
    · exact bound.distinct code other accountId found held
    · exact absurd found (gone other)
  constructor
  · intro other returned
    rw [result_] at returned
    subst returned
    cases outcome with
    | paired _ found => exact same other found
  · intro other member
    rw [after_] at member
    cases outcome with
    | refused => exact .inr member
    | paired _ found =>
      obtain rfl := same _ found
      simpa using member
    | unsaved _ _ _ =>
      rw [Finset.erase_insert_eq_erase] at member
      exact .inr (Finset.mem_of_mem_erase member)
  · intro saved
    rw [after_]
    cases outcome with
    | refused unusable =>
      rcases unusable with disabled | blank | missing
      · rw [enabled] at disabled
        cases disabled
      · exact absurd (trimmed ▸ blank) nonblank
      · rcases bound.kept accountId code shown with held | ⟨already, -⟩
        · exact absurd trimmed.symm (missing _ held)
        · exact already
    | paired _ found =>
      obtain rfl := same _ found
      exact Finset.mem_insert_self _ _
    | unsaved _ _ failed =>
      rw [saved] at failed
      cases failed

theorem drawnCode_eq_some {m : Machine} {accountId code : String}
    (draws : drawnCode ctx m accountId = some code) :
    ctx.config.pairingEnabled = true ∧ accountId ∉ m.adapter.pairedAccounts ∧
      (∀ entry ∈ m.adapter.pendingPairCodes, entry.2 ≠ accountId) ∧
      trim code = code ∧ code ≠ "" := by
  unfold drawnCode at draws
  split_ifs at draws with draws_
  obtain ⟨enabled, -, unpaired, waiting⟩ := draws_
  obtain rfl := Option.some_inj.mp draws
  exact ⟨enabled, unpaired, waiting, trim_toString _, toString_ne_empty _⟩

theorem CodesBound.not_pending_of_fresh {accountId code : String}
    (bound : CodesBound ctx s.machine.adapter s.shown)
    (draws : drawnCode ctx s.machine accountId = some code)
    (fresh : DrawsFreshCode ctx s (.request accountId)) (other : String) :
    (code, other) ∉ s.machine.adapter.pendingPairCodes := by
  intro held
  have ⟨shown, _⟩ := bound.pending code other held
  have ⟨_, _, waiting, _⟩ := drawnCode_eq_some draws
  exact fresh _ shown (waiting _ held) draws

theorem CodesBound.drawn {accountId code : String}
    (bound : CodesBound ctx s.machine.adapter s.shown)
    (draws : drawnCode ctx s.machine accountId = some code)
    (fresh : DrawsFreshCode ctx s (.request accountId)) :
    CodesBound ctx
      { s.machine.adapter with
        pendingPairCodes := insertPairCode code accountId s.machine.adapter.pendingPairCodes }
      ((accountId, code) :: s.shown.filter (·.1 ≠ accountId)) := by
  have ⟨enabled, unpaired, waiting, trimmed, nonblank⟩ := drawnCode_eq_some draws
  constructor
  · exact bound.distinct.insert _ _
  · intro other first second shown shownToo
    simp only [List.mem_cons, Prod.mk.injEq, List.mem_filter, decide_eq_true_eq] at shown shownToo
    rcases shown with ⟨rfl, rfl⟩ | ⟨shown, distinct⟩
    · rcases shownToo with ⟨-, rfl⟩ | ⟨-, distinct⟩
      · rfl
      · exact absurd rfl distinct
    · rcases shownToo with ⟨same, -⟩ | ⟨shownToo, -⟩
      · exact absurd same distinct
      · exact bound.latest other first second shown shownToo
  · intro key other held
    rcases mem_insertPairCode.mp held with same | ⟨held, -⟩
    · obtain ⟨rfl, rfl⟩ := Prod.mk.inj same
      exact ⟨List.mem_cons_self, unpaired⟩
    · have ⟨shown, alone⟩ := bound.pending key other held
      have distinct : other ≠ accountId := waiting _ held
      exact ⟨List.mem_cons_of_mem _ (List.mem_filter.mpr ⟨shown, decide_eq_true distinct⟩), alone⟩
  · intro other key shown
    rcases List.mem_cons.mp shown with same | shown
    · obtain ⟨rfl, rfl⟩ := Prod.mk.inj same
      exact .inl (mem_insertPairCode.mpr (.inl rfl))
    · obtain ⟨before, distinct⟩ := List.mem_filter.mp shown
      -- the code of another account is not the one drawn
      have differs : key ≠ code := by
        rintro rfl
        exact fresh (other, _) before (by simpa using distinct) draws
      rcases bound.kept other key before with held | ⟨paired, gone⟩
      · exact .inl (mem_insertPairCode.mpr (.inr ⟨held, differs⟩))
      · refine .inr ⟨paired, fun account held => ?_⟩
        rcases mem_insertPairCode.mp held with same | ⟨held, -⟩
        · exact differs (Prod.mk.inj same).1
        · exact gone account held
  · intro entry shown
    rcases List.mem_cons.mp shown with rfl | shown
    · exact ⟨enabled, trimmed, nonblank⟩
    · exact bound.usable entry (List.mem_filter.mp shown).1

theorem CodesBound.request {accountId : String}
    (bound : CodesBound ctx s.machine.adapter s.shown)
    (fresh : DrawsFreshCode ctx s (.request accountId)) :
    CodesBound ctx (s.request ctx accountId).machine.adapter (s.request ctx accountId).shown := by
  have outcome := ends_iff.mp (requested ctx s.machine accountId)
  simp only [PairingRun.request]
  generalize (enforcePairingPolicy ctx accountId s.machine).state.adapter = after at outcome ⊢
  generalize (enforcePairingPolicy ctx accountId s.machine).result = result at outcome ⊢
  cases outcome with
  | free => exact bound
  | @pending code held _ =>
    have ⟨shown, _⟩ := bound.pending _ _ held
    -- the code shown is the one that was shown before
    have same : ∀ entry, entry ∈ (accountId, code) :: s.shown.filter (·.1 ≠ accountId) ↔
        entry ∈ s.shown := by
      rintro ⟨other, key⟩
      simp only [List.mem_cons, Prod.mk.injEq, List.mem_filter, decide_eq_true_eq]
      constructor
      · rintro (⟨rfl, rfl⟩ | ⟨before, -⟩)
        · exact shown
        · exact before
      · intro before
        by_cases here : other = accountId
        · subst here
          exact .inl ⟨rfl, bound.latest _ _ _ before shown⟩
        · exact .inr ⟨before, here⟩
    constructor
    · exact bound.distinct
    · simpa only [showCode, same] using bound.latest
    · simpa only [showCode, same] using bound.pending
    · simpa only [showCode, same] using bound.kept
    · simpa only [showCode, same] using bound.usable
  | drawn draws => exact bound.drawn draws fresh
  | @unsaved code _ draws =>
    refine bound.congr (fun entry => ?_) rfl
    simp only [mem_removePairCode, mem_insertPairCode]
    constructor
    · rintro ⟨rfl | ⟨held, -⟩, other⟩
      · exact absurd rfl other
      · exact held
    · intro held
      have other : entry.1 ≠ code := by
        rintro rfl
        exact bound.not_pending_of_fresh draws fresh entry.2 held
      exact ⟨.inr ⟨held, other⟩, other⟩

theorem CodesBound.approve {code : String} (bound : CodesBound ctx s.machine.adapter s.shown) :
    CodesBound ctx (s.approve ctx code).machine.adapter (s.approve ctx code).shown := by
  have outcome := ends_iff.mp (approved ctx s.machine code)
  simp only [PairingRun.approve]
  generalize (approvePairing ctx code s.machine).state.adapter = after at outcome ⊢
  generalize (approvePairing ctx code s.machine).result = result at outcome
  cases outcome with
  | refused => exact bound
  | @paired accountId _ found =>
    constructor
    · exact bound.distinct.remove _
    · exact bound.latest
    · intro key other held
      obtain ⟨held, differs⟩ := mem_removePairCode.mp held
      have ⟨shown, unpaired⟩ := bound.pending key other held
      refine ⟨shown, fun paired => ?_⟩
      rcases Finset.mem_insert.mp paired with rfl | paired
      · -- one account does not wait for two codes
        exact differs (bound.latest _ _ _ shown (bound.pending _ _ found).1)
      · exact unpaired paired
    · intro other key shown
      rcases bound.kept other key shown with held | ⟨paired, gone⟩
      · by_cases used : key = trim code
        · subst used
          obtain rfl := bound.distinct _ _ _ held found
          exact .inr ⟨Finset.mem_insert_self _ _, by simp⟩
        · exact .inl (mem_removePairCode.mpr ⟨held, used⟩)
      · refine .inr ⟨Finset.mem_insert_of_mem paired, fun account held => ?_⟩
        exact gone account (mem_removePairCode.mp held).1
    · exact bound.usable
  | @unsaved accountId _ _ found _ =>
    have ⟨_, unpaired⟩ := bound.pending _ _ found
    refine bound.congr (fun entry => ?_) (Finset.erase_insert unpaired)
    simp only [mem_insertPairCode, mem_removePairCode]
    constructor
    · rintro (rfl | ⟨⟨held, -⟩, -⟩)
      · exact found
      · exact held
    · intro held
      by_cases same : entry.1 = trim code
      · left
        obtain ⟨key, other⟩ := entry
        obtain rfl : key = trim code := same
        rw [bound.distinct _ _ _ held found]
      · exact .inr ⟨⟨held, same⟩, same⟩

/-- **Pairing codes bind.** No two accounts ever wait for the same code. In every run whose
requests draw no code that another account was shown last, approving the code shown to an
account pairs that account and no other one. -/
theorem bindsCodes_of_drawsFreshCode (ctx : ChannelContext) (s : PairingRun) :
    ((pairingRuns ctx).Reachable s → DistinctCodes s.machine.adapter) ∧
      ((pairingRuns ctx).ReachableWhen (DrawsFreshCode ctx) s → BindsCodes ctx s) := by
  refine ⟨distinctCodes_of_reachable, fun reached => CodesBound.bindsCodes ?_⟩
  refine reached.invariant (fun s => CodesBound ctx s.machine.adapter s.shown) ?_ ?_
  · intro s ⟨nonePending, noneShown⟩
    constructor <;> simp [DistinctCodes, nonePending, noneShown]
  · intro s event t bound fresh moves
    cases event with
    | request accountId =>
      obtain rfl := Option.some_inj.mp moves
      exact bound.request fresh
    | approve code =>
      obtain rfl := Option.some_inj.mp moves
      exact bound.approve

/-! ### Two chats -/

instance (ctx : ChannelContext) (s : PairingRun) : ∀ event, Decidable (DrawsFreshCode ctx s event)
  | .request accountId =>
    inferInstanceAs (Decidable (∀ entry ∈ s.shown, entry.1 ≠ accountId →
      drawnCode ctx s.machine accountId ≠ some entry.2))
  | .approve _ => .isTrue trivial

/-- A channel that asks for pairing, keeps no state on disk and reads this clock. -/
def pairingContext (nowMs : ℕ → ℕ) : ChannelContext :=
  let open_ := openContext [] fun _ => .ok ()
  { open_ with
    config := { open_.config with kind := .telegram, pairingEnabled := true }
    statePersistence := false
    surroundings := { open_.surroundings with nowMs } }

def unpaired : PairingRun := ⟨⟨.fresh, 0⟩, []⟩

theorem unpaired_starts (ctx : ChannelContext) : (pairingRuns ctx).init unpaired := ⟨rfl, rfl⟩

def minuteApart : ChannelContext := pairingContext fun calls => 1735689600000 + calls * 60000

/-- The second chat asks 492030 ms after the first one. -/
def sameDraw : ChannelContext := pairingContext fun calls => 1735689600000 + calls * 492030

theorem fresh_codes_pair : ∃ s : PairingRun,
    s.shown = [("2002", "896171"), ("1001", "537909")] ∧
      s.machine.adapter.pairedAccounts = {"1001"} ∧
      DistinctCodes s.machine.adapter ∧ BindsCodes minuteApart s := by
  have ran : ((pairingRuns minuteApart).run? (DrawsFreshCode minuteApart) unpaired
      [.request "1001", .request "2002", .approve "537909"]).map
        (fun s => (s.shown, s.machine.adapter.pairedAccounts)) =
      some ([("2002", "896171"), ("1001", "537909")], {"1001"}) := by
    decide +kernel
  obtain ⟨s, reached, seen⟩ := exists_of_run? (.init (unpaired_starts _)) ran
  obtain ⟨shown, paired⟩ := Prod.mk.inj seen
  have ⟨distinct, binds⟩ := bindsCodes_of_drawsFreshCode minuteApart s
  exact ⟨s, shown, paired, distinct reached.reachable, binds reached⟩

/-- Both chats are shown the same code, and approving it pairs the second one. -/
theorem redrawn_code_pairs_other_account :
    ¬ ∀ s, (pairingRuns sameDraw).Reachable s → BindsCodes sameDraw s := by
  intro binds
  have ran : ((pairingRuns sameDraw).run? (fun _ _ => True) unpaired
      [.request "1001", .request "2002"]).map
        (fun s => (s.shown, (approvePairing sameDraw "537909" s.machine).result)) =
      some ([("2002", "537909"), ("1001", "537909")], .ok "2002") := by
    decide +kernel
  obtain ⟨s, reached, seen⟩ := exists_of_run? (.init (unpaired_starts _)) ran
  obtain ⟨shown, returned⟩ := Prod.mk.inj seen
  have pairs := binds s reached ("1001", "537909") (by rw [shown]; decide)
  exact absurd (pairs.reports "2002" returned) (by decide)

end KelvinClaw.Channel
