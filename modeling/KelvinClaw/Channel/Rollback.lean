import KelvinClaw.Channel.Pairing

/-!
# Pairing when the state cannot be saved

A request for a pairing code and the approval of one change the tables first and save them
afterwards. When the save fails they undo the change by hand: the request removes the code it
drew, and the approval puts the code back, drops the account and counts one approval less.

The accounts that wait for an approval are not paired and wait for one code each, in every state
that an adapter reaches, restarts included. So an approval undoes its change, unless its counter
was full. A request does not when it drew a code that was pending: the entry that it replaced is
lost.
-/

namespace KelvinClaw.Channel

open KelvinClaw.Core Systems Systems.Action Systems.TransitionSystem

/-! ### Sound tables -/

/-- A code is pending for one account, an account waits for one code, and it is not paired. -/
structure PairingSound (paired : Finset String) (pending : List (String × String)) : Prop where
  codes : ∀ code first second, (code, first) ∈ pending → (code, second) ∈ pending → first = second
  accounts : ∀ accountId first second, (first, accountId) ∈ pending →
    (second, accountId) ∈ pending → first = second
  unpaired : ∀ code accountId, (code, accountId) ∈ pending → accountId ∉ paired

section Tables

variable {paired : Finset String} {pending : List (String × String)} {code accountId : String}

theorem PairingSound.remove (sound : PairingSound paired pending) (code : String) :
    PairingSound paired (removePairCode code pending) := by
  have kept : ∀ {entry}, entry ∈ removePairCode code pending → entry ∈ pending :=
    fun member => (mem_removePairCode.mp member).1
  exact ⟨fun key first second held heldToo =>
      sound.codes key first second (kept held) (kept heldToo),
    fun account first second held heldToo =>
      sound.accounts account first second (kept held) (kept heldToo),
    fun key account held => sound.unpaired key account (kept held)⟩

theorem PairingSound.add (sound : PairingSound paired pending)
    (alone : ∀ key, (key, accountId) ∉ pending) (unpaired : accountId ∉ paired) :
    PairingSound paired (insertPairCode code accountId pending) := by
  constructor
  · exact insertPairCode_distinct sound.codes code accountId
  · intro account first second held heldToo
    simp only [mem_insertPairCode, Prod.mk.injEq] at held heldToo
    rcases held with ⟨rfl, rfl⟩ | ⟨held, -⟩
    · rcases heldToo with ⟨rfl, -⟩ | ⟨heldToo, -⟩
      · rfl
      · exact absurd heldToo (alone second)
    · rcases heldToo with ⟨rfl, rfl⟩ | ⟨heldToo, -⟩
      · exact absurd held (alone first)
      · exact sound.accounts account first second held heldToo
  · intro key account held
    simp only [mem_insertPairCode, Prod.mk.injEq] at held
    rcases held with ⟨rfl, rfl⟩ | ⟨held, -⟩
    · exact unpaired
    · exact sound.unpaired key account held

theorem PairingSound.alone (sound : PairingSound paired pending)
    (found : (code, accountId) ∈ pending) (key : String) :
    (key, accountId) ∉ removePairCode code pending := by
  rw [mem_removePairCode]
  rintro ⟨held, other⟩
  exact other (sound.accounts accountId key code held found)

theorem PairingSound.pair (sound : PairingSound paired pending)
    (found : (code, accountId) ∈ pending) :
    PairingSound (insert accountId paired) (removePairCode code pending) := by
  have removed := sound.remove code
  refine ⟨removed.codes, removed.accounts, fun key account held => ?_⟩
  rw [Finset.mem_insert, not_or]
  constructor
  · rintro rfl
    exact sound.alone found key held
  · exact removed.unpaired key account held

end Tables

/-! ### Computations that keep the tables sound -/

def DiskSound (ledger : Ledger) : Prop :=
  ∀ state, ledger.disk = some state → PairingSound state.pairedAccounts state.pendingPairCodes

def Sound (machine : Machine) (ledger : Ledger) : Prop :=
  PairingSound machine.adapter.pairedAccounts machine.adapter.pendingPairCodes ∧ DiskSound ledger

section KeepsSound

variable {α β : Type}

abbrev KeepsSound (act : ChannelAction α) : Prop := Keeps Ledger.record DiskSound Sound act

theorem diskSound_of_sound (machine : Machine) (ledger : Ledger) (sound : Sound machine ledger) :
    DiskSound ledger := sound.2

theorem sound_pure (a : α) : KeepsSound (pure a) := keeps_pure diskSound_of_sound a

theorem sound_fail (err : KelvinError) : KeepsSound (fail err : ChannelAction α) :=
  keeps_fail diskSound_of_sound err

theorem sound_bind {act : ChannelAction α} {next : α → ChannelAction β} (first : KeepsSound act)
    (second : ∀ a, KeepsSound (next a)) : KeepsSound (act >>= next) :=
  keeps_bind first second

theorem sound_update {change : TextChannelAdapter → TextChannelAdapter}
    (paired : ∀ adapter, (change adapter).pairedAccounts = adapter.pairedAccounts)
    (pending : ∀ adapter, (change adapter).pendingPairCodes = adapter.pendingPairCodes) :
    KeepsSound (update change) := by
  intro machine ledger sound
  refine wp_update.mpr ⟨sound.2, ?_, sound.2⟩
  rw [paired, pending]
  exact sound.1

theorem sound_record (change : ChannelMetrics → ChannelMetrics) : KeepsSound (record change) :=
  sound_update (fun _ => rfl) fun _ => rfl

theorem sound_readAdapter : KeepsSound readAdapter :=
  fun _ _ sound => wp_readAdapter.mpr ⟨sound.2, sound⟩

theorem sound_log {event : ChannelEvent}
    (unsaved : ∀ ledger : Ledger, (ledger.record event).disk = ledger.disk) :
    KeepsSound (log event) := by
  refine keeps_log diskSound_of_sound fun machine ledger sound => ⟨sound.1, ?_⟩
  unfold DiskSound
  rw [unsaved]
  exact sound.2

variable {ctx : ChannelContext}

theorem sound_ask (call : Surroundings → ℕ → α) : KeepsSound (ask ctx call) :=
  fun _ _ sound => wp_ask.mpr ⟨sound.2, sound.1, sound.2⟩

theorem wp_persistState_sound {machine : Machine} {ledger : Ledger}
    {post : Except KelvinError Unit → Machine → Ledger → Prop} (sound : Sound machine ledger)
    (saves : ∀ result after, DiskSound after → post result (afterSave ctx machine) after) :
    wp Ledger.record DiskSound (persistState ctx) post machine ledger := by
  unfold afterSave at saves
  cases persists : ctx.statePersistence with
  | false =>
    rw [persists] at saves
    unfold wp
    rw [persistState_off persists]
    exact ⟨by simpa using sound.2, saves _ _ sound.2⟩
  | true =>
    rw [persists] at saves
    unfold wp
    cases saved : ctx.surroundings.save machine.calls with
    | error err =>
      rw [persistState_failed persists saved]
      exact ⟨by simpa using sound.2, saves _ _ sound.2⟩
    | ok done =>
      rw [persistState_saved persists saved]
      have written : DiskSound (ledger.record (.saved machine.adapter.snapshotState)) := by
        intro state same
        obtain rfl := Option.some_inj.mp same
        exact sound.1
      refine ⟨fun events => ?_, saves _ _ written⟩
      cases events with
      | zero => exact sound.2
      | succ more => simpa using written

theorem sound_persistState : KeepsSound (persistState ctx) := by
  intro machine ledger sound
  refine wp_persistState_sound sound fun result after disk => ⟨?_, disk⟩
  rw [adapter_afterSave]
  exact sound.1

theorem sound_enforceRateLimit (senderId : String) (senderTier : SenderTrustTier) :
    KeepsSound (enforceRateLimit ctx senderId senderTier) := by
  apply sound_bind (sound_ask _)
  intro now
  apply sound_bind sound_readAdapter
  intro adapter
  refine sound_bind (sound_update (fun _ => rfl) fun _ => rfl) fun _ => ?_
  apply keeps_ite
  · exact sound_bind (sound_record _) fun _ => sound_fail _
  · exact sound_update (fun _ => rfl) fun _ => rfl

/-! ### Requests and approvals -/

theorem sound_enforcePairingPolicy (accountId : String) :
    KeepsSound (enforcePairingPolicy ctx accountId) := by
  intro machine ledger sound
  unfold enforcePairingPolicy
  apply wp_bind.mpr
  refine wp_readAdapter.mpr ⟨sound.2, ?_⟩
  dsimp only
  by_cases disabled : ¬ ctx.config.pairingEnabled
  · rw [if_pos disabled]
    exact sound_pure _ _ _ sound
  by_cases known : accountId ∈ ctx.config.policy.allowAccounts ∨
      accountId ∈ machine.adapter.pairedAccounts
  · rw [if_neg disabled, if_pos known]
    exact sound_pure _ _ _ sound
  rw [if_neg disabled, if_neg known]
  cases held : machine.adapter.pendingPairCodes.find? (·.2 = accountId) with
  | some existing => exact sound_pure _ _ _ sound
  | none =>
    have alone : ∀ key, (key, accountId) ∉ machine.adapter.pendingPairCodes := by
      intro key member
      simpa using List.find?_eq_none.mp held _ member
    rw [not_or] at known
    simp only [wp_bind, wp_ask, wp_update, wp_attempt]
    refine ⟨sound.2, sound.2, ?_⟩
    apply wp_persistState_sound ⟨sound.1.add alone known.2, sound.2⟩
    intro result after disk
    cases result with
    | ok _ =>
      refine wp_pure.mpr ⟨disk, ?_, disk⟩
      rw [adapter_afterSave]
      exact sound.1.add alone known.2
    | error err =>
      -- The code that was drawn is removed, whoever waited for it before.
      simp only [wp_bind, wp_update, wp_fail]
      refine ⟨disk, disk, ?_, disk⟩
      simp only [adapter_afterSave]
      exact (sound.1.add alone known.2).remove _

theorem sound_approvePairing (code : String) : KeepsSound (approvePairing ctx code) := by
  intro machine ledger sound
  unfold approvePairing
  by_cases disabled : ¬ ctx.config.pairingEnabled
  · rw [if_pos disabled]
    exact sound_fail _ _ _ sound
  by_cases blank : trim code = ""
  · rw [if_neg disabled, if_pos blank]
    exact sound_fail _ _ _ sound
  rw [if_neg disabled, if_neg blank]
  simp only [wp_bind, wp_readAdapter]
  refine ⟨sound.2, ?_⟩
  cases held : machine.adapter.pendingPairCodes.find? (·.1 = trim code) with
  | none => exact sound_fail _ _ _ sound
  | some entry =>
    obtain ⟨key, accountId⟩ := entry
    obtain rfl : key = trim code := by simpa using List.find?_some held
    have found := List.mem_of_find?_eq_some held
    simp only [wp_bind, wp_update, wp_attempt, record]
    refine ⟨sound.2, sound.2, ?_⟩
    apply wp_persistState_sound ⟨sound.1.pair found, sound.2⟩
    intro result after disk
    cases result with
    | ok _ =>
      refine wp_pure.mpr ⟨disk, ?_, disk⟩
      rw [adapter_afterSave]
      exact sound.1.pair found
    | error err =>
      -- The account is dropped before its code is put back, so it is not paired when it waits.
      simp only [wp_bind, wp_update, wp_fail]
      refine ⟨disk, disk, disk, ?_, disk⟩
      simp only [adapter_afterSave]
      have removed := sound.1.remove (trim code)
      have erased : PairingSound ((insert accountId machine.adapter.pairedAccounts).erase accountId)
          (removePairCode (trim code) machine.adapter.pendingPairCodes) :=
        ⟨removed.codes, removed.accounts, fun key account waiting paired => by
          rw [Finset.erase_insert_eq_erase] at paired
          exact removed.unpaired key account waiting (Finset.mem_of_mem_erase paired)⟩
      exact erased.add (sound.1.alone found) (Finset.notMem_erase _ _)

/-- Requests and approvals keep the tables sound, and nothing else touches them. -/
theorem Steps.keepsSound {kinds : List StepKind} {act : ChannelAction α}
    (made : Steps ctx kinds act) : KeepsSound act := by
  refine made.keeps diskSound_of_sound fun {β act} is => ?_
  have tables : ∀ {change : TextChannelAdapter → TextChannelAdapter},
      (∀ adapter, accountsOf (change adapter) = accountsOf adapter) →
        KeepsSound (update change) :=
    fun accounts => sound_update (fun adapter => congrArg (·.1) (accounts adapter))
      fun adapter => congrArg (·.2.1) (accounts adapter)
  have unsaved : ∀ {event : ChannelEvent}, event.isSaved = false → KeepsSound (log event) := by
    intro event other
    apply sound_log
    cases event <;> simp_all [ChannelEvent.isSaved, Ledger.record, Ledger.execute]
  cases is with
  | get => exact fun _ _ sound => ⟨by simpa [Action.get] using sound.2, sound⟩
  | ask call => exact sound_ask call
  | tally accounts => exact tables accounts
  | save => exact sound_persistState
  | pair accountId => exact sound_enforcePairingPolicy accountId
  | approve code => exact sound_approvePairing code
  | rate _ senderId senderTier => exact sound_enforceRateLimit senderId senderTier
  | track _ accounts => exact tables accounts
  | logTracking _ tracks => exact unsaved (unsaved_of_tracking tracks)
  | queue _ accounts => exact tables accounts
  | logAct _ other => exact unsaved other

/-! ### Runs -/

theorem sound_perform (operation : Operation) : KeepsSound (perform ctx operation) := by
  have all : ∀ kind, kind ∈ [StepKind.rates, .tracks, .acts] := fun kind => by cases kind <;> simp
  have made : Steps ctx [.rates, .tracks, .acts] (perform ctx operation) := by
    cases operation with
    | ingest envelope => exact .bind (steps_ingest all envelope) fun _ => .pure _
    | approvePairing code => exact .bind (.step (.approve code)) fun _ => .pure _
    | recordWebhookVerified statusCode retryHint => exact steps_recordWebhookVerified _ _
    | recordWebhookDenied statusCode retryHint reason => exact steps_recordWebhookDenied _ _ _
    | deliverOutboundMessage accountId text => exact steps_deliverOutboundMessage _ _
  exact made.keepsSound

theorem sound_restart {ledger : Ledger} (disk : DiskSound ledger) (calls : ℕ) :
    PairingSound (restart ctx ledger.disk calls).adapter.pairedAccounts
      (restart ctx ledger.disk calls).adapter.pendingPairCodes := by
  cases saved : ledger.disk with
  | none =>
    have nothing : PairingSound ∅ [] := by constructor <;> simp
    exact nothing
  | some state => exact disk state saved

theorem sound_of_reachable {s : AdapterRun} (reached : (channelRuns ctx).Reachable s) :
    Sound s.machine s.ledger := by
  refine reached.invariant (fun s => Sound s.machine s.ledger) ?_ ?_
  · -- A fresh adapter holds no tables and its disk none.
    intro s ⟨fresh, blank⟩
    rw [Sound, fresh, blank]
    refine ⟨by constructor <;> simp [TextChannelAdapter.fresh], fun state saved => ?_⟩
    cases saved
  · intro s event t sound _ moves
    cases event with
    | completed operation =>
      obtain rfl := Option.some_inj.mp moves
      exact (sound_perform operation s.machine s.ledger sound).2
    | crashed operation events =>
      obtain rfl := Option.some_inj.mp moves
      have cut := (@sound_perform ctx operation s.machine s.ledger sound).crash events
      exact ⟨sound_restart cut _, cut⟩

end KeepsSound

/-! ### What a request and an approval do -/

section Operations

variable (ctx : ChannelContext) (m : Machine)

def saveAt (calls : ℕ) : KelvinResult Unit :=
  if ctx.statePersistence then ctx.surroundings.save calls else .ok ()

theorem saveResult_eq : saveResult ctx m = saveAt ctx m.calls := rfl

def accountFor (code : String) : Option String :=
  if ctx.config.pairingEnabled ∧ trim code ≠ "" then
    (m.adapter.pendingPairCodes.find? (·.1 = trim code)).map (·.2)
  else none

/-- What a request draws is saved after the clock is read; when it cannot be saved its code is
removed. -/
theorem ends_enforcePairingPolicy (accountId : String) :
    Ends (enforcePairingPolicy ctx accountId) (fun result t =>
      match drawnCode ctx m accountId with
      | none => (∃ code, result = .ok code) ∧ t.adapter = m.adapter
      | some code =>
        match saveAt ctx (m.calls + 1) with
        | .ok () => result = .ok (some code)
        | .error err => result = .error err ∧
            t.adapter = { m.adapter with
              pendingPairCodes := removePairCode code m.adapter.pendingPairCodes }) m := by
  unfold enforcePairingPolicy
  apply wp_bind.mpr
  refine wp_readAdapter.mpr ⟨trivial, ?_⟩
  dsimp only
  -- the three returns of the source before a code is drawn
  by_cases disabled : ¬ ctx.config.pairingEnabled
  · have none : drawnCode ctx m accountId = none := if_neg fun draws => disabled draws.1
    rw [none, if_pos disabled]
    exact wp_pure.mpr ⟨trivial, ⟨_, rfl⟩, rfl⟩
  by_cases known : accountId ∈ ctx.config.policy.allowAccounts ∨
      accountId ∈ m.adapter.pairedAccounts
  · have none : drawnCode ctx m accountId = none :=
      if_neg fun draws => known.elim draws.2.1 draws.2.2.1
    rw [none, if_neg disabled, if_pos known]
    exact wp_pure.mpr ⟨trivial, ⟨_, rfl⟩, rfl⟩
  rw [if_neg disabled, if_neg known]
  cases held : m.adapter.pendingPairCodes.find? (·.2 = accountId) with
  | some existing =>
    have none : drawnCode ctx m accountId = none := by
      refine if_neg fun draws => draws.2.2.2 existing (List.mem_of_find?_eq_some held) ?_
      simpa using List.find?_some held
    rw [none]
    exact wp_pure.mpr ⟨trivial, ⟨_, rfl⟩, rfl⟩
  | none =>
    have draws : drawnCode ctx m accountId =
        some (pairCode (ctx.surroundings.nowMs m.calls) accountId) := by
      rw [not_or] at known
      exact if_pos ⟨not_not.mp disabled, known.1, known.2, by simpa using held⟩
    rw [draws]
    simp only [wp_bind, wp_ask, wp_update, wp_attempt]
    refine ⟨trivial, trivial, ?_⟩
    apply (wp_persistState ctx).mpr
    rw [saveResult_eq]
    cases saved : saveAt ctx (m.calls + 1) with
    | ok _ =>
      exact wp_pure.mpr ⟨trivial, rfl⟩
    | error err =>
      simp only [wp_bind, wp_update, wp_fail, adapter_afterSave]
      refine ⟨trivial, trivial, trivial, ?_⟩
      simp [removePairCode, insertPairCode]

/-- What an approval changes is saved at once; when it cannot be saved the change is undone. -/
theorem ends_approvePairing (code : String) :
    Ends (approvePairing ctx code) (fun result t =>
      match accountFor ctx m code with
      | none => t.adapter = m.adapter
      | some accountId =>
        match saveAt ctx m.calls with
        | .ok () => result = .ok accountId
        | .error err => result = .error err ∧
            t.adapter = { m.adapter with
              pairedAccounts := (insert accountId m.adapter.pairedAccounts).erase accountId
              pendingPairCodes := insertPairCode (trim code) accountId
                (removePairCode (trim code) m.adapter.pendingPairCodes)
              metrics := { m.adapter.metrics with
                pairingApprovedTotal := bump m.adapter.metrics.pairingApprovedTotal - 1 } }) m := by
  unfold approvePairing
  by_cases disabled : ¬ ctx.config.pairingEnabled
  · have none : accountFor ctx m code = none := if_neg fun found => disabled found.1
    rw [none, if_pos disabled]
    exact wp_fail.mpr ⟨trivial, rfl⟩
  by_cases blank : trim code = ""
  · have none : accountFor ctx m code = none := if_neg fun found => found.2 blank
    rw [none, if_neg disabled, if_pos blank]
    exact wp_fail.mpr ⟨trivial, rfl⟩
  have account : accountFor ctx m code =
      (m.adapter.pendingPairCodes.find? (·.1 = trim code)).map (·.2) :=
    if_pos ⟨not_not.mp disabled, blank⟩
  rw [account, if_neg disabled, if_neg blank]
  simp only [wp_bind, wp_readAdapter]
  refine ⟨trivial, ?_⟩
  cases held : m.adapter.pendingPairCodes.find? (·.1 = trim code) with
  | none => exact wp_fail.mpr ⟨trivial, rfl⟩
  | some entry =>
    obtain ⟨key, accountId⟩ := entry
    simp only [wp_bind, wp_update, wp_attempt, record, Option.map_some]
    refine ⟨trivial, trivial, ?_⟩
    apply (wp_persistState ctx).mpr
    rw [saveResult_eq]
    cases saved : saveAt ctx m.calls with
    | ok _ =>
      exact wp_pure.mpr ⟨trivial, rfl⟩
    | error err =>
      simp only [wp_bind, wp_update, wp_fail, adapter_afterSave, and_self]

end Operations

/-! ### Failures without a trace -/

/-- Pairing and the counters are the same; the pending codes are a map, which may be listed
otherwise. -/
structure SameTables (before after : TextChannelAdapter) : Prop where
  paired : after.pairedAccounts = before.pairedAccounts
  pending : ∀ entry, entry ∈ after.pendingPairCodes ↔ entry ∈ before.pendingPairCodes
  metrics : after.metrics = before.metrics

theorem SameTables.refl (adapter : TextChannelAdapter) : SameTables adapter adapter :=
  ⟨rfl, fun _ => Iff.rfl, rfl⟩

/-- A computation that fails leaves pairing and the counters as they were. -/
def Restores {α : Type} (act : ChannelAction α) (m : Machine) : Prop :=
  ∀ err, (act m).result = .error err → SameTables m.adapter (act m).state.adapter

section Restores

variable {ctx : ChannelContext} {m : Machine}

/-- A request that cannot be saved leaves no trace unless it drew a pending code. -/
theorem restores_enforcePairingPolicy_iff {accountId : String} :
    Restores (enforcePairingPolicy ctx accountId) m ↔
      ∀ code err, drawnCode ctx m accountId = some code →
        saveAt ctx (m.calls + 1) = .error err →
          ∀ entry ∈ m.adapter.pendingPairCodes, entry.1 ≠ code := by
  have ends := ends_iff.mp (ends_enforcePairingPolicy ctx m accountId)
  unfold Restores
  generalize (enforcePairingPolicy ctx accountId m).result = result at ends ⊢
  generalize (enforcePairingPolicy ctx accountId m).state.adapter = after at ends ⊢
  cases draws : drawnCode ctx m accountId with
  | none =>
    simp only [draws] at ends
    obtain ⟨⟨code, rfl⟩, rfl⟩ := ends
    simp
  | some code =>
    cases saved : saveAt ctx (m.calls + 1) with
    | ok done =>
      simp only [draws, saved] at ends
      subst ends
      simp
    | error err =>
      simp only [draws, saved] at ends
      obtain ⟨rfl, rfl⟩ := ends
      constructor
      · -- An entry under the drawn code was replaced, and the removal does not bring it back.
        rintro restores _ _ ⟨⟩ ⟨⟩ entry held
        exact (mem_removePairCode.mp (((restores err rfl).pending entry).mpr held)).2
      · rintro free _ ⟨⟩
        refine ⟨rfl, fun entry => ?_, rfl⟩
        rw [mem_removePairCode]
        exact and_iff_left_of_imp fun held => free code err rfl rfl entry held

/-- An approval that cannot be saved leaves no trace unless its counter was full. -/
theorem restores_approvePairing_iff {code : String}
    (sound : PairingSound m.adapter.pairedAccounts m.adapter.pendingPairCodes) :
    Restores (approvePairing ctx code) m ↔
      ∀ accountId err, accountFor ctx m code = some accountId → saveAt ctx m.calls = .error err →
        m.adapter.metrics.pairingApprovedTotal < u64Max := by
  have ends := ends_iff.mp (ends_approvePairing ctx m code)
  unfold Restores
  generalize (approvePairing ctx code m).result = result at ends ⊢
  generalize (approvePairing ctx code m).state.adapter = after at ends ⊢
  cases account : accountFor ctx m code with
  | none =>
    simp only [account] at ends
    subst ends
    simp [SameTables.refl]
  | some accountId =>
    cases saved : saveAt ctx m.calls with
    | ok done =>
      simp only [account, saved] at ends
      subst ends
      simp
    | error err =>
      simp only [account, saved] at ends
      obtain ⟨rfl, rfl⟩ := ends
      have found : (trim code, accountId) ∈ m.adapter.pendingPairCodes := by
        unfold accountFor at account
        split_ifs at account
        obtain ⟨⟨key, _⟩, held, rfl⟩ := Option.map_eq_some_iff.mp account
        obtain rfl : key = trim code := by simpa using List.find?_some held
        exact List.mem_of_find?_eq_some held
      -- The counter saturates, and one less than a full counter is not what it was.
      have counts : bump m.adapter.metrics.pairingApprovedTotal - 1 =
          m.adapter.metrics.pairingApprovedTotal ↔
            m.adapter.metrics.pairingApprovedTotal < u64Max := by
        have positive : 0 < u64Max := by decide
        unfold bump saturatingAdd
        omega
      constructor
      · rintro restores _ _ ⟨⟩ ⟨⟩
        exact counts.mp (congrArg ChannelMetrics.pairingApprovedTotal (restores err rfl).metrics)
      · rintro room _ ⟨⟩
        refine ⟨Finset.erase_insert (sound.unpaired _ _ found), ?_,
          congrArg (fun total => { m.adapter.metrics with pairingApprovedTotal := total })
            (counts.mpr (room accountId err rfl rfl))⟩
        rintro ⟨key, other⟩
        simp only [mem_insertPairCode, mem_removePairCode, Prod.mk.injEq]
        constructor
        · rintro (⟨rfl, rfl⟩ | ⟨⟨held, -⟩, -⟩)
          · exact found
          · exact held
        · intro held
          by_cases same : key = trim code
          · subst same
            exact .inl ⟨rfl, sound.codes _ _ _ held found⟩
          · exact .inr ⟨⟨held, same⟩, same⟩

end Restores

/-- In every state that an adapter reaches, a request that cannot be saved leaves no trace
exactly when the code it drew was pending for no account, and an approval exactly when its
counter was not full. -/
theorem pairing_restored_iff (ctx : ChannelContext) {s : AdapterRun}
    (reached : (channelRuns ctx).Reachable s) :
    (∀ accountId, Restores (enforcePairingPolicy ctx accountId) s.machine ↔
      ∀ code err, drawnCode ctx s.machine accountId = some code →
        saveAt ctx (s.machine.calls + 1) = .error err →
          ∀ entry ∈ s.machine.adapter.pendingPairCodes, entry.1 ≠ code) ∧
    ∀ code, Restores (approvePairing ctx code) s.machine ↔
      ∀ accountId err, accountFor ctx s.machine code = some accountId →
        saveAt ctx s.machine.calls = .error err →
          s.machine.adapter.metrics.pairingApprovedTotal < u64Max :=
  ⟨fun _ => restores_enforcePairingPolicy_iff,
    fun _ => restores_approvePairing_iff (sound_of_reachable reached).1⟩

/-! ### A full disk -/

/-- A channel that asks for pairing and saves its state once, until the disk is full. The clock
advances by 492030 ms after the first message. -/
def fullDisk : ChannelContext :=
  let open_ := openContext [] fun calls => if calls < 2 then .ok () else .error (.io "disk full")
  { open_ with
    config := { open_.config with kind := .telegram, pairingEnabled := true }
    surroundings := { open_.surroundings with
      nowMs := fun calls => if calls < 2 then 1735689600000 else 1735689600000 + 492030 } }

def chatMessage (accountId : String) : ChannelEnvelope :=
  ⟨s!"delivery-{accountId}", "user-1", accountId, "hello", none, none, none, none⟩

theorem first_chat_waits : ∃ s, (channelRuns fullDisk).Reachable s ∧
    s.machine.adapter.pendingPairCodes = [("537909", "1001")] ∧
    s.machine.adapter.metrics.pairingApprovedTotal = 0 ∧
    drawnCode fullDisk s.machine "2002" = some "537909" ∧
    saveAt fullDisk (s.machine.calls + 1) = .error (.io "disk full") := by
  have ran : ((channelRuns fullDisk).run? (fun _ _ => True) emptyRun
      [.completed (.ingest (chatMessage "1001"))]).map
        (fun s => (s.machine.adapter.pendingPairCodes,
          s.machine.adapter.metrics.pairingApprovedTotal, drawnCode fullDisk s.machine "2002",
          saveAt fullDisk (s.machine.calls + 1))) =
      some ([("537909", "1001")], 0, some "537909", .error (.io "disk full")) := by
    decide +kernel
  obtain ⟨s, reached, seen⟩ := exists_of_run? (.init (emptyRun_starts _)) ran
  simp only [Prod.mk.injEq] at seen
  exact ⟨s, reached.reachable, seen⟩

/-- An approval that cannot be saved leaves no trace. -/
theorem unsaved_approval_leaves_no_trace : ∃ s, (channelRuns fullDisk).Reachable s ∧
    Restores (approvePairing fullDisk "537909") s.machine := by
  obtain ⟨s, reached, _, approvals, _⟩ := first_chat_waits
  refine ⟨s, reached, ((pairing_restored_iff fullDisk reached).2 _).mpr fun _ _ _ _ => ?_⟩
  rw [approvals]
  decide

/-- A request that cannot be saved removes the code of another chat. -/
theorem unsaved_request_removes_other_code :
    ¬ ∀ s, (channelRuns fullDisk).Reachable s → ∀ accountId,
      Restores (enforcePairingPolicy fullDisk accountId) s.machine := by
  intro restores
  obtain ⟨s, reached, pending, _, draws, failed⟩ := first_chat_waits
  refine restores_enforcePairingPolicy_iff.mp (restores s reached "2002") _ _ draws failed
    ("537909", "1001") ?_ rfl
  rw [pending]
  exact List.mem_singleton.mpr rfl

end KelvinClaw.Channel
