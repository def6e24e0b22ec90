import KelvinClaw.Channel.SeenDeliveries

/-!
# How long a delivery is remembered

An adapter forgets the id of a delivery when enough other ids came after it. A history of an
adapter is its ledger with all the ids that were ever tracked, those before crashes included; an
id that was forgotten is displaced in it.
-/

namespace KelvinClaw.Channel

open KelvinClaw.Core Systems Systems.Action Systems.TransitionSystem

/-! ### Histories -/

/-- What an adapter did for good, and all the ids that it tracked. -/
structure History where
  ledger : Ledger
  tracked : List String

namespace History

def blank : History := ⟨.blank, []⟩

def record (history : History) : ChannelEvent → History
  | .tracked deliveryId => { history with tracked := history.tracked ++ [deliveryId] }
  | event => { history with ledger := history.ledger.record event }

def forget (history : History) (deliveryIds : List String) : History :=
  { history with
    ledger := { history.ledger with forgotten := history.ledger.forgotten ++ deliveryIds } }

theorem ledger_record (history : History) (event : ChannelEvent) :
    (history.record event).ledger = history.ledger.record event := by
  cases event <;> rfl

theorem ledger_foldl (history : History) (events : List ChannelEvent) :
    (events.foldl record history).ledger = events.foldl Ledger.record history.ledger := by
  induction events generalizing history with
  | nil => rfl
  | cons event rest ih => rw [List.foldl_cons, List.foldl_cons, ih, ledger_record]

end History

/-! ### Retention -/

/-- The snapshot on disk lists tracked ids in their order, and the forgotten ids are displaced. -/
structure RetainedOnDisk (policy : ChannelPolicy) (history : History) : Prop where
  distinct : ∀ state ∈ history.ledger.disk, state.seenDeliveryOrder.Nodup
  order : ∀ state ∈ history.ledger.disk, state.seenDeliveryOrder.Sublist history.tracked
  forgotten : ∀ deliveryId ∈ history.ledger.forgotten,
    Displaced policy.maxSeenDeliveryIds history.tracked deliveryId

/-- So does the memory of the adapter. -/
structure Retains (policy : ChannelPolicy) (v : Deliveries) (history : History) : Prop where
  ids : v.seenDeliveryIds = v.seenDeliveryOrder.toFinset
  distinct : v.seenDeliveryOrder.Nodup
  order : v.seenDeliveryOrder.Sublist history.tracked
  disk : RetainedOnDisk policy history

variable {policy : ChannelPolicy} {v : Deliveries} {history : History}

theorem RetainedOnDisk.track (disk : RetainedOnDisk policy history) (deliveryId : String) :
    RetainedOnDisk policy (history.record (.tracked deliveryId)) where
  distinct := disk.distinct
  order state written := (disk.order state written).trans (List.sublist_append_left _ _)
  forgotten other member := (disk.forgotten other member).later (List.sublist_append_left _ _)

theorem RetainedOnDisk.forget (disk : RetainedOnDisk policy history) {order dropped : List String}
    (distinct : order.Nodup) (listed : order.Sublist history.tracked)
    (cut : dropped.Sublist (order.take (order.length - policy.maxSeenDeliveryIds))) :
    RetainedOnDisk policy (history.forget dropped) where
  distinct := disk.distinct
  order := disk.order
  forgotten deliveryId member := by
    rcases List.mem_append.mp member with before | now
    · exact disk.forgotten deliveryId before
    · exact displaced_of_mem_take distinct listed (cut.subset now)

theorem Retains.save (retains : Retains policy v history) {state : PersistedChannelState}
    (same : state.seenDeliveryOrder = v.seenDeliveryOrder) :
    Retains policy v (history.record (.saved state)) where
  ids := retains.ids
  distinct := retains.distinct
  order := retains.order
  disk := by
    constructor
    · intro written onDisk
      obtain rfl := Option.some_inj.mp onDisk
      rw [same]
      exact retains.distinct
    · intro written onDisk
      obtain rfl := Option.some_inj.mp onDisk
      rw [same]
      exact retains.order
    · exact retains.disk.forgotten

section Operations

variable {ctx : ChannelContext}

theorem wp_evictOldest_retains (excess : ℕ) {machine : Machine} {history : History}
    (retains : Retains ctx.config.policy (deliveries machine) history)
    (above : excess ≤
      machine.adapter.seenDeliveryOrder.length - ctx.config.policy.maxSeenDeliveryIds) :
    wp History.record (RetainedOnDisk ctx.config.policy) (evictOldest excess)
      (fun _ t after => Retains ctx.config.policy (deliveries t) after) machine history := by
  induction excess generalizing machine history with
  | zero => exact wp_pure.mpr ⟨retains.disk, retains⟩
  | succ excess ih =>
    have disk := retains.disk
    simp only [evictOldest, wp_bind, wp_readAdapter]
    refine ⟨disk, ?_⟩
    cases order : machine.adapter.seenDeliveryOrder with
    | nil => exact wp_pure.mpr ⟨disk, retains⟩
    | cons evicted rest =>
      obtain ⟨ids, distinct, listed, _⟩ := retains
      simp only [deliveries, order] at ids distinct listed
      rw [order, List.length_cons] at above
      have cut : [evicted].Sublist ((evicted :: rest).take
          ((evicted :: rest).length - ctx.config.policy.maxSeenDeliveryIds)) := by
        rw [List.length_cons,
          show rest.length + 1 - ctx.config.policy.maxSeenDeliveryIds =
            (rest.length - ctx.config.policy.maxSeenDeliveryIds) + 1 by omega, List.take_succ_cons]
        exact (List.nil_sublist _).cons_cons _
      have after := disk.forget distinct listed cut
      simp only [wp_bind, wp_update, wp_log]
      refine ⟨disk, ⟨disk, after⟩, ih ⟨?_, ?_, ?_, after⟩ ?_⟩
      · change machine.adapter.seenDeliveryIds.erase evicted = rest.toFinset
        rw [ids, List.toFinset_cons]
        exact Finset.erase_insert (by simpa using (List.nodup_cons.mp distinct).1)
      · exact (List.nodup_cons.mp distinct).2
      · exact (List.sublist_cons_self _ _).trans listed
      · change excess ≤ rest.length - _
        omega

theorem retains_trackDeliveryId (deliveryId : String) :
    KeepsDeliveries History.record (RetainedOnDisk ctx.config.policy) (Retains ctx.config.policy)
      (trackDeliveryId ctx deliveryId) := by
  intro machine history retains
  have disk := retains.disk
  simp only [trackDeliveryId, record, wp_bind, wp_readAdapter]
  refine ⟨disk, ?_⟩
  split
  · next new =>
    have tracked := disk.track deliveryId
    simp only [wp_bind, wp_update, wp_log, wp_ask, wp_readAdapter]
    refine ⟨disk, ⟨disk, tracked⟩, tracked, tracked, tracked, ?_⟩
    have ids : machine.adapter.seenDeliveryIds = machine.adapter.seenDeliveryOrder.toFinset :=
      retains.ids
    rw [ids, List.mem_toFinset] at new
    refine wp_evictOldest_retains _ ?_ (le_refl _)
    constructor
    · change insert deliveryId machine.adapter.seenDeliveryIds = _
      ext other
      rw [ids]
      simp only [deliveries, Finset.mem_insert, List.mem_toFinset, List.mem_append,
        List.mem_singleton]
      exact or_comm
    · change (machine.adapter.seenDeliveryOrder ++ [deliveryId]).Nodup
      rw [← List.concat_eq_append]
      exact retains.distinct.concat new
    · exact retains.order.append (List.Sublist.refl _)
    · exact tracked
  · simp only [wp_bind, wp_update, wp_ask, wp_readAdapter]
    refine ⟨disk, disk, disk, ?_⟩
    exact wp_evictOldest_retains _ ⟨retains.ids, retains.distinct, retains.order, disk⟩ (le_refl _)

theorem retains_law :
    DeliveryLaw ctx History.record (RetainedOnDisk ctx.config.policy)
      (Retains ctx.config.policy) where
  safe _ _ retains := retains.disk
  saves _ _ event retains saves := by
    cases event with
    | saved state => exact retains.save saves.2.1
    | _ => exact saves.elim
  executes _ history event retains execution := by
    have untouched : (history.record event).tracked = history.tracked ∧
        (history.record event).ledger.disk = history.ledger.disk ∧
        (history.record event).ledger.forgotten = history.ledger.forgotten := by
      cases execution <;> exact ⟨rfl, rfl, rfl⟩
    obtain ⟨tracked, onDisk, forgotten⟩ := untouched
    refine ⟨retains.ids, retains.distinct, ?_, ?_, ?_, ?_⟩
    · rw [tracked]
      exact retains.order
    · rw [onDisk]
      exact retains.disk.distinct
    · rw [onDisk, tracked]
      exact retains.disk.order
    · rw [forgotten, tracked]
      exact retains.disk.forgotten
  queues _ _ _ retains _ := ⟨retains.ids, retains.distinct, retains.order, retains.disk⟩
  takes _ _ _ _ retains _ := ⟨retains.ids, retains.distinct, retains.order, retains.disk⟩
  tracks := retains_trackDeliveryId

end Operations

/-! ### Runs -/

structure HistoryRun where
  machine : Machine
  history : History

namespace HistoryRun

variable (ctx : ChannelContext) (s : HistoryRun)

def ledgered : AdapterRun := ⟨s.machine, s.history.ledger⟩

def complete (operation : Operation) : HistoryRun where
  machine := (perform ctx operation s.machine).state
  history := (perform ctx operation s.machine).journal.foldl History.record s.history

def crash (operation : Operation) (events : ℕ) : HistoryRun :=
  let history :=
    ((perform ctx operation s.machine).journal.take events).foldl History.record s.history
  { machine := restart ctx history.ledger.disk (perform ctx operation s.machine).state.calls
    history := history.forget (cutAtRestart ctx.config.policy history.ledger.disk) }

theorem ledgered_complete (operation : Operation) :
    (s.complete ctx operation).ledgered = s.ledgered.complete ctx operation := by
  simp only [ledgered, complete, AdapterRun.complete, History.ledger_foldl]

theorem ledgered_crash (operation : Operation) (events : ℕ) :
    (s.crash ctx operation events).ledgered = s.ledgered.crash ctx operation events := by
  simp only [ledgered, crash, AdapterRun.crash, AdapterRun.ledgerAt, History.forget,
    History.ledger_foldl]

end HistoryRun

def historyRuns (ctx : ChannelContext) : TransitionSystem HistoryRun RunEvent where
  init s := s.machine.adapter = .fresh ∧ s.history = .blank
  step s
    | .completed operation => some (s.complete ctx operation)
    | .crashed operation events => some (s.crash ctx operation events)

/-- No crash finds an execution that the disk does not know. -/
def SavedInHistory (ctx : ChannelContext) (s : HistoryRun) (event : RunEvent) : Prop :=
  SavedAtCrash ctx s.ledgered event

variable {ctx : ChannelContext} {s : HistoryRun}

theorem ledgered_of_reachable (reached : (historyRuns ctx).ReachableWhen (SavedInHistory ctx) s) :
    (channelRuns ctx).ReachableWhen (SavedAtCrash ctx) s.ledgered := by
  refine reached.map HistoryRun.ledgered ?_ ?_
  · intro s ⟨fresh, blank⟩
    exact ⟨fresh, congrArg History.ledger blank⟩
  · intro s event t _ saved moves
    refine .inr ⟨event, saved, ?_⟩
    cases event with
    | completed operation =>
      obtain rfl := Option.some_inj.mp moves
      exact congrArg some (s.ledgered_complete ctx operation).symm
    | crashed operation events =>
      obtain rfl := Option.some_inj.mp moves
      exact congrArg some (s.ledgered_crash ctx operation events).symm

theorem retains_restart (disk : RetainedOnDisk ctx.config.policy history) (calls : ℕ) :
    Retains ctx.config.policy (deliveries (restart ctx history.ledger.disk calls))
      (history.forget (cutAtRestart ctx.config.policy history.ledger.disk)) := by
  cases saved : history.ledger.disk with
  | none =>
    refine ⟨rfl, List.nodup_nil, List.nil_sublist _, ?_⟩
    exact disk.forget List.nodup_nil (List.nil_sublist _) (List.nil_sublist _)
  | some state =>
    have distinct := disk.distinct state saved
    have listed := disk.order state saved
    refine ⟨rfl, ?_, ?_, ?_⟩
    · exact distinct.sublist (List.drop_sublist _ _)
    · exact (List.drop_sublist _ _).trans listed
    · exact disk.forget distinct listed (List.Sublist.refl _)

/-- **In every state reached** the forgotten ids are displaced. -/
theorem retains_of_reachable (reached : (historyRuns ctx).Reachable s) :
    Retains ctx.config.policy (deliveries s.machine) s.history := by
  refine reached.invariant
    (fun s => Retains ctx.config.policy (deliveries s.machine) s.history) ?_ ?_
  · intro s ⟨fresh, blank⟩
    rw [deliveries, fresh, blank]
    refine ⟨rfl, List.nodup_nil, List.nil_sublist _, ?_⟩
    constructor
    · intro state written
      cases written
    · intro state written
      cases written
    · intro deliveryId member
      cases member
  · intro s event t retains _ moves
    cases event with
    | completed operation =>
      obtain rfl := Option.some_inj.mp moves
      exact (retains_law.keeps_perform operation s.machine s.history retains).2
    | crashed operation events =>
      obtain rfl := Option.some_inj.mp moves
      exact retains_restart
        ((retains_law.keeps_perform operation s.machine s.history retains).1 events) _

/-- **Once, or displaced.** When the crashes find the executions saved, a delivery is executed
once at most, or at least `max_seen_delivery_ids` other deliveries were tracked after it. -/
theorem count_executed_of_savedAtCrash
    (reached : (historyRuns ctx).ReachableWhen (SavedInHistory ctx) s) (deliveryId : String) :
    s.history.ledger.executed.count deliveryId ≤ 1 ∨
      Displaced ctx.config.policy.maxSeenDeliveryIds s.history.tracked deliveryId := by
  by_cases kept : deliveryId ∈ s.history.ledger.forgotten
  · exact .inr ((retains_of_reachable reached.reachable).disk.forgotten deliveryId kept)
  · left
    obtain ⟨a, refines, _⟩ := simulates_of_savedAtCrash (ledgered_of_reachable reached)
    have executed : a.executed = s.history.ledger.executed := refines.executed
    have forgotten : a.forgotten = s.history.ledger.forgotten := refines.forgotten
    rw [← forgotten] at kept
    rw [← executed]
    exact DurableInbox.count_executed_le_one refines.reached deliveryId kept

end KelvinClaw.Channel
