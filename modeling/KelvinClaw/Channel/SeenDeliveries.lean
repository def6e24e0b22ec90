import KelvinClaw.Library.Recent
import KelvinClaw.Channel.DeliveryLaws

/-!
# The seen deliveries of a channel

An adapter remembers the ids of the deliveries it has seen, twice: as a set, to look them up, and
in their order, to forget the oldest one above the limit. Beside them it keeps the inbox, with a
limit of its own. All three are on disk with its state. A restart rebuilds the set from the order
and cuts order and inbox to the limits in force, which may be other ones than those the snapshot
was written under.
-/

namespace KelvinClaw.Channel

open KelvinClaw.Core Systems Systems.Action Systems.TransitionSystem

/-! ### Trails -/

/-- The ids that an adapter has tracked, those of the snapshot it started from first, and the
last snapshot with the ids tracked until it was saved. -/
structure Trail where
  tracked : List String
  saved : Option (PersistedChannelState × List String)

namespace Trail

def record (trail : Trail) : ChannelEvent → Trail
  | .tracked deliveryId => { trail with tracked := trail.tracked ++ [deliveryId] }
  | .saved state => { trail with saved := some (state, trail.tracked) }
  | _ => trail

def disk (trail : Trail) : Option PersistedChannelState := trail.saved.map Prod.fst

def reload (trail : Trail) : Trail := { trail with tracked := trail.saved.elim [] Prod.snd }

def ofSnapshot (state : PersistedChannelState) : Trail :=
  ⟨state.seenDeliveryOrder, some (state, state.seenDeliveryOrder)⟩

end Trail

/-! ### The representation -/

/-- The snapshot on disk names no id twice, and under the limit the newest of its ids are the most
recent ones that were tracked until it was saved. -/
def SeenOnDisk (policy : ChannelPolicy) (trail : Trail) : Prop :=
  ∀ state tracked, trail.saved = some (state, tracked) → state.seenDeliveryOrder.Nodup ∧
    state.seenDeliveryOrder.rtake policy.maxSeenDeliveryIds =
      recent policy.maxSeenDeliveryIds tracked

/-- The order holds the most recent ids that were tracked, the set those of the order, and the
inbox no more entries than its limit. -/
structure Seen (policy : ChannelPolicy) (v : Deliveries) (trail : Trail) : Prop where
  ids : v.seenDeliveryIds = v.seenDeliveryOrder.toFinset
  order : v.seenDeliveryOrder = recent policy.maxSeenDeliveryIds trail.tracked
  inbox : v.inbox.length ≤ policy.maxQueueDepth
  disk : SeenOnDisk policy trail

variable {policy : ChannelPolicy} {v : Deliveries} {trail : Trail}

theorem Seen.nodup (seen : Seen policy v trail) : v.seenDeliveryOrder.Nodup := by
  rw [seen.order]
  exact nodup_recent

theorem Seen.length_le (seen : Seen policy v trail) :
    v.seenDeliveryOrder.length ≤ policy.maxSeenDeliveryIds := by
  rw [seen.order]
  exact length_recent_le

theorem Seen.save (seen : Seen policy v trail) {state : PersistedChannelState}
    (order : state.seenDeliveryOrder = v.seenDeliveryOrder) :
    Seen policy v (trail.record (.saved state)) where
  ids := seen.ids
  order := seen.order
  inbox := seen.inbox
  disk := by
    intro written tracked same
    obtain ⟨rfl, rfl⟩ := Prod.mk.inj (Option.some_inj.mp same)
    rw [order]
    refine ⟨seen.nodup, ?_⟩
    rw [rtake_of_length_le seen.length_le]
    exact seen.order

theorem seen_ofSnapshot {state : PersistedChannelState}
    (distinct : state.seenDeliveryOrder.Nodup) (inbox : List QueuedEnvelope)
    (cut : inbox.length ≤ policy.maxQueueDepth) :
    Seen policy
      ⟨(state.seenDeliveryOrder.rtake policy.maxSeenDeliveryIds).toFinset,
        state.seenDeliveryOrder.rtake policy.maxSeenDeliveryIds, inbox⟩
      (Trail.ofSnapshot state) where
  ids := rfl
  order := (recent_of_nodup distinct).symm
  inbox := cut
  disk := by
    intro written tracked same
    obtain ⟨rfl, rfl⟩ := Prod.mk.inj (Option.some_inj.mp same)
    exact ⟨distinct, (recent_of_nodup distinct).symm⟩

theorem Seen.reload {state : PersistedChannelState} {tracked : List String}
    (disk : SeenOnDisk policy trail) (saved : trail.saved = some (state, tracked))
    (inbox : List QueuedEnvelope) (cut : inbox.length ≤ policy.maxQueueDepth) :
    Seen policy
      ⟨(state.seenDeliveryOrder.rtake policy.maxSeenDeliveryIds).toFinset,
        state.seenDeliveryOrder.rtake policy.maxSeenDeliveryIds, inbox⟩ trail.reload where
  ids := rfl
  order := by
    simp only [Trail.reload, saved, Option.elim_some]
    exact (disk state tracked saved).2
  inbox := cut
  disk := disk

/-! ### Operations -/

section Operations

variable {ctx : ChannelContext}

/-- Dropping the oldest ids drops them from the set as well, and changes nothing that a record
does not note of forgotten ids. -/
theorem wp_evictOldest_noted {L γ : Type} {record : L → ChannelEvent → L} {during : L → Prop}
    (noted : L → γ) (unnoted : ∀ ledger deliveryId,
      noted (record ledger (.forgotten deliveryId)) = noted ledger)
    (excess : ℕ) {machine : Machine} {ledger : L}
    (ids : machine.adapter.seenDeliveryIds = machine.adapter.seenDeliveryOrder.toFinset)
    (distinct : machine.adapter.seenDeliveryOrder.Nodup)
    (safe : ∀ after, noted after = noted ledger → during after) :
    wp record during (evictOldest excess)
      (fun result t after => result = .ok () ∧ noted after = noted ledger ∧ t.adapter =
        { machine.adapter with
          seenDeliveryIds := (machine.adapter.seenDeliveryOrder.drop excess).toFinset
          seenDeliveryOrder := machine.adapter.seenDeliveryOrder.drop excess })
      machine ledger := by
  induction excess generalizing machine ledger with
  | zero =>
    refine wp_pure.mpr ⟨safe _ rfl, rfl, rfl, ?_⟩
    rw [List.drop_zero, ← ids]
  | succ excess ih =>
    simp only [evictOldest, wp_bind, wp_readAdapter]
    refine ⟨safe _ rfl, ?_⟩
    cases order : machine.adapter.seenDeliveryOrder with
    | nil =>
      refine wp_pure.mpr ⟨safe _ rfl, rfl, rfl, ?_⟩
      rw [List.drop_nil, ← order, ← ids]
    | cons evicted rest =>
      have forgot := unnoted ledger evicted
      simp only [wp_bind, wp_update, wp_log]
      refine ⟨safe _ rfl, ⟨safe _ rfl, safe _ forgot⟩, ?_⟩
      rw [order, List.nodup_cons] at distinct
      have without : machine.adapter.seenDeliveryIds.erase evicted = rest.toFinset := by
        rw [ids, order, List.toFinset_cons]
        exact Finset.erase_insert (by simpa using distinct.1)
      rw [← forgot]
      refine ih without distinct.2 fun after same => ?_
      exact safe after (same.trans forgot)

theorem wp_evictOldest_cut {machine : Machine} {order : List String}
    (listed : machine.adapter.seenDeliveryOrder = order)
    (ids : machine.adapter.seenDeliveryIds = order.toFinset) (distinct : order.Nodup)
    (newest : order.rtake ctx.config.policy.maxSeenDeliveryIds =
      recent ctx.config.policy.maxSeenDeliveryIds trail.tracked)
    (inbox : machine.adapter.inbox.length ≤ ctx.config.policy.maxQueueDepth)
    (disk : SeenOnDisk ctx.config.policy trail) :
    wp Trail.record (SeenOnDisk ctx.config.policy)
      (evictOldest (order.length - ctx.config.policy.maxSeenDeliveryIds))
      (fun _ t after => Seen ctx.config.policy (deliveries t) after) machine trail := by
  subst listed
  have kept : ∀ after : Trail, id after = id trail → SeenOnDisk ctx.config.policy after := by
    intro after same
    obtain rfl : after = trail := same
    exact disk
  apply (wp_evictOldest_noted id (fun _ _ => rfl) _ ids distinct kept).mono
  intro _ t after _ ⟨_, same, left⟩
  obtain rfl : after = trail := same
  rw [deliveries, left]
  exact ⟨rfl, newest, inbox, disk⟩

/-- **Remembering an id** keeps the representation. -/
theorem keeps_trackDeliveryId (deliveryId : String) :
    KeepsDeliveries Trail.record (SeenOnDisk ctx.config.policy) (Seen ctx.config.policy)
      (trackDeliveryId ctx deliveryId) := by
  intro machine trail seen
  have disk : SeenOnDisk ctx.config.policy trail := seen.disk
  simp only [trackDeliveryId, record, wp_bind, wp_readAdapter]
  refine ⟨disk, ?_⟩
  split
  · next new =>
    simp only [wp_bind, wp_update, wp_log, wp_ask, wp_readAdapter]
    refine ⟨disk, ⟨disk, disk⟩, disk, disk, disk, ?_⟩
    have unseen : deliveryId ∉ machine.adapter.seenDeliveryOrder := by
      rwa [show machine.adapter.seenDeliveryIds = machine.adapter.seenDeliveryOrder.toFinset
        from seen.ids, List.mem_toFinset] at new
    have order : machine.adapter.seenDeliveryOrder =
        recent ctx.config.policy.maxSeenDeliveryIds trail.tracked := seen.order
    apply wp_evictOldest_cut
    · rfl
    · change insert deliveryId machine.adapter.seenDeliveryIds = _
      have ids : machine.adapter.seenDeliveryIds = machine.adapter.seenDeliveryOrder.toFinset :=
        seen.ids
      ext other
      rw [ids]
      simp only [Finset.mem_insert, List.mem_toFinset, List.mem_append, List.mem_singleton]
      exact or_comm
    · rw [← List.concat_eq_append]
      exact seen.nodup.concat unseen
    · change (machine.adapter.seenDeliveryOrder ++ [deliveryId]).rtake _ =
        recent _ (trail.tracked ++ [deliveryId])
      rw [order] at unseen ⊢
      exact (recent_snoc_of_not_mem unseen).symm
    · exact seen.inbox
    · exact disk
  · simp only [wp_bind, wp_update, wp_ask, wp_readAdapter]
    refine ⟨disk, disk, disk, ?_⟩
    apply wp_evictOldest_cut
    · rfl
    · exact seen.ids
    · exact seen.nodup
    · exact (rtake_of_length_le seen.length_le).trans seen.order
    · exact seen.inbox
    · exact disk

theorem seen_law :
    DeliveryLaw ctx Trail.record (SeenOnDisk ctx.config.policy) (Seen ctx.config.policy) where
  safe _ _ seen := seen.disk
  saves _ _ event seen saves := by
    cases event with
    | saved state => exact seen.save saves.2.1
    | _ => exact saves.elim
  executes _ _ event seen execution := by
    cases execution <;> exact seen
  queues v trail entry seen room := by
    refine ⟨seen.ids, seen.order, ?_, seen.disk⟩
    rw [List.length_append, List.length_singleton]
    exact room
  takes v trail entry rest seen waiting := by
    refine ⟨seen.ids, seen.order, ?_, seen.disk⟩
    have fits := seen.inbox
    rw [waiting, List.length_cons] at fits
    exact (Nat.le_succ _).trans fits
  tracks := keeps_trackDeliveryId

end Operations

/-! ### Runs -/

/-- An adapter under the configuration in force, with its trail. -/
structure TrailRun where
  ctx : ChannelContext
  machine : Machine
  trail : Trail

inductive TrailEvent where
  | completed (operation : Operation)
  /-- The operation is cut after some of its lasting events, and the state is loaded again. -/
  | crashed (operation : Operation) (events : ℕ)
  /-- An adapter starts under a configuration from a snapshot that it finds. -/
  | restored (ctx : ChannelContext) (state : PersistedChannelState)

def TrailRun.complete (s : TrailRun) (operation : Operation) : TrailRun where
  ctx := s.ctx
  machine := (perform s.ctx operation s.machine).state
  trail := (perform s.ctx operation s.machine).journal.foldl Trail.record s.trail

def TrailRun.crash (s : TrailRun) (operation : Operation) (events : ℕ) : TrailRun :=
  let trail := ((perform s.ctx operation s.machine).journal.take events).foldl Trail.record s.trail
  { ctx := s.ctx
    machine := restart s.ctx trail.disk (perform s.ctx operation s.machine).state.calls
    trail := trail.reload }

/-- The runs of adapters that start without any state, or from any snapshot. -/
def trailRuns : TransitionSystem TrailRun TrailEvent where
  init s := s.machine.adapter = .fresh ∧ s.trail = ⟨[], none⟩
  step s
    | .completed operation => some (s.complete operation)
    | .crashed operation events => some (s.crash operation events)
    | .restored ctx state =>
      some ⟨ctx, restart ctx (some state) s.machine.calls, .ofSnapshot state⟩

/-- The snapshots that an adapter starts from name no id twice, as those that adapters save. -/
def Distinct (_ : TrailRun) : TrailEvent → Prop
  | .completed _ | .crashed .. => True
  | .restored _ state => state.seenDeliveryOrder.Nodup

section Runs

variable {s : TrailRun}

theorem seen_fresh : Seen policy ⟨∅, [], []⟩ ⟨[], none⟩ where
  ids := rfl
  order := by simp [recent]
  inbox := Nat.zero_le _
  disk := fun _ _ saved => by cases saved

theorem seen_restart {ctx : ChannelContext} (disk : SeenOnDisk ctx.config.policy trail)
    (calls : ℕ) :
    Seen ctx.config.policy (deliveries (restart ctx trail.disk calls)) trail.reload := by
  cases saved : trail.saved with
  | none =>
    rw [Trail.disk, Trail.reload, saved]
    exact seen_fresh
  | some snapshot =>
    obtain ⟨state, tracked⟩ := snapshot
    have loaded := Seen.reload disk saved (state.inbox.take ctx.config.policy.maxQueueDepth)
      (List.length_take_le _ _)
    rw [Trail.disk, saved]
    exact loaded

/-- **In every state reached** the representation holds. -/
theorem seen_of_reachable (reached : trailRuns.ReachableWhen Distinct s) :
    Seen s.ctx.config.policy (deliveries s.machine) s.trail := by
  refine reached.invariant
    (fun s => Seen s.ctx.config.policy (deliveries s.machine) s.trail) ?_ ?_
  · intro s ⟨fresh, blank⟩
    rw [blank, deliveries, fresh]
    exact seen_fresh
  · intro s event t seen distinct moves
    cases event with
    | completed operation =>
      obtain rfl := Option.some_inj.mp moves
      exact (seen_law.keeps_perform operation s.machine s.trail seen).2
    | crashed operation events =>
      obtain rfl := Option.some_inj.mp moves
      exact seen_restart ((seen_law.keeps_perform operation s.machine s.trail seen).1 events) _
    | restored ctx state =>
      obtain rfl := Option.some_inj.mp moves
      exact seen_ofSnapshot distinct _ (List.length_take_le _ _)

/-- What a snapshot of an adapter leaves out when it is loaded at a time. -/
def withoutExpired (now : ℕ) (adapter : TextChannelAdapter) : TextChannelAdapter :=
  { adapter with
    rateWindows := fun senderId =>
      ((adapter.rateWindows senderId).map (pruneWindow now)).filter (· ≠ [])
    cooldownUntilMs := fun senderId => (adapter.cooldownUntilMs senderId).filter (now < ·) }

theorem applyPersistedState_snapshotState {machine : Machine}
    (seen : Seen policy (deliveries machine) trail) (now : ℕ) :
    applyPersistedState policy now machine.adapter.snapshotState =
      withoutExpired now machine.adapter := by
  have ids : machine.adapter.seenDeliveryIds = machine.adapter.seenDeliveryOrder.toFinset :=
    seen.ids
  have whole : machine.adapter.seenDeliveryOrder.drop
      (machine.adapter.seenDeliveryOrder.length - policy.maxSeenDeliveryIds) =
        machine.adapter.seenDeliveryOrder := rtake_of_length_le seen.length_le
  have fits : machine.adapter.inbox.take policy.maxQueueDepth = machine.adapter.inbox :=
    List.take_of_length_le seen.inbox
  simp only [applyPersistedState, TextChannelAdapter.snapshotState, whole, fits, ← ids]
  rfl

/-- **The representation of the seen deliveries.** In every run of adapters that start without
any state or from any snapshot without repeated ids, under any limits, with crashes after any
event: the order is the most recent distinct ids that were tracked, without repetition and within
its limit; the set holds the same ids; the inbox is within its limit; what was saved last names
no id twice; and saving and loading loses nothing but what has expired. -/
theorem representation_of_reachable (s : TrailRun)
    (reached : trailRuns.ReachableWhen Distinct s) :
    let policy := s.ctx.config.policy
    let adapter := s.machine.adapter
    adapter.seenDeliveryOrder.Nodup ∧
      adapter.seenDeliveryIds = adapter.seenDeliveryOrder.toFinset ∧
      adapter.seenDeliveryOrder.length ≤ policy.maxSeenDeliveryIds ∧
      adapter.seenDeliveryOrder = recent policy.maxSeenDeliveryIds s.trail.tracked ∧
      adapter.inbox.length ≤ policy.maxQueueDepth ∧
      (∀ state ∈ s.trail.disk, state.seenDeliveryOrder.Nodup) ∧
      ∀ now, applyPersistedState policy now adapter.snapshotState = withoutExpired now adapter := by
  have seen := seen_of_reachable reached
  refine ⟨seen.nodup, seen.ids, seen.length_le, seen.order, seen.inbox, ?_,
    applyPersistedState_snapshotState seen⟩
  intro state onDisk
  obtain ⟨⟨_, tracked⟩, saved, rfl⟩ := Option.map_eq_some_iff.mp onDisk
  exact (seen.disk _ tracked saved).1

end Runs

/-! ### Two starts -/

instance (s : TrailRun) (event : TrailEvent) : Decidable (Distinct s event) :=
  match event with
  | .completed _ | .crashed .. => .isTrue trivial
  | .restored _ state => inferInstanceAs (Decidable state.seenDeliveryOrder.Nodup)

/-- A snapshot with these seen ids and nothing else. -/
def snapshotOf (seenDeliveryOrder : List String) : PersistedChannelState :=
  { TextChannelAdapter.fresh.snapshotState with seenDeliveryOrder }

def quietContext : ChannelContext := openContext [] fun _ => .ok ()

def blankRun : TrailRun := ⟨quietContext, ⟨.fresh, 0⟩, ⟨[], none⟩⟩

theorem blankRun_starts : trailRuns.init blankRun := ⟨rfl, rfl⟩

/-- A message, then a crash in the next one, then a start from another snapshot. -/
theorem representation_after_restore : ∃ s : TrailRun,
    s.machine.adapter.seenDeliveryOrder = ["d-4", "d-5"] ∧
      s.machine.adapter.seenDeliveryOrder.Nodup := by
  have ran : (trailRuns.run? Distinct blankRun
      [.completed (.ingest (plainEnvelope "d-1" "hello")),
        .crashed (.ingest (plainEnvelope "d-2" "hello again")) 3,
        .restored quietContext (snapshotOf ["d-4"]),
        .completed (.ingest (plainEnvelope "d-5" "still here"))]).map
          (·.machine.adapter.seenDeliveryOrder) = some ["d-4", "d-5"] := by
    decide +kernel
  obtain ⟨s, reached, order⟩ := exists_of_run? (.init blankRun_starts) ran
  exact ⟨s, order, (representation_of_reachable s reached).1⟩

/-- Loading a snapshot a while later does not bring back the window of a sender, and a snapshot
with a repeated id is loaded with the repetition. -/
theorem stale_window_not_restored :
    (∃ s, trailRuns.Reachable s ∧ ∃ now, s.ctx.surroundings.nowMs s.machine.calls ≤ now ∧
      applyPersistedState s.ctx.config.policy now s.machine.adapter.snapshotState ≠
        s.machine.adapter) ∧
    ∃ s, trailRuns.Reachable s ∧ ¬ s.machine.adapter.seenDeliveryOrder.Nodup := by
  constructor
  · have ran : (trailRuns.run? (fun _ _ => True) blankRun
        [.completed (.ingest (plainEnvelope "d-1" "hello"))]).map (fun s =>
          (decide (s.ctx.surroundings.nowMs s.machine.calls ≤ 100000),
            s.machine.adapter.rateWindows "user-1",
            (applyPersistedState s.ctx.config.policy 100000
              s.machine.adapter.snapshotState).rateWindows "user-1")) =
          some (true, some [1000], none) := by
      decide +kernel
    obtain ⟨s, reached, seen⟩ := exists_of_run? (.init blankRun_starts) ran
    obtain ⟨later, present, loaded⟩ := by simpa only [Prod.mk.injEq] using seen
    refine ⟨s, reached, 100000, of_decide_eq_true later, fun same => ?_⟩
    rw [same, present] at loaded
    cases loaded
  · have ran : (trailRuns.run? (fun _ _ => True) blankRun
        [.restored quietContext (snapshotOf ["d-1", "d-1"])]).map
          (·.machine.adapter.seenDeliveryOrder) = some ["d-1", "d-1"] := by
      decide +kernel
    obtain ⟨s, reached, order⟩ := exists_of_run? (.init blankRun_starts) ran
    refine ⟨s, reached, ?_⟩
    rw [order]
    decide

end KelvinClaw.Channel
