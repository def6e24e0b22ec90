import KelvinClaw.Gateway.SubmitAgent

/-!
# The two bounded caches of the gateway

The gateway keeps its accepted requests and the authentication failures of its clients in two
caches of the same shape: a map, a queue of its keys, and the number of entries. Both change the
map and the queue by separate operations. In step they are a bounded map that evicts its oldest
key, which is how the rest of the gateway sees them.
-/

namespace KelvinClaw.Gateway

open KelvinClaw.Core Systems Systems.TransitionSystem

/-! ### Maps and queues -/

/-- The fields of `IdempotencyCache` and of `AuthFailureTracker`. -/
structure QueuedMap (κ β : Type) where
  maxEntries : ℕ
  map : κ → Option β
  order : List κ

namespace QueuedMap

variable {κ β : Type} [DecidableEq κ]

def new (maxEntries : ℕ) : QueuedMap κ β := ⟨maxEntries, fun _ => none, []⟩

def popFull (cache : QueuedMap κ β) : QueuedMap κ β :=
  if 0 < cache.maxEntries ∧ cache.maxEntries ≤ cache.order.length then
    match cache.order with
    | [] => cache
    | evicted :: rest =>
      { cache with order := rest, map := Function.update cache.map evicted none }
  else cache

def pushBack (cache : QueuedMap κ β) (key : κ) (value : β) : QueuedMap κ β :=
  { cache with
    order := cache.order ++ [key]
    map := Function.update cache.map key (some value) }

/-- `IdempotencyCache::get`. -/
def get (cache : QueuedMap κ β) (requestId : κ) : Option β := cache.map requestId

/-- `IdempotencyCache::insert`: an id that is present keeps its place in the queue. -/
def insert (cache : QueuedMap κ β) (requestId : κ) (acceptance : β) : QueuedMap κ β :=
  if (cache.map requestId).isSome then
    { cache with map := Function.update cache.map requestId (some acceptance) }
  else cache.popFull.pushBack requestId acceptance

/-- `AuthFailureTracker::touch`. -/
def touch (tracker : QueuedMap κ β) (peerIp : κ) (entry : β) : QueuedMap κ β :=
  ({ tracker with order := tracker.order.filter (· ≠ peerIp) } : QueuedMap κ β).popFull.pushBack
    peerIp entry

/-- `AuthFailureTracker::clear`. -/
def clear (tracker : QueuedMap κ β) (peerIp : κ) : QueuedMap κ β :=
  { tracker with
    map := Function.update tracker.map peerIp none
    order := tracker.order.filter (· ≠ peerIp) }

/-- `AuthFailureTracker::record_failure`. -/
def recordFailure (security : GatewaySecurityConfig) (tracker : QueuedMap κ AuthFailureEntry)
    (peerIp : κ) (now : ℕ) : QueuedMap κ AuthFailureEntry :=
  let entry := (tracker.map peerIp).getD ⟨0, 0⟩
  let removed := { tracker with map := Function.update tracker.map peerIp none }
  let failures := saturatingAdd u32Max entry.failures 1
  removed.touch peerIp
    { failures
      blockedUntilMs := (AuthFailureTracker.blockEnd security failures now).getD
        entry.blockedUntilMs }

/-- `AuthFailureTracker::backoff_remaining_ms`. -/
def backoffRemainingMs (tracker : QueuedMap κ AuthFailureEntry) (peerIp : κ) (now : ℕ) :
    Option ℕ × QueuedMap κ AuthFailureEntry :=
  match tracker.map peerIp with
  | none => (none, tracker)
  | some entry =>
    if entry.blockedUntilMs ≤ now then
      (none,
        { tracker with
          map := Function.update tracker.map peerIp (some { entry with blockedUntilMs := 0 }) })
    else (some (min (entry.blockedUntilMs - now) u64Max), tracker)

/-! ### The bounded map of a cache -/

/-- The map and the queue are those of a bounded map. -/
structure Represents (cache : QueuedMap κ β) (table : BoundedMap κ β) : Prop where
  maxEntries : cache.maxEntries = table.maxEntries
  map : cache.map = table.map
  order : cache.order = table.order

variable {cache : QueuedMap κ β} {table : BoundedMap κ β}

omit [DecidableEq κ] in
theorem represents_new (maxEntries : ℕ) :
    (new maxEntries : QueuedMap κ β).Represents (.empty maxEntries) :=
  ⟨rfl, rfl, rfl⟩

theorem represents_popFull (represents : cache.Represents table) :
    cache.popFull.Represents table.makeRoom := by
  unfold popFull BoundedMap.makeRoom BoundedMap.oldest
  rw [represents.maxEntries, represents.order]
  split_ifs with full
  · cases listed : table.order with
    | nil => exact represents
    | cons evicted rest =>
      change Represents
        { cache with
          maxEntries := table.maxEntries
          order := rest
          map := Function.update cache.map evicted none } (table.erase evicted)
      refine ⟨rfl, ?_, ?_⟩
      · simp only [BoundedMap.erase, represents.map]
      · simp only [BoundedMap.erase, listed, List.erase_cons_head]
  · exact represents

theorem represents_pushBack {key : κ} (absent : table.map key = none)
    (represents : cache.Represents table.makeRoom) (value : β) :
    (cache.pushBack key value).Represents (table.put key value) := by
  have new : ¬ (table.map key).isSome := by simp [absent]
  have kept : table.makeRoom.maxEntries = table.maxEntries := by
    unfold BoundedMap.makeRoom
    split <;> rfl
  rw [BoundedMap.put, dif_neg new]
  refine ⟨represents.maxEntries.trans kept, ?_, ?_⟩
  · simp only [pushBack, represents.map]
  · simp only [pushBack, represents.order]

theorem represents_update {key : κ} (present : (table.map key).isSome)
    (represents : cache.Represents table) (value : β) :
    ({ cache with map := Function.update cache.map key (some value) } :
      QueuedMap κ β).Represents (table.put key value) := by
  rw [BoundedMap.put, dif_pos present]
  refine ⟨represents.maxEntries, ?_, represents.order⟩
  simp only [represents.map]

theorem represents_insert (represents : cache.Represents table) (requestId : κ)
    (acceptance : β) :
    (cache.insert requestId acceptance).Represents (table.put requestId acceptance) := by
  unfold insert
  rw [represents.map]
  split_ifs with present
  · have updated := represents_update present represents acceptance
    rwa [represents.map] at updated
  · exact represents_pushBack (Option.not_isSome_iff_eq_none.mp present)
      (represents_popFull represents) acceptance

theorem represents_clear (represents : cache.Represents table) (peerIp : κ) :
    (cache.clear peerIp).Represents (table.erase peerIp) := by
  refine ⟨represents.maxEntries, ?_, ?_⟩
  · simp only [clear, BoundedMap.erase, represents.map]
  · simp only [clear, BoundedMap.erase, represents.order, table.nodup.erase_eq_filter]
    apply List.filter_congr
    intro other _
    rw [Bool.eq_iff_iff, decide_eq_true_iff, bne_iff_ne]

section Tracker

variable {tracker : QueuedMap κ AuthFailureEntry} {failures : AuthFailureTracker κ}

/-- A failure leaves the map without the address until it is put in again. -/
theorem represents_recordFailure (security : GatewaySecurityConfig)
    (represents : tracker.Represents failures) (peerIp : κ) (now : ℕ) :
    (tracker.recordFailure security peerIp now).Represents
      (AuthFailureTracker.recordFailure security failures peerIp now) := by
  have cleared := represents_clear represents peerIp
  have absent : (failures.erase peerIp).map peerIp = none := by
    rw [BoundedMap.map_erase, if_pos rfl]
  have touched := represents_pushBack absent (represents_popFull cleared)
    { failures := saturatingAdd u32Max (failures.entryOf peerIp).failures 1
      blockedUntilMs := (AuthFailureTracker.blockEnd security
        (saturatingAdd u32Max (failures.entryOf peerIp).failures 1) now).getD
          (failures.entryOf peerIp).blockedUntilMs }
  have entry : (tracker.map peerIp).getD ⟨0, 0⟩ = failures.entryOf peerIp := by
    rw [represents.map]
    rfl
  unfold recordFailure
  rw [entry]
  exact touched

theorem represents_backoffRemainingMs (represents : tracker.Represents failures) (peerIp : κ)
    (now : ℕ) :
    (tracker.backoffRemainingMs peerIp now).2.Represents
      (failures.backoffRemainingMs peerIp now).2 := by
  unfold backoffRemainingMs AuthFailureTracker.backoffRemainingMs
  rw [represents.map]
  cases found : failures.map peerIp with
  | none => exact represents
  | some entry =>
    have present : (failures.map peerIp).isSome := by simp [found]
    dsimp only
    split_ifs
    · have updated := represents_update present represents { entry with blockedUntilMs := 0 }
      rwa [represents.map] at updated
    · exact represents

end Tracker

end QueuedMap

/-! ### Caches in step -/

/-- The map and the queue agree: the keys of the map are those in the queue, none of them
twice, and no more than allowed when their number is limited. -/
structure QueuedMap.Coherent {κ β : Type} (cache : QueuedMap κ β) : Prop where
  keys : ∀ key, (cache.map key).isSome ↔ key ∈ cache.order
  nodup : cache.order.Nodup
  bounded : 0 < cache.maxEntries → cache.order.length ≤ cache.maxEntries

/-- The key is in a full cache, and came in before all others there. -/
structure QueuedMap.IsOldest {κ β : Type} (cache : QueuedMap κ β) (cameIn : κ → ℕ) (key : κ) :
    Prop where
  limited : 0 < cache.maxEntries
  full : cache.maxEntries ≤ cache.order.length
  present : key ∈ cache.order
  oldest : ∀ other ∈ cache.order, other ≠ key → cameIn key < cameIn other

section InStep

variable {κ β : Type} [DecidableEq κ]

/-- The cache is a bounded map, within its bound, whose keys came in at these operations. -/
structure InStep (cache : QueuedMap κ β) (table : BoundedMap κ β) (cameIn : κ → ℕ)
    (operations : ℕ) : Prop where
  represents : cache.Represents table
  bounded : 0 < table.maxEntries → table.order.length ≤ table.maxEntries
  aged : table.Aged cameIn operations

variable {cache : QueuedMap κ β} {table : BoundedMap κ β} {cameIn : κ → ℕ} {operations : ℕ}

omit [DecidableEq κ] in
theorem inStep_new (maxEntries : ℕ) (cameIn : κ → ℕ) (operations : ℕ) :
    InStep (.new maxEntries : QueuedMap κ β) (.empty maxEntries) cameIn operations where
  represents := QueuedMap.represents_new maxEntries
  bounded := fun _ => Nat.zero_le _
  aged := ⟨List.Pairwise.nil, fun _ present => by cases present⟩

omit [DecidableEq κ] in
theorem InStep.coherent (inStep : InStep cache table cameIn operations) : cache.Coherent where
  keys := by
    intro key
    rw [inStep.represents.map, inStep.represents.order, table.mem_order]
  nodup := by
    rw [inStep.represents.order]
    exact table.nodup
  bounded := by
    rw [inStep.represents.maxEntries, inStep.represents.order]
    exact inStep.bounded

omit [DecidableEq κ] in
theorem InStep.later (inStep : InStep cache table cameIn operations) :
    InStep cache table cameIn (operations + 1) :=
  ⟨inStep.represents, inStep.bounded, inStep.aged.later (Nat.le_succ _)⟩

theorem InStep.isOldest_of_put (inStep : InStep cache table cameIn operations) {key gone : κ}
    {value : β} (present : (table.map gone).isSome)
    (absent : (table.put key value).map gone = none) :
    cache.IsOldest cameIn gone := by
  rw [BoundedMap.map_put] at absent
  split_ifs at absent with same evicted
  · rw [BoundedMap.evicts] at evicted
    split_ifs at evicted
    have full := evicted
    rw [BoundedMap.oldest] at full
    split_ifs at full with long
    rw [← inStep.represents.maxEntries, ← inStep.represents.order] at long
    refine ⟨long.1, long.2, ?_, fun other listed ne => ?_⟩
    · rwa [inStep.represents.order, table.mem_order]
    · rw [inStep.represents.order, table.mem_order] at listed
      exact inStep.aged.lt_of_oldest evicted listed ne
  · rw [absent] at present
    cases present

theorem InStep.put_of_present (inStep : InStep cache table cameIn operations) {key : κ}
    (present : (table.map key).isSome) {value : β} {after : QueuedMap κ β}
    (represents : after.Represents (table.put key value)) :
    InStep after (table.put key value) cameIn (operations + 1) where
  represents := represents
  bounded := by
    intro positive
    rw [BoundedMap.maxEntries_put] at positive ⊢
    exact BoundedMap.length_order_put_le positive (inStep.bounded positive) key value
  aged := (inStep.aged.put_of_present present value).later (Nat.le_succ _)

theorem InStep.put_of_absent (inStep : InStep cache table cameIn operations) {key : κ}
    (absent : table.map key = none) {value : β} {after : QueuedMap κ β}
    (represents : after.Represents (table.put key value)) :
    InStep after (table.put key value) (Function.update cameIn key operations)
      (operations + 1) where
  represents := represents
  bounded := by
    intro positive
    rw [BoundedMap.maxEntries_put] at positive ⊢
    exact BoundedMap.length_order_put_le positive (inStep.bounded positive) key value
  aged := inStep.aged.put_of_absent absent value

theorem InStep.erase (inStep : InStep cache table cameIn operations) {key : κ}
    {after : QueuedMap κ β} (represents : after.Represents (table.erase key)) :
    InStep after (table.erase key) cameIn operations where
  represents := represents
  bounded := fun positive => (List.length_erase_le).trans (inStep.bounded positive)
  aged := inStep.aged.erase key

end InStep

/-! ### Runs -/

variable {κ : Type} [DecidableEq κ]

/-- The caches of a gateway, and beside them: the time that was read last, the number of
operations so far, the operations that put the keys where they are in the queues, and the
acceptances inserted last. -/
structure Caches (κ : Type) where
  idempotency : QueuedMap String CachedAgentAcceptance
  authFailures : QueuedMap κ AuthFailureEntry
  nowMs : ℕ
  operations : ℕ
  insertedAt : String → ℕ
  inserted : String → Option CachedAgentAcceptance
  failedAt : κ → ℕ

inductive CacheEvent (κ : Type) where
  | get (requestId : String)
  | insert (requestId : String) (acceptance : CachedAgentAcceptance)
  | backoffRemainingMs (peerIp : κ) (now : ℕ)
  | recordFailure (peerIp : κ) (now : ℕ)
  | clear (peerIp : κ)

def Caches.blockedUntilMs (s : Caches κ) (peerIp : κ) : ℕ :=
  ((s.authFailures.map peerIp).getD ⟨0, 0⟩).blockedUntilMs

def Caches.step (security : GatewaySecurityConfig) (s : Caches κ) (event : CacheEvent κ) :
    Caches κ :=
  let s' := { s with operations := s.operations + 1 }
  match event with
  | .get _ => s'
  | .insert requestId acceptance =>
    { s' with
      idempotency := s.idempotency.insert requestId acceptance
      inserted := Function.update s.inserted requestId (some acceptance)
      insertedAt :=
        if requestId ∈ s.idempotency.order then s.insertedAt
        else Function.update s.insertedAt requestId s.operations }
  | .backoffRemainingMs peerIp now =>
    { s' with authFailures := (s.authFailures.backoffRemainingMs peerIp now).2, nowMs := now }
  | .recordFailure peerIp now =>
    { s' with
      authFailures := s.authFailures.recordFailure security peerIp now
      failedAt := Function.update s.failedAt peerIp s.operations
      nowMs := now }
  | .clear peerIp => { s' with authFailures := s.authFailures.clear peerIp }

/-- The runs of the caches of a gateway, which are empty at first. -/
def gatewayCaches (security : GatewaySecurityConfig) (idempotencyEntries authEntries : ℕ) :
    TransitionSystem (Caches κ) (CacheEvent κ) where
  init s := s.idempotency = .new idempotencyEntries ∧
    s.authFailures = .new (max authEntries 32) ∧ s.inserted = fun _ => none
  step s event := some (s.step security event)

def ClockForward (s : Caches κ) : CacheEvent κ → Prop
  | .backoffRemainingMs _ now | .recordFailure _ now => s.nowMs ≤ now
  | .get _ | .insert .. | .clear _ => True

/-! ### What every operation keeps -/

def KeepsAcceptances (entries : ℕ) (s : Caches κ) : Prop :=
  ∃ table, table.maxEntries = entries ∧
    InStep s.idempotency table s.insertedAt s.operations ∧
      ∀ requestId acceptance, table.map requestId = some acceptance →
        s.inserted requestId = some acceptance

def AuthFailureEntry.failAgain (security : GatewaySecurityConfig) (entry : AuthFailureEntry)
    (now : ℕ) : AuthFailureEntry :=
  let failures := saturatingAdd u32Max entry.failures 1
  { failures
    blockedUntilMs :=
      (AuthFailureTracker.blockEnd security failures now).getD entry.blockedUntilMs }

/-- The block of an entry ends no later than one that its failures would set now. -/
structure AuthFailureEntry.Timely (security : GatewaySecurityConfig) (now : ℕ)
    (entry : AuthFailureEntry) : Prop where
  failures : entry.failures ≤ u32Max
  ends : entry.blockedUntilMs ≤
    (AuthFailureTracker.blockEnd security entry.failures now).getD 0

def KeepsFailures (security : GatewaySecurityConfig) (entries : ℕ) (s : Caches κ) : Prop :=
  ∃ table, table.maxEntries = entries ∧
    InStep s.authFailures table s.failedAt s.operations ∧
      ∀ peerIp entry, table.map peerIp = some entry → entry.Timely security s.nowMs

section Blocks

variable {security : GatewaySecurityConfig} {entry : AuthFailureEntry} {now now' : ℕ}

theorem blockEnd_mono {failures failures' : ℕ} (more : failures ≤ failures')
    (later : now ≤ now') :
    (AuthFailureTracker.blockEnd security failures now).getD 0 ≤
      (AuthFailureTracker.blockEnd security failures' now').getD 0 := by
  unfold AuthFailureTracker.blockEnd saturatingAdd
  split_ifs with reached
  · simp only [Option.getD_some]
    have multiplier : min (failures - security.authFailureThreshold + 1) u32Max ≤
        min (failures' - security.authFailureThreshold + 1) u32Max := by omega
    have total := Nat.add_le_add later
      (Nat.mul_le_mul_left security.authFailureBackoffMs multiplier)
    exact Nat.le_min.mpr ⟨(Nat.min_le_left _ _).trans total, Nat.min_le_right _ _⟩
  · omega
  · exact Nat.zero_le _
  · exact Nat.le_refl _

theorem AuthFailureEntry.Timely.later (timely : entry.Timely security now) (later : now ≤ now') :
    entry.Timely security now' :=
  ⟨timely.failures, timely.ends.trans (blockEnd_mono (Nat.le_refl _) later)⟩

theorem AuthFailureEntry.Timely.lift (timely : entry.Timely security now) :
    AuthFailureEntry.Timely security now { entry with blockedUntilMs := 0 } :=
  ⟨timely.failures, Nat.zero_le _⟩

omit [DecidableEq κ] in
theorem timely_entryOf {table : AuthFailureTracker κ}
    (timely : ∀ peerIp entry, table.map peerIp = some entry → entry.Timely security now)
    (peerIp : κ) : (table.entryOf peerIp).Timely security now := by
  cases found : table.map peerIp with
  | none =>
    rw [AuthFailureTracker.entryOf, found]
    exact ⟨Nat.zero_le _, Nat.zero_le _⟩
  | some entry =>
    rw [AuthFailureTracker.entryOf, found]
    exact timely peerIp entry found

/-- **One more failure** does not end a block earlier. -/
theorem AuthFailureEntry.Timely.failAgain (timely : entry.Timely security now)
    (later : now ≤ now') :
    (entry.failAgain security now').Timely security now' ∧
      entry.blockedUntilMs ≤ (entry.failAgain security now').blockedUntilMs := by
  have more : entry.failures ≤ saturatingAdd u32Max entry.failures 1 :=
    le_min (Nat.le_succ _) timely.failures
  have ends := timely.ends.trans (@blockEnd_mono security now now' _ _ more later)
  simp only [AuthFailureEntry.failAgain]
  cases set : AuthFailureTracker.blockEnd security (saturatingAdd u32Max entry.failures 1) now' with
  | none =>
    rw [set] at ends
    exact ⟨⟨min_le_right _ _, ends.trans (Nat.zero_le _)⟩, Nat.le_refl _⟩
  | some blockedUntil =>
    rw [set] at ends
    refine ⟨⟨min_le_right _ _, ?_⟩, ends⟩
    simp only [set]
    exact Nat.le_refl _

end Blocks

theorem isSome_backoffRemainingMs (tracker : AuthFailureTracker κ) (peerIp : κ) (now : ℕ)
    (other : κ) :
    ((tracker.backoffRemainingMs peerIp now).2.map other).isSome = (tracker.map other).isSome := by
  unfold AuthFailureTracker.backoffRemainingMs
  cases found : tracker.map peerIp with
  | none => rfl
  | some entry =>
    dsimp only
    split_ifs
    · rw [BoundedMap.map_put, BoundedMap.evicts_of_present found]
      by_cases same : other = peerIp <;> simp [same, found]
    · rfl

section Steps

variable {security : GatewaySecurityConfig} {entries : ℕ} {s : Caches κ} {event : CacheEvent κ}

theorem KeepsAcceptances.step (keeps : KeepsAcceptances entries s) (event : CacheEvent κ) :
    KeepsAcceptances entries (s.step security event) := by
  obtain ⟨table, limit, inStep, values⟩ := keeps
  cases event with
  | insert requestId acceptance =>
    have represents := QueuedMap.represents_insert inStep.represents requestId acceptance
    have listed : requestId ∈ s.idempotency.order ↔ (table.map requestId).isSome := by
      rw [inStep.represents.order, table.mem_order]
    refine ⟨table.put requestId acceptance, ?_, ?_, ?_⟩
    · rw [BoundedMap.maxEntries_put, limit]
    · simp only [Caches.step, listed]
      split_ifs with present
      · exact inStep.put_of_present present represents
      · exact inStep.put_of_absent (Option.not_isSome_iff_eq_none.mp present) represents
    · intro other value found
      simp only [Caches.step]
      rw [BoundedMap.map_put] at found
      split_ifs at found with same
      · rw [same, Function.update_self, found]
      · rw [Function.update_of_ne same]
        exact values other value found
  | get _ | backoffRemainingMs _ _ | recordFailure _ _ | clear _ =>
    exact ⟨table, limit, inStep.later, values⟩

theorem KeepsAcceptances.isOldest (keeps : KeepsAcceptances entries s) {requestId : String}
    (present : requestId ∈ s.idempotency.order)
    (absent : requestId ∉ (s.step security event).idempotency.order) :
    s.idempotency.IsOldest s.insertedAt requestId := by
  obtain ⟨table, _, inStep, _⟩ := keeps
  cases event with
  | insert other acceptance =>
    have represents := QueuedMap.represents_insert inStep.represents other acceptance
    rw [inStep.represents.order, table.mem_order] at present
    simp only [Caches.step, represents.order, BoundedMap.mem_order] at absent
    exact inStep.isOldest_of_put present (Option.not_isSome_iff_eq_none.mp absent)
  | get _ | backoffRemainingMs _ _ | recordFailure _ _ | clear _ => exact absurd present absent

omit [DecidableEq κ] in
theorem KeepsAcceptances.coherent (keeps : KeepsAcceptances entries s) :
    s.idempotency.Coherent ∧ s.idempotency.maxEntries = entries := by
  obtain ⟨table, limit, inStep, _⟩ := keeps
  exact ⟨inStep.coherent, inStep.represents.maxEntries.trans limit⟩

omit [DecidableEq κ] in
theorem KeepsFailures.coherent (keeps : KeepsFailures security entries s) :
    s.authFailures.Coherent ∧ s.authFailures.maxEntries = entries := by
  obtain ⟨table, limit, inStep, _⟩ := keeps
  exact ⟨inStep.coherent, inStep.represents.maxEntries.trans limit⟩

omit [DecidableEq κ] in
theorem KeepsAcceptances.get_insert (keeps : KeepsAcceptances entries s) {requestId : String}
    {acceptance : CachedAgentAcceptance} :
    (s.idempotency.insert requestId acceptance).get requestId = some acceptance := by
  obtain ⟨table, _, inStep, _⟩ := keeps
  have represents := QueuedMap.represents_insert inStep.represents requestId acceptance
  rw [QueuedMap.get, represents.map, BoundedMap.map_put_self]

omit [DecidableEq κ] in
theorem KeepsAcceptances.get_of_mem (keeps : KeepsAcceptances entries s) {requestId : String}
    (listed : requestId ∈ s.idempotency.order) :
    ∃ acceptance, s.inserted requestId = some acceptance ∧
      s.idempotency.get requestId = some acceptance := by
  obtain ⟨table, _, inStep, values⟩ := keeps
  rw [inStep.represents.order, table.mem_order] at listed
  obtain ⟨acceptance, found⟩ := Option.isSome_iff_exists.mp listed
  refine ⟨acceptance, values requestId acceptance found, ?_⟩
  rw [QueuedMap.get, inStep.represents.map, found]

theorem KeepsFailures.step (keeps : KeepsFailures security entries s)
    (forward : ClockForward s event) : KeepsFailures security entries (s.step security event) := by
  obtain ⟨table, limit, inStep, timely⟩ := keeps
  cases event with
  | get _ | insert _ _ => exact ⟨table, limit, inStep.later, timely⟩
  | clear peerIp =>
    have represents := QueuedMap.represents_clear inStep.represents peerIp
    refine ⟨table.erase peerIp, limit, (inStep.erase represents).later, ?_⟩
    intro other entry found
    rw [BoundedMap.map_erase] at found
    split_ifs at found
    exact timely other entry found
  | backoffRemainingMs peerIp now =>
    have represents := QueuedMap.represents_backoffRemainingMs inStep.represents peerIp now
    have kept : ∀ other entry, table.map other = some entry → entry.Timely security now :=
      fun other entry found => (timely other entry found).later forward
    refine ⟨(AuthFailureTracker.backoffRemainingMs table peerIp now).2, ?_⟩
    unfold AuthFailureTracker.backoffRemainingMs at represents ⊢
    cases found : table.map peerIp with
    | none =>
      rw [found] at represents
      exact ⟨limit, ⟨represents, inStep.later.bounded, inStep.later.aged⟩, kept⟩
    | some entry =>
      have present : (table.map peerIp).isSome := by simp [found]
      rw [found] at represents
      dsimp only at represents ⊢
      split_ifs at represents ⊢
      · refine ⟨(BoundedMap.maxEntries_put _ _ _).trans limit,
          inStep.put_of_present present represents, ?_⟩
        intro other value changed
        rw [BoundedMap.map_put] at changed
        split_ifs at changed
        · obtain rfl := Option.some_inj.mp changed
          exact (kept peerIp entry found).lift
        · exact kept other value changed
      · exact ⟨limit, ⟨represents, inStep.later.bounded, inStep.later.aged⟩, kept⟩
  | recordFailure peerIp now =>
    have represents := QueuedMap.represents_recordFailure security inStep.represents peerIp now
    have cleared := inStep.erase (QueuedMap.represents_clear inStep.represents peerIp)
    have absent : (table.erase peerIp).map peerIp = none := by
      rw [BoundedMap.map_erase, if_pos rfl]
    refine ⟨AuthFailureTracker.recordFailure security table peerIp now,
      (BoundedMap.maxEntries_put _ _ _).trans limit, cleared.put_of_absent absent represents, ?_⟩
    intro other entry found
    rw [AuthFailureTracker.recordFailure, AuthFailureTracker.touch, BoundedMap.map_put] at found
    split_ifs at found
    · obtain rfl := Option.some_inj.mp found
      exact ((timely_entryOf timely peerIp).failAgain forward).1
    · rw [BoundedMap.map_erase] at found
      split_ifs at found
      exact (timely other entry found).later forward

theorem KeepsFailures.isOldest (keeps : KeepsFailures security entries s) {peerIp : κ}
    (present : peerIp ∈ s.authFailures.order)
    (gone : (s.step security event).authFailures.map peerIp = none) :
    event = .clear peerIp ∨ s.authFailures.IsOldest s.failedAt peerIp := by
  obtain ⟨table, _, inStep, _⟩ := keeps
  have absent := gone
  rw [inStep.represents.order, table.mem_order] at present
  cases event with
  | get _ | insert _ _ =>
    rw [show table.map peerIp = none from inStep.represents.map ▸ absent] at present
    cases present
  | clear other =>
    have represents := QueuedMap.represents_clear inStep.represents other
    simp only [Caches.step, represents.map, BoundedMap.map_erase] at absent
    split_ifs at absent with same
    · exact .inl (by rw [same])
    · rw [absent] at present
      cases present
  | backoffRemainingMs other now =>
    have represents := QueuedMap.represents_backoffRemainingMs inStep.represents other now
    simp only [Caches.step, represents.map] at absent
    rw [← isSome_backoffRemainingMs table other now, absent] at present
    cases present
  | recordFailure other now =>
    have represents := QueuedMap.represents_recordFailure security inStep.represents other now
    have cleared := inStep.erase (QueuedMap.represents_clear inStep.represents other)
    simp only [Caches.step, represents.map] at absent
    have ne : peerIp ≠ other := by
      rintro rfl
      rw [AuthFailureTracker.recordFailure, AuthFailureTracker.touch,
        BoundedMap.map_put_self] at absent
      cases absent
    have remains : ((table.erase other).map peerIp).isSome := by
      rwa [BoundedMap.map_erase, if_neg ne]
    have oldest := cleared.isOldest_of_put remains absent
    -- a full queue did not list the address that failed, so that clearing it changed nothing
    have unlisted : ∀ listed ∈ s.authFailures.order, decide (listed ≠ other) = true := by
      by_contra lists
      have shorter : (s.authFailures.clear other).order.length < s.authFailures.order.length :=
        List.length_filter_lt_length_iff_exists.mpr (by simpa using lists)
      have bounded := inStep.coherent.bounded oldest.limited
      exact absurd (shorter.trans_le bounded) (Nat.not_lt.mpr oldest.full)
    have same : (s.authFailures.clear other).order = s.authFailures.order :=
      List.filter_eq_self.mpr unlisted
    refine .inr ⟨oldest.limited, ?_, ?_, ?_⟩
    · exact same ▸ oldest.full
    · exact same ▸ oldest.present
    · exact same ▸ oldest.oldest

theorem KeepsFailures.blockedUntilMs_le (keeps : KeepsFailures security entries s)
    (forward : ClockForward s event) (peerIp : κ) :
    s.blockedUntilMs peerIp ≤ (s.step security event).blockedUntilMs peerIp ∨
      (s.step security event).authFailures.map peerIp = none ∨
        ∃ now, event = .backoffRemainingMs peerIp now ∧ s.blockedUntilMs peerIp ≤ now := by
  obtain ⟨table, _, inStep, timely⟩ := keeps
  have before : s.blockedUntilMs peerIp = AuthFailureTracker.blockedUntilMs table peerIp := by
    rw [Caches.blockedUntilMs, inStep.represents.map]
    rfl
  cases event with
  | get _ | insert _ _ => exact .inl (Nat.le_refl _)
  | clear other =>
    have represents := QueuedMap.represents_clear inStep.represents other
    have after : (s.step security (.clear other)).blockedUntilMs peerIp =
        (AuthFailureTracker.clear table other).blockedUntilMs peerIp := by
      simp only [Caches.blockedUntilMs, Caches.step, represents.map]
      rfl
    rw [before, after, AuthFailureTracker.blockedUntilMs_clear]
    split_ifs with same
    · refine .inr (.inl ?_)
      simp only [Caches.step, represents.map, BoundedMap.map_erase, same, if_true]
    · exact .inl (Nat.le_refl _)
  | backoffRemainingMs other now =>
    have represents := QueuedMap.represents_backoffRemainingMs inStep.represents other now
    have after : (s.step security (.backoffRemainingMs other now)).blockedUntilMs peerIp =
        (AuthFailureTracker.backoffRemainingMs table other now).2.blockedUntilMs peerIp := by
      simp only [Caches.blockedUntilMs, Caches.step, represents.map]
      rfl
    rw [before, after, AuthFailureTracker.blockedUntilMs_backoffRemainingMs]
    split_ifs with ended
    · obtain ⟨rfl, ended⟩ := ended
      exact .inr (.inr ⟨now, rfl, ended⟩)
    · exact .inl (Nat.le_refl _)
  | recordFailure other now =>
    have represents := QueuedMap.represents_recordFailure security inStep.represents other now
    have after : (s.step security (.recordFailure other now)).blockedUntilMs peerIp =
        (AuthFailureTracker.recordFailure security table other now).blockedUntilMs peerIp := by
      simp only [Caches.blockedUntilMs, Caches.step, represents.map]
      rfl
    rw [before, after, AuthFailureTracker.blockedUntilMs_recordFailure]
    split_ifs with same gone
    · subst same
      exact .inl ((timely_entryOf timely peerIp).failAgain forward).2
    · refine .inr (.inl ?_)
      simp only [Caches.step, represents.map]
      exact gone
    · exact .inl (Nat.le_refl _)

end Steps

/-! ### Coherence -/

section Runs

variable {security : GatewaySecurityConfig} {idempotencyEntries authEntries : ℕ} {s : Caches κ}

theorem keeps_of_reachable
    (reached : (gatewayCaches security idempotencyEntries authEntries).ReachableWhen
      ClockForward s) :
    KeepsAcceptances idempotencyEntries s ∧ KeepsFailures security (max authEntries 32) s := by
  refine reached.invariant (fun s => KeepsAcceptances idempotencyEntries s ∧
    KeepsFailures security (max authEntries 32) s) ?_ ?_
  · rintro s ⟨acceptances, failures, _⟩
    refine ⟨⟨.empty idempotencyEntries, rfl, ?_, fun _ _ found => by cases found⟩,
      ⟨.empty (max authEntries 32), rfl, ?_, fun _ _ found => by cases found⟩⟩
    · rw [acceptances]
      exact inStep_new _ _ _
    · rw [failures]
      exact inStep_new _ _ _
  · intro s event t ⟨acceptances, failures⟩ forward moves
    obtain rfl := Option.some_inj.mp moves
    exact ⟨acceptances.step event, failures.step forward⟩

/-- **Coherence.** In every run of operations on the two caches of a gateway, under a clock that
does not go back: the keys of each map are those in its queue, none twice, and no more than
configured. An acceptance that is put in is found, and as long as its id is in the queue a
look-up finds the one put in last. A key that a step takes off a queue was cleared, or was the
oldest of a full cache. The block of an address does not end earlier after a step, unless its
entry was cleared or evicted, or the step was a check that found the block over. -/
theorem coherent_of_reachable (security : GatewaySecurityConfig)
    (idempotencyEntries authEntries : ℕ) (s : Caches κ)
    (reached : (gatewayCaches security idempotencyEntries authEntries).ReachableWhen
      ClockForward s) :
    (s.idempotency.Coherent ∧ s.idempotency.maxEntries = idempotencyEntries) ∧
    (s.authFailures.Coherent ∧ s.authFailures.maxEntries = max authEntries 32) ∧
    (∀ requestId acceptance, (s.step security (.insert requestId acceptance)).idempotency.get
      requestId = some acceptance) ∧
    (∀ requestId, if requestId ∈ s.idempotency.order
      then ∃ acceptance, s.inserted requestId = some acceptance ∧
        s.idempotency.get requestId = some acceptance
      else s.idempotency.get requestId = none) ∧
    ∀ event, ClockForward s event →
      (∀ requestId ∈ s.idempotency.order,
        requestId ∉ (s.step security event).idempotency.order →
          s.idempotency.IsOldest s.insertedAt requestId) ∧
      (∀ peerIp ∈ s.authFailures.order,
        peerIp ∉ (s.step security event).authFailures.order →
          event = .clear peerIp ∨ s.authFailures.IsOldest s.failedAt peerIp) ∧
      ∀ peerIp, s.blockedUntilMs peerIp ≤ (s.step security event).blockedUntilMs peerIp ∨
        (s.step security event).authFailures.map peerIp = none ∨
          ∃ now, event = .backoffRemainingMs peerIp now ∧ s.blockedUntilMs peerIp ≤ now := by
  obtain ⟨acceptances, failures⟩ := keeps_of_reachable reached
  have coherent : s.idempotency.Coherent := acceptances.coherent.1
  refine ⟨acceptances.coherent, failures.coherent, ?_, ?_, fun event forward => ⟨?_, ?_, ?_⟩⟩
  · intro requestId acceptance
    exact acceptances.get_insert
  · intro requestId
    split_ifs with listed
    · exact acceptances.get_of_mem listed
    · exact Option.not_isSome_iff_eq_none.mp (mt (coherent.keys requestId).mp listed)
  · exact fun requestId => acceptances.isOldest
  · intro peerIp present absent
    have after := (failures.step forward).coherent.1
    exact failures.isOldest present
      (Option.not_isSome_iff_eq_none.mp (mt (after.keys peerIp).mp absent))
  · exact failures.blockedUntilMs_le forward

end Runs

/-! ### An eviction, and a block that is over -/

instance (s : Caches κ) (event : CacheEvent κ) : Decidable (ClockForward s event) :=
  match event with
  | .backoffRemainingMs _ now | .recordFailure _ now => inferInstanceAs (Decidable (s.nowMs ≤ now))
  | .get _ | .insert .. | .clear _ => .isTrue trivial

def emptyCaches (idempotencyEntries authEntries : ℕ) : Caches String where
  idempotency := .new idempotencyEntries
  authFailures := .new (max authEntries 32)
  nowMs := 0
  operations := 0
  insertedAt _ := 0
  inserted _ := none
  failedAt _ := 0

theorem emptyCaches_start (security : GatewaySecurityConfig)
    (idempotencyEntries authEntries : ℕ) :
    (gatewayCaches security idempotencyEntries authEntries).init
      (emptyCaches idempotencyEntries authEntries) :=
  ⟨rfl, rfl, rfl⟩

/-- The second acceptance takes the place of the first one. -/
theorem second_acceptance_evicts_first : ∃ s : Caches String,
    s.idempotency.order = ["r-2"] ∧ s.idempotency.Coherent := by
  have ran : ((gatewayCaches .default 1 32).run? ClockForward (emptyCaches 1 32)
      [.insert "r-1" ⟨"run-1", 1000, none⟩, .recordFailure "10.0.0.1" 1001,
        .insert "r-2" ⟨"run-2", 1002, none⟩]).map (·.idempotency.order) = some ["r-2"] := by
    decide +kernel
  obtain ⟨s, reached, order⟩ := exists_of_run? (.init (emptyCaches_start _ _ _)) ran
  exact ⟨s, order, (coherent_of_reachable _ _ _ s reached).1.1⟩

/-- A check after the end of a block sets the end to zero, and the entry stays. -/
theorem expired_block_erased :
    ¬ ∀ s : Caches String, (gatewayCaches .default 2048 512).ReachableWhen ClockForward s →
      ∀ event, ClockForward s event → ∀ peerIp,
        s.blockedUntilMs peerIp ≤ (s.step .default event).blockedUntilMs peerIp ∨
          (s.step .default event).authFailures.map peerIp = none := by
  intro never
  have ran : ((gatewayCaches .default 2048 512).run? ClockForward (emptyCaches 2048 512)
      [.recordFailure "10.0.0.1" 1000, .recordFailure "10.0.0.1" 1000,
        .recordFailure "10.0.0.1" 1000]).map (fun s =>
          (decide (s.nowMs ≤ 5000), s.blockedUntilMs "10.0.0.1",
            (s.step .default (.backoffRemainingMs "10.0.0.1" 5000)).blockedUntilMs "10.0.0.1",
            ((s.step .default (.backoffRemainingMs "10.0.0.1" 5000)).authFailures.map
              "10.0.0.1").isSome)) = some (true, 2500, 0, true) := by
    decide +kernel
  obtain ⟨s, reached, seen⟩ := exists_of_run? (.init (emptyCaches_start _ _ _)) ran
  simp only [Prod.mk.injEq] at seen
  obtain ⟨forward, before, after, stays⟩ := seen
  have decreased := never s reached (.backoffRemainingMs "10.0.0.1" 5000)
    (of_decide_eq_true forward) "10.0.0.1"
  rw [before, after] at decreased
  rcases decreased with longer | gone
  · omega
  · rw [gone] at stays
    cases stays

end KelvinClaw.Gateway
