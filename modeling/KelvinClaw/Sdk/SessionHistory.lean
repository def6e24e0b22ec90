import KelvinClaw.Library.WriteBehind
import KelvinClaw.Sdk.SessionStore

/-!
# Session histories in memory and on disk

`append_message` and `clear_history` change a history under the lock of the store and take a
snapshot of it there, but write the snapshot after they released the lock. Any number of calls
interleave between the two, so a snapshot may be written over a newer one.
-/

namespace KelvinClaw.Sdk

open KelvinClaw.Core Systems Systems.TransitionSystem

variable {ι : Type}

/-! ### Calls -/

inductive StoreCall where
  | append (sessionId : String) (message : SessionMessage)
  | clear (sessionId : String)
  deriving DecidableEq, Repr

def StoreCall.sessionId : StoreCall → String
  | .append sessionId _ | .clear sessionId => sessionId

def StoreCall.underLock (persistence : SessionPersistence) (store : FileBackedSessionStore) :
    StoreCall → List SessionMessage × FileBackedSessionStore
  | .append sessionId message => store.appendMessage persistence sessionId message
  | .clear sessionId => store.clearHistory sessionId

def SessionStorage.succeeds (storage : SessionStorage) : Bool :=
  storage.createDirError.isNone && storage.writeError.isNone

/-- The store, the files, and the snapshot each call has taken and not yet written. The history
variables count the changes of each session and tell which of them is on disk. -/
structure HistoryState (ι : Type) where
  store : FileBackedSessionStore
  files : SessionFiles
  version : String → ℕ
  written : String → ℕ
  pending : ι → Option (WriteBehind.Pending String (List SessionMessage))

inductive HistoryEvent (ι : Type) where
  | change (client : ι) (call : StoreCall)
  | persist (client : ι) (storage : SessionStorage)

section System

variable [DecidableEq ι] (persistence : SessionPersistence)

namespace HistoryState

variable (s : HistoryState ι) (client : ι)

def load (ι : Type) (entries : List String) (files : SessionFiles) : HistoryState ι :=
  let loaded := persistence.loadSessionData entries files
  ⟨.ofLoaded loaded, loaded.files, fun _ => 0, fun _ => 0, fun _ => none⟩

def change (call : StoreCall) : HistoryState ι :=
  { s with
    store := (call.underLock persistence s.store).2
    version := Function.update s.version call.sessionId (s.version call.sessionId + 1)
    pending := Function.update s.pending client
      (some ⟨call.sessionId, s.version call.sessionId + 1,
        (call.underLock persistence s.store).1⟩) }

def persist (storage : SessionStorage)
    (p : WriteBehind.Pending String (List SessionMessage)) : HistoryState ι :=
  { s with
    files := (persistence.persistSessionMessages storage s.files p.key p.snapshot).2
    written :=
      if storage.succeeds then Function.update s.written p.key p.version else s.written
    pending := Function.update s.pending client none }

end HistoryState

/-- The calls of any number of clients on a store that was loaded from disk. -/
def sessionHistories : TransitionSystem (HistoryState ι) (HistoryEvent ι) where
  init s := ∃ entries files, Lists entries files ∧ WellNamed persistence files ∧
    s = .load persistence ι entries files
  step s event :=
    match event with
    | .change client call =>
      match s.pending client with
      | some _ => none
      | none => some (s.change persistence client call)
    | .persist client storage => (s.pending client).map (s.persist persistence client storage)

/-! ### Order -/

def SessionFiles.descriptorAt (files : SessionFiles) (name : String) : Option SessionDescriptor :=
  ((files name).bind SessionDir.descriptor).join

/-- The directory of the session holds its descriptor, as `upsert_session` wrote it. -/
def Registered (files : SessionFiles) (sessionId : String) : Prop :=
  (files.descriptorAt (persistence.keyHex sessionId)).map SessionDescriptor.sessionId =
    some sessionId

def Owns (files : SessionFiles) (sessionId : String) : Prop :=
  ∀ descriptor ∈ files.descriptorAt (persistence.keyHex sessionId),
    descriptor.sessionId = sessionId

/-- Messages are appended to registered sessions, no snapshot is written over a newer one, and
a write fails only for a snapshot that is superseded. -/
def Orderly (s : HistoryState ι) : HistoryEvent ι → Prop
  | .change _ (.append sessionId _) => Registered persistence s.files sessionId
  | .change _ (.clear sessionId) => Owns persistence s.files sessionId
  | .persist client storage => ∀ p ∈ s.pending client,
    if storage.succeeds then s.written p.key ≤ p.version else p.version < s.version p.key

instance (s : HistoryState ι) : ∀ event, Decidable (Orderly persistence s event)
  | .change _ (.append sessionId _) => inferInstanceAs (Decidable
      ((s.files.descriptorAt (persistence.keyHex sessionId)).map SessionDescriptor.sessionId =
        some sessionId))
  | .change _ (.clear sessionId) => inferInstanceAs (Decidable
      (∀ descriptor ∈ s.files.descriptorAt (persistence.keyHex sessionId),
        descriptor.sessionId = sessionId))
  | .persist client storage => inferInstanceAs (Decidable (∀ p ∈ s.pending client,
      if storage.succeeds then s.written p.key ≤ p.version else p.version < s.version p.key))

end System

/-! ### Writing a snapshot -/

section Files

variable {persistence : SessionPersistence} {storage : SessionStorage} {files : SessionFiles}
  {sessionId : String} {messages : List SessionMessage}

theorem historyOf_of_unregistered {dir : SessionDir}
    (unregistered : dir.descriptor.join.map SessionDescriptor.sessionId ≠ some sessionId) :
    dir.historyOf sessionId = [] := by
  obtain ⟨descriptor, lines⟩ := dir
  match descriptor with
  | none | some none => rfl
  | some (some descriptor) =>
    apply historyOf_of_other
    rintro rfl
    exact unregistered rfl

theorem historyOf_of_registered {dir : SessionDir} {lines : List MessagesLine}
    (registered : dir.descriptor.join.map SessionDescriptor.sessionId = some sessionId) :
    SessionDir.historyOf { dir with messages := some lines } sessionId =
      (readMessagesFile lines).getD [] := by
  obtain ⟨descriptor, present, rfl⟩ := Option.map_eq_some_iff.mp registered
  have stored : dir.descriptor = some (some descriptor) := Option.join_eq_some_iff.mp present
  simp [SessionDir.historyOf, stored]

theorem descriptor_openDir (name : String) :
    (files.openDir name).descriptor.join = files.descriptorAt name := by
  unfold SessionFiles.openDir SessionFiles.descriptorAt
  cases files name <;> rfl

theorem storedHistory_of_unregistered (unregistered : ¬ Registered persistence files sessionId) :
    storedHistory persistence files sessionId = [] := by
  unfold storedHistory
  split
  · rename_i dir found
    apply historyOf_of_unregistered
    intro registered
    apply unregistered
    rwa [Registered, SessionFiles.descriptorAt, found]
  · rfl

theorem descriptorAt_persist (name : String) :
    (persistence.persistSessionMessages storage files sessionId messages).2.descriptorAt name =
      files.descriptorAt name := by
  have kept : ∀ opened lines, SessionFiles.descriptorAt (Function.update files opened
      (some ⟨(files.openDir opened).descriptor, lines⟩)) name = files.descriptorAt name := by
    intro opened lines
    by_cases here : name = opened
    · subst here
      simpa [SessionFiles.descriptorAt] using descriptor_openDir name
    · simp [SessionFiles.descriptorAt, here]
  unfold SessionPersistence.persistSessionMessages
  split
  · rfl
  · split
    · rfl
    · exact kept _ _
    · exact kept _ _

theorem storedHistory_persist_of_fails (fails : storage.succeeds = false) :
    storedHistory persistence
        (persistence.persistSessionMessages storage files sessionId messages).2 =
      storedHistory persistence files := by
  funext other
  unfold SessionPersistence.persistSessionMessages
  split
  · rfl
  · rename_i name found
    split
    · rfl
    · -- the directory may have been created, and is empty then
      by_cases here : persistence.keyHex other = name
      · simp only [storedHistory, here, Function.update_self, SessionFiles.openDir]
        cases files name <;> rfl
      · simp [storedHistory, here]
    · rename_i created written
      simp [SessionStorage.succeeds, created, written] at fails

theorem storedHistory_persist (configured : persistence.stateDir.isSome)
    (succeeds : storage.succeeds) (owns : Owns persistence files sessionId)
    (registered : messages ≠ [] → Registered persistence files sessionId) :
    storedHistory persistence
        (persistence.persistSessionMessages storage files sessionId messages).2 =
      Function.update (storedHistory persistence files) sessionId messages := by
  obtain ⟨root, configured⟩ := Option.isSome_iff_exists.mp configured
  obtain ⟨created, written⟩ : storage.createDirError = none ∧ storage.writeError = none := by
    simpa [SessionStorage.succeeds] using succeeds
  funext other
  simp only [SessionPersistence.persistSessionMessages, SessionPersistence.sessionDirFor,
    configured, Option.map_some, created, written]
  by_cases same : other = sessionId
  · subst same
    rw [Function.update_self]
    simp only [storedHistory, Function.update_self]
    by_cases empty : messages = []
    · subst empty
      by_cases registered : Registered persistence files other
      · rw [historyOf_of_registered (by rwa [descriptor_openDir])]
        rfl
      · exact historyOf_of_unregistered (by rwa [descriptor_openDir])
    · rw [historyOf_of_registered (by rw [descriptor_openDir]; exact registered empty)]
      simp
  · rw [Function.update_of_ne same]
    by_cases here : persistence.keyHex other = persistence.keyHex sessionId
    · -- the directory is the session's own, so it has no history for the other one
      have unregistered : (files.descriptorAt (persistence.keyHex sessionId)).map
          SessionDescriptor.sessionId ≠ some other := by
        intro registered
        obtain ⟨descriptor, present, rfl⟩ := Option.map_eq_some_iff.mp registered
        exact same (owns descriptor present)
      rw [show storedHistory persistence files other = [] from
        storedHistory_of_unregistered (by rwa [Registered, here])]
      simp only [storedHistory, here, Function.update_self]
      exact historyOf_of_unregistered (by rwa [descriptor_openDir])
    · simp [storedHistory, here]

end Files

/-! ### Refinement -/

section Refinement

variable (persistence : SessionPersistence)

def HistoryState.toWriteBehind (s : HistoryState ι) :
    WriteBehind.State ι String (List SessionMessage) :=
  ⟨s.store.history, storedHistory persistence s.files, s.version, s.written, s.pending⟩

/-- A write under way is of a session that owns its directory, and clears the history unless
the session is registered. -/
def PendingOwned (s : HistoryState ι) : Prop :=
  ∀ client, ∀ p ∈ s.pending client, Owns persistence s.files p.key ∧
    (p.snapshot ≠ [] → Registered persistence s.files p.key)

variable [DecidableEq ι] {persistence} {s t : HistoryState ι}

def HistoryEvent.toMove (persistence : SessionPersistence) (s : HistoryState ι) :
    HistoryEvent ι → WriteBehind.Move ι String (List SessionMessage)
  | .change client call =>
    .change client call.sessionId (call.underLock persistence s.store).1
  | .persist client storage => .write client storage.succeeds

theorem history_update (store : FileBackedSessionStore) (sessionId : String)
    (messages : Option (List SessionMessage)) :
    FileBackedSessionStore.history
        { store with messages := Function.update store.messages sessionId messages } =
      Function.update store.history sessionId (messages.getD []) := by
  funext other
  by_cases same : other = sessionId
  · simp [FileBackedSessionStore.history, same]
  · simp [FileBackedSessionStore.history, same]

theorem history_underLock (store : FileBackedSessionStore) (call : StoreCall) :
    (call.underLock persistence store).2.history =
      Function.update store.history call.sessionId (call.underLock persistence store).1 := by
  cases call with
  | append called message => exact history_update store called (some _)
  | clear called => exact history_update store called none

theorem change_of_step {client : ι} {call : StoreCall}
    (moves : (sessionHistories persistence).step s (.change client call) = some t) :
    s.pending client = none ∧ t = s.change persistence client call := by
  simp only [sessionHistories] at moves
  split at moves
  · cases moves
  · next idle => exact ⟨idle, (Option.some_inj.mp moves).symm⟩

theorem persist_of_step {client : ι} {storage : SessionStorage}
    (moves : (sessionHistories persistence).step s (.persist client storage) = some t) :
    ∃ p, s.pending client = some p ∧ t = s.persist persistence client storage p := by
  obtain ⟨p, held, rfl⟩ := Option.map_eq_some_iff.mp moves
  exact ⟨p, held, rfl⟩

theorem owns_of_registered {files : SessionFiles} {sessionId : String}
    (registered : Registered persistence files sessionId) :
    Owns persistence files sessionId := by
  intro descriptor present
  rw [Registered, Option.mem_def.mp present] at registered
  exact Option.some_inj.mp registered

theorem owns_congr {files files' : SessionFiles} {sessionId : String}
    (same : ∀ name, files'.descriptorAt name = files.descriptorAt name) :
    (Owns persistence files' sessionId ↔ Owns persistence files sessionId) ∧
      (Registered persistence files' sessionId ↔ Registered persistence files sessionId) := by
  simp [Owns, Registered, same]

omit [DecidableEq ι] in
theorem owned_of_orderly {client : ι} {call : StoreCall}
    (orderly : Orderly persistence s (.change client call)) :
    Owns persistence s.files call.sessionId ∧
      ((call.underLock persistence s.store).1 ≠ [] →
        Registered persistence s.files call.sessionId) := by
  cases call with
  | append sessionId message => exact ⟨owns_of_registered orderly, fun _ => orderly⟩
  | clear sessionId => exact ⟨orderly, fun nonempty => absurd rfl nonempty⟩

theorem pendingOwned_step {event : HistoryEvent ι} (owned : PendingOwned persistence s)
    (orderly : Orderly persistence s event)
    (moves : (sessionHistories persistence).step s event = some t) :
    PendingOwned persistence t := by
  cases event with
  | change client call =>
    obtain ⟨-, rfl⟩ := change_of_step moves
    intro other p held
    by_cases mine : other = client
    · subst mine
      obtain rfl : _ = p := by simpa [HistoryState.change] using held
      exact owned_of_orderly orderly
    · exact owned other p (by simpa [HistoryState.change, mine] using held)
  | persist client storage =>
    obtain ⟨q, -, rfl⟩ := persist_of_step moves
    intro other p held
    have before : p ∈ s.pending other := WriteBehind.pending_of_dropped client held
    have same : ∀ name, (s.persist persistence client storage q).files.descriptorAt name =
        s.files.descriptorAt name := fun _ => descriptorAt_persist _
    rw [(owns_congr same).1, (owns_congr same).2]
    exact owned other p before

/-- **Refinement.** An orderly step is an ordered step of values that are written behind. -/
theorem step_toWriteBehind {event : HistoryEvent ι} (configured : persistence.stateDir.isSome)
    (owned : PendingOwned persistence s) (orderly : Orderly persistence s event)
    (moves : (sessionHistories persistence).step s event = some t) :
    WriteBehind.step (s.toWriteBehind persistence) (event.toMove persistence s) =
        some (t.toWriteBehind persistence) ∧
      WriteBehind.InOrder (s.toWriteBehind persistence) (event.toMove persistence s) := by
  cases event with
  | change client call =>
    obtain ⟨idle, rfl⟩ := change_of_step moves
    constructor
    · simp only [WriteBehind.step, HistoryEvent.toMove, HistoryState.toWriteBehind, idle,
        WriteBehind.State.change, HistoryState.change, history_underLock]
    · trivial
  | persist client storage =>
    obtain ⟨p, held, rfl⟩ := persist_of_step moves
    obtain ⟨owns, registered⟩ := owned client p held
    have ordered := orderly p held
    cases succeeds : storage.succeeds with
    | true =>
      rw [if_pos succeeds] at ordered
      constructor
      · simp only [WriteBehind.step, HistoryEvent.toMove, HistoryState.toWriteBehind, held,
          WriteBehind.State.write, HistoryState.persist, succeeds, Option.map_some, if_true,
          storedHistory_persist configured succeeds owns registered]
      · simp only [HistoryEvent.toMove, succeeds]
        intro q heldToo
        obtain rfl := Option.some_inj.mp (held.symm.trans heldToo)
        exact ordered
    | false =>
      rw [if_neg (by simp [succeeds])] at ordered
      constructor
      · simp only [WriteBehind.step, HistoryEvent.toMove, HistoryState.toWriteBehind, held,
          WriteBehind.State.drop, HistoryState.persist, succeeds, Option.map_some,
          storedHistory_persist_of_fails succeeds]
        rfl
      · simp only [HistoryEvent.toMove, succeeds]
        intro q heldToo
        obtain rfl := Option.some_inj.mp (held.symm.trans heldToo)
        exact ordered

theorem wellNamed_of_descriptorAt {files files' : SessionFiles}
    (same : ∀ name, files'.descriptorAt name = files.descriptorAt name)
    (wellNamed : WellNamed persistence files) : WellNamed persistence files' := by
  intro name descriptor lines found
  have present : files.descriptorAt name = some descriptor := by
    rw [← same, SessionFiles.descriptorAt, found]
    rfl
  cases held : files name with
  | none => simp [SessionFiles.descriptorAt, held] at present
  | some dir =>
    obtain ⟨stored, lines'⟩ := dir
    have stored : stored = some (some descriptor) := by
      simpa [SessionFiles.descriptorAt, held, Option.join_eq_some_iff] using present
    exact wellNamed name descriptor lines' (by rw [held, stored])

theorem wellNamed_step {event : HistoryEvent ι} (wellNamed : WellNamed persistence s.files)
    (moves : (sessionHistories persistence).step s event = some t) :
    WellNamed persistence t.files := by
  cases event with
  | change client call =>
    obtain ⟨-, rfl⟩ := change_of_step moves
    exact wellNamed
  | persist client storage =>
    obtain ⟨p, -, rfl⟩ := persist_of_step moves
    exact wellNamed_of_descriptorAt (fun _ => descriptorAt_persist _) wellNamed

theorem init_toWriteBehind (configured : persistence.stateDir.isSome)
    (starts : (sessionHistories (ι := ι) persistence).init s) :
    (WriteBehind.system ι String (List SessionMessage)).init (s.toWriteBehind persistence) ∧
      PendingOwned persistence s ∧ WellNamed persistence s.files := by
  obtain ⟨entries, files, listed, wellNamed, rfl⟩ := starts
  refine ⟨⟨fun sessionId => ⟨?_, rfl⟩, fun _ => rfl⟩, nofun, wellNamed_load wellNamed⟩
  exact storedHistory_load.trans (history_load configured listed wellNamed sessionId).symm

theorem owned_of_reachable (configured : persistence.stateDir.isSome)
    (reached : (sessionHistories persistence).ReachableWhen (Orderly persistence) s) :
    PendingOwned persistence s ∧ WellNamed persistence s.files := by
  refine reached.invariant
    (fun s => PendingOwned persistence s ∧ WellNamed persistence s.files) ?_ ?_
  · exact fun s starts => (init_toWriteBehind configured starts).2
  · rintro s event t ⟨owned, wellNamed⟩ orderly moves
    exact ⟨pendingOwned_step owned orderly moves, wellNamed_step wellNamed moves⟩

theorem reachable_toWriteBehind (configured : persistence.stateDir.isSome)
    (reached : (sessionHistories persistence).ReachableWhen (Orderly persistence) s) :
    (WriteBehind.system ι String (List SessionMessage)).ReachableWhen WriteBehind.InOrder
      (s.toWriteBehind persistence) := by
  refine reached.map (HistoryState.toWriteBehind persistence) ?_ ?_
  · exact fun s starts => (init_toWriteBehind configured starts).1
  · intro s event t before orderly moves
    have owned := (owned_of_reachable configured before).1
    obtain ⟨moved, ordered⟩ := step_toWriteBehind configured owned orderly moves
    exact .inr ⟨_, ordered, moved⟩

/-- **Histories on disk.** In an orderly run the disk holds the history of every session that
has no call under way, and a store loaded from it has the same messages in the same order. -/
theorem stored_eq_memory_of_orderly (persistence : SessionPersistence) (s : HistoryState ι)
    (configured : persistence.stateDir.isSome)
    (reached : (sessionHistories persistence).ReachableWhen (Orderly persistence) s)
    (sessionId : String)
    (finished : ∀ client, ∀ p ∈ s.pending client, p.key ≠ sessionId) :
    storedHistory persistence s.files sessionId = s.store.history sessionId ∧
      ∀ entries, Lists entries s.files →
        (FileBackedSessionStore.ofLoaded (persistence.loadSessionData entries s.files)).history
          sessionId = s.store.history sessionId := by
  have ordered := reachable_toWriteBehind configured reached
  have wellNamed := (owned_of_reachable configured reached).2
  have stored : storedHistory persistence s.files sessionId = s.store.history sessionId :=
    (WriteBehind.caughtUp_of_inOrder ordered).disk_eq_memory finished
  refine ⟨stored, fun entries listed => ?_⟩
  rw [history_load configured listed wellNamed, stored]

end Refinement

/-! ### Two appends -/

/-- A directory below which one session is registered. -/
def smallPersistence : SessionPersistence where
  stateDir := some "/state"
  persistRuns := true
  keyHex sessionId :=
    if sessionId = "session-a" then
      "fa57a52dbf08190218529730a3e99db6946c6c29220fb6e0551e21598b0b05db"
    else sessionId
  maxSessionHistoryMessages := 128
  compactToMessages := 64
  valid := rfl

def registeredName : String := "fa57a52dbf08190218529730a3e99db6946c6c29220fb6e0551e21598b0b05db"

def registeredFiles : SessionFiles := fun name =>
  if name = registeredName then
    some ⟨some (some ⟨"session-a", "session-a", "/work"⟩), none⟩
  else none

theorem registeredFiles_starts : (sessionHistories (ι := Bool) smallPersistence).init
    (.load smallPersistence Bool [registeredName] registeredFiles) := by
  refine ⟨[registeredName], registeredFiles, ⟨by simp, fun name => ?_⟩, ?_, rfl⟩
  · by_cases here : name = registeredName
    · simp [registeredFiles, here]
    · simp [registeredFiles, here]
  · intro name descriptor lines found
    by_cases here : name = registeredName
    · simp only [registeredFiles, here, if_true, Option.some.injEq, SessionDir.mk.injEq] at found
      obtain ⟨rfl, -⟩ := found
      exact here
    · simp [registeredFiles, here] at found

/-- Both messages are in memory before the first is written, and are written in order. -/
def orderedAppends : List (HistoryEvent Bool) :=
  [.change false (.append "session-a" (.user "first")),
    .change true (.append "session-a" (.user "second")),
    .persist false .healthy, .persist true .healthy]

/-- The snapshot with the first message alone is written last. -/
def overtakenAppends : List (HistoryEvent Bool) :=
  [.change false (.append "session-a" (.user "first")),
    .change true (.append "session-a" (.user "second")),
    .persist true .healthy, .persist false .healthy]

theorem ordered_appends_are_stored : ∃ s : HistoryState Bool,
    s.store.history "session-a" = [.user "first", .user "second"] ∧
      storedHistory smallPersistence s.files "session-a" = [.user "first", .user "second"] := by
  have ran : ((sessionHistories smallPersistence).run? (Orderly smallPersistence)
      (.load smallPersistence Bool [registeredName] registeredFiles) orderedAppends).map
      (fun s => (s.store.history "session-a", (s.pending false).isNone, (s.pending true).isNone)) =
        some ([.user "first", .user "second"], true, true) := by
    decide +kernel
  obtain ⟨s, reached, seen⟩ := exists_of_run? (.init registeredFiles_starts) ran
  simp only [Prod.mk.injEq, Option.isNone_iff_eq_none] at seen
  obtain ⟨history, idle, idle'⟩ := seen
  have finished : ∀ client, ∀ p ∈ s.pending client, p.key ≠ "session-a" := by
    intro client p held
    cases client with
    | false => simp [idle] at held
    | true => simp [idle'] at held
  have stored :=
    (stored_eq_memory_of_orderly smallPersistence s rfl reached "session-a" finished).1
  exact ⟨s, history, stored.trans history⟩

/-- Both appends succeeded, and the second message is not on disk. -/
theorem overtaken_write_loses_message :
    ¬ ∀ s : HistoryState Bool, (sessionHistories smallPersistence).Reachable s →
      (∀ client, s.pending client = none) → ∀ sessionId,
        storedHistory smallPersistence s.files sessionId = s.store.history sessionId := by
  intro stored
  have ran : ((sessionHistories smallPersistence).run? (fun _ _ => True)
      (.load smallPersistence Bool [registeredName] registeredFiles) overtakenAppends).map
      (fun s => (s.store.history "session-a", storedHistory smallPersistence s.files "session-a",
        (s.pending false).isNone, (s.pending true).isNone)) =
        some ([.user "first", .user "second"], [.user "first"], true, true) := by
    decide +kernel
  obtain ⟨s, reached, seen⟩ := exists_of_run? (.init registeredFiles_starts) ran
  simp only [Prod.mk.injEq, Option.isNone_iff_eq_none] at seen
  obtain ⟨history, disk, idle, idle'⟩ := seen
  have finished : ∀ client, s.pending client = none := by
    intro client
    cases client with
    | false => exact idle
    | true => exact idle'
  have same := stored s reached finished "session-a"
  rw [history, disk] at same
  simp at same

end KelvinClaw.Sdk
