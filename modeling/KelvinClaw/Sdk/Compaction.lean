import KelvinClaw.Library.CompactedLog
import KelvinClaw.Sdk.SessionHistory

/-!
# The compaction of session histories

A session store answers appends and clears of any sessions, one after the other. The history
of a session is a compacted log of the messages appended to it since it was last cleared: the
bound and the number of messages that survive are those of the store's policy, which the
constructor of the settings has validated.
-/

namespace KelvinClaw.Sdk

open Systems KelvinClaw.Core

/-! ### The policy -/

theorem validatePersistencePolicy_eq_ok {bound keep : ℕ} :
    validatePersistencePolicy bound keep = .ok () ↔ 4 ≤ bound ∧ 2 ≤ keep ∧ keep < bound := by
  simp only [validatePersistencePolicy, bind_unit_eq_ok, refuseIf_eq_ok]
  omega

namespace SessionPersistence

variable (persistence : SessionPersistence)

def compactionPolicy : CompactionPolicy where
  bound := persistence.maxSessionHistoryMessages
  keep := persistence.compactToMessages
  keep_lt := (validatePersistencePolicy_eq_ok.mp persistence.valid).2.2

theorem compactMessages_eq (sessionId : String) (messages : List SessionMessage) :
    persistence.compactMessages sessionId messages =
      persistence.compactionPolicy.compact (persistence.compactionSummary sessionId) messages :=
  rfl

end SessionPersistence

/-! ### Calls -/

namespace FileBackedSessionStore

/-- The store that a fresh installation starts with. -/
def empty : FileBackedSessionStore := ⟨fun _ => none, fun _ => none⟩

/-- The store after a call. A failure to write the history leaves the store in memory as is. -/
def perform (persistence : SessionPersistence) (store : FileBackedSessionStore)
    (call : StoreCall) : FileBackedSessionStore :=
  (call.underLock persistence store).2

def performAll (persistence : SessionPersistence) (store : FileBackedSessionStore)
    (calls : List StoreCall) : FileBackedSessionStore :=
  calls.foldl (perform persistence) store

end FileBackedSessionStore

def sinceClear (sessionId : String) (appended : List SessionMessage) :
    StoreCall → List SessionMessage
  | .append other message => if other = sessionId then appended ++ [message] else appended
  | .clear other => if other = sessionId then [] else appended

def appendedSinceClear (sessionId : String) (calls : List StoreCall) : List SessionMessage :=
  calls.foldl (sinceClear sessionId) []

/-! ### Histories -/

section Histories

open FileBackedSessionStore

variable (persistence : SessionPersistence) (store : FileBackedSessionStore) (sessionId : String)

theorem history_appendMessage (other : String) (message : SessionMessage) :
    (store.appendMessage persistence other message).2.history sessionId =
      if other = sessionId then
        persistence.compactMessages sessionId (store.history sessionId ++ [message])
      else store.history sessionId := by
  split_ifs with same
  · subst same
    simp [appendMessage, history]
  · simp [appendMessage, history, Function.update_of_ne (Ne.symm same)]

theorem history_clearHistory (other : String) :
    (store.clearHistory other).2.history sessionId =
      if other = sessionId then [] else store.history sessionId := by
  split_ifs with same
  · subst same
    simp [clearHistory, history]
  · simp [clearHistory, history, Function.update_of_ne (Ne.symm same)]

variable {persistence store sessionId}

abbrev Holds (persistence : SessionPersistence) (sessionId : String)
    (appended history : List SessionMessage) : Prop :=
  persistence.compactionPolicy.Represents (persistence.compactionSummary sessionId)
    appended history

theorem holds_nil : Holds persistence sessionId [] [] :=
  .whole (Nat.zero_le _)

theorem Holds.perform {appended : List SessionMessage}
    (holds : Holds persistence sessionId appended (store.history sessionId)) (call : StoreCall) :
    Holds persistence sessionId (sinceClear sessionId appended call)
      ((store.perform persistence call).history sessionId) := by
  cases call with
  | append other message =>
    rw [FileBackedSessionStore.perform, StoreCall.underLock, sinceClear, history_appendMessage]
    split_ifs with same
    · rw [persistence.compactMessages_eq]
      exact CompactionPolicy.Represents.append holds message
    · exact holds
  | clear other =>
    rw [FileBackedSessionStore.perform, StoreCall.underLock, sinceClear, history_clearHistory]
    split_ifs with same
    · exact holds_nil
    · exact holds

theorem Holds.performAll {appended : List SessionMessage}
    (holds : Holds persistence sessionId appended (store.history sessionId))
    (calls : List StoreCall) :
    Holds persistence sessionId (calls.foldl (sinceClear sessionId) appended)
      ((store.performAll persistence calls).history sessionId) := by
  induction calls generalizing store appended with
  | nil => exact holds
  | cons call rest ih => exact ih (holds.perform call)

end Histories

/-- **Compaction.** After any calls, the history of a session keeps the bound, and it is the
messages appended since the session was cleared, or one summary and the newest of them, at
least as many as the policy keeps. -/
theorem history_after_calls (persistence : SessionPersistence) (calls : List StoreCall)
    (sessionId : String) :
    let history := (FileBackedSessionStore.empty.performAll persistence calls).history sessionId
    let appended := appendedSinceClear sessionId calls
    history.length ≤ persistence.maxSessionHistoryMessages ∧
      (history = appended ∨
        ∃ summarized dropped kept, appended = dropped ++ kept ∧
          persistence.compactToMessages ≤ kept.length ∧
          history = persistence.compactionSummary sessionId summarized :: kept) := by
  intro history appended
  have holds : Holds persistence sessionId appended history := holds_nil.performAll calls
  refine ⟨holds.length_le, ?_⟩
  generalize history = current at holds
  cases holds with
  | whole fits => exact Or.inl rfl
  | summarized slice dropped kept split some_dropped newest fits =>
    exact Or.inr ⟨slice, dropped, kept, split, newest, rfl⟩

end KelvinClaw.Sdk
