import KelvinClaw.Sdk.Submit

/-!
# The file-backed session store

The SDK keeps the descriptors and the message histories of the sessions in memory and on disk.
Each session has a directory, named by the hash of its id, with a descriptor file and a file
of messages, one JSON value on each line. A history that grows beyond its bound is compacted to
a summary and the newest messages.
-/

namespace KelvinClaw.Sdk

open KelvinClaw.Core

/-! ### Messages -/

structure SessionDescriptor where
  sessionId : String
  sessionKey : String
  workspaceDir : String
  deriving DecidableEq, Repr

inductive SessionRole where
  | user
  | assistant
  | tool
  | system
  deriving DecidableEq, Repr

def SessionRole.label : SessionRole → String
  | .user => "user"
  | .assistant => "assistant"
  | .tool => "tool"
  | .system => "system"

def SessionRole.ofLabel? : String → Option SessionRole
  | "user" => some .user
  | "assistant" => some .assistant
  | "tool" => some .tool
  | "system" => some .system
  | _ => none

@[simp] theorem SessionRole.ofLabel?_label (role : SessionRole) :
    ofLabel? role.label = some role := by
  cases role <;> rfl

structure SessionMessage where
  role : SessionRole
  content : String
  metadata : Value
  deriving DecidableEq, Repr

namespace SessionMessage

/-- `SessionMessage::user`. -/
def user (content : String) : SessionMessage := ⟨.user, content, .obj []⟩

/-- `SessionMessage::assistant`. -/
def assistant (content : String) : SessionMessage := ⟨.assistant, content, .obj []⟩

/-- `SessionMessage::tool`. -/
def tool (content : String) (metadata : Value) : SessionMessage := ⟨.tool, content, metadata⟩

/-- `Serialize` for `SessionMessage`. -/
def toJson (message : SessionMessage) : Value :=
  .object [("role", .str message.role.label), ("content", .str message.content),
    ("metadata", message.metadata)]

def ofFields : Option Value → Option Value → Option Value → Option SessionMessage
  | some (.str role), some (.str content), some metadata =>
    (SessionRole.ofLabel? role).map fun role => ⟨role, content, metadata⟩
  | _, _, _ => none

/-- `Deserialize` for `SessionMessage`. -/
def fromJson : Value → Option SessionMessage
  | .obj members =>
    ofFields (Value.lookup "role" members) (Value.lookup "content" members)
      (Value.lookup "metadata" members)
  | .arr [role, content, metadata] => ofFields (some role) (some content) (some metadata)
  | _ => none

@[simp] theorem fromJson_toJson (message : SessionMessage) :
    fromJson message.toJson = some message := by
  have role : ("role" : String) ≠ "metadata" ∧ ("role" : String) ≠ "content" := by decide
  have content : ("content" : String) ≠ "metadata" := by decide
  simp [toJson, fromJson, Value.object, ofFields, Value.lookup_insertMember_of_ne, role, content]

end SessionMessage

/-! ### Settings -/

def validatePersistencePolicy (maxSessionHistoryMessages compactToMessages : ℕ) :
    KelvinResult Unit := do
  refuseIf (maxSessionHistoryMessages < 4)
    (.invalidInput "max_session_history_messages must be >= 4")
  refuseIf (compactToMessages < 2) (.invalidInput "compact_to_messages must be >= 2")
  refuseIf (compactToMessages ≥ maxSessionHistoryMessages)
    (.invalidInput "compact_to_messages must be smaller than max_session_history_messages")

/-- The rest of `RuntimePersistence`, whose constructor validates the policy. -/
structure SessionPersistence extends RuntimePersistence where
  maxSessionHistoryMessages : ℕ
  compactToMessages : ℕ
  valid : validatePersistencePolicy maxSessionHistoryMessages compactToMessages = .ok ()

namespace SessionPersistence

variable (persistence : SessionPersistence)

/-- The name of a session's directory below the sessions directory. -/
def sessionDirFor (sessionId : String) : Option String :=
  persistence.stateDir.map fun _root => persistence.keyHex sessionId

/-! ### Compaction -/

/-- How many messages of each role were dropped, sorted by the text. -/
def roleParts (dropped : List SessionMessage) : List String :=
  let parts := [SessionRole.user, .assistant, .tool, .system].filterMap fun role =>
    let count := dropped.countP (·.role = role)
    let label := role.label
    if count = 0 then none else some s!"{label}:{count}"
  parts.mergeSort fun part other => decide (part ≤ other)

def compactionSummary (sessionId : String) (dropped : List SessionMessage) : SessionMessage :=
  let dropCount := dropped.length
  let parts := ",".intercalate (roleParts dropped)
  { role := .system
    content :=
      s!"history compacted for session '{sessionId}'; dropped {dropCount} messages ({parts})"
    metadata := .object [("compacted", .bool true), ("dropped_messages", .num dropCount),
      ("policy", .object [
        ("max_session_history_messages", .num persistence.maxSessionHistoryMessages),
        ("compact_to_messages", .num persistence.compactToMessages)])] }

theorem mem_roleParts_iff {dropped : List SessionMessage} {part : String} :
    part ∈ roleParts dropped ↔ ∃ message ∈ dropped,
      part = s!"{message.role.label}:{dropped.countP (·.role = message.role)}" := by
  rw [roleParts, List.mem_mergeSort, List.mem_filterMap]
  constructor
  · rintro ⟨role, -, made⟩
    dsimp only at made
    split_ifs at made with none
    obtain ⟨message, member, same⟩ := List.countP_pos_iff.mp (Nat.pos_of_ne_zero none)
    obtain rfl := of_decide_eq_true same
    exact ⟨message, member, (Option.some_inj.mp made).symm⟩
  · rintro ⟨message, member, rfl⟩
    have some : dropped.countP (·.role = message.role) ≠ 0 :=
      (List.countP_pos_iff.mpr ⟨message, member, decide_eq_true rfl⟩).ne'
    refine ⟨message.role, ?_, if_neg some⟩
    cases message.role <;> simp

theorem compactionSummary_counts (sessionId : String) (dropped : List SessionMessage) :
    (persistence.compactionSummary sessionId dropped).role = .system ∧
      (persistence.compactionSummary sessionId dropped).metadata.get "dropped_messages" =
        some (.num dropped.length) := by
  refine ⟨rfl, ?_⟩
  simp only [compactionSummary, Value.object, List.foldl_cons, List.foldl_nil, Value.get]
  rw [Value.lookup_insertMember_of_ne _ _ (by decide), Value.lookup_insertMember_self]

def compactMessages (sessionId : String) (messages : List SessionMessage) :
    List SessionMessage :=
  if messages.length ≤ persistence.maxSessionHistoryMessages then messages
  else
    persistence.compactionSummary sessionId
        (messages.take (messages.length - persistence.compactToMessages)) ::
      messages.drop (messages.length - persistence.compactToMessages)

end SessionPersistence

/-! ### Files -/

inductive MessagesLine where
  | blank
  | json (value : Value)
  | malformed
  deriving DecidableEq, Repr

/-- A session directory. A descriptor file that is no descriptor is `some none`. -/
structure SessionDir where
  descriptor : Option (Option SessionDescriptor)
  messages : Option (List MessagesLine)
  deriving DecidableEq, Repr

abbrev SessionFiles := String → Option SessionDir

/-- `read_messages_file`: blank lines are skipped, and one bad line spoils the file. -/
def readMessagesFile : List MessagesLine → Option (List SessionMessage)
  | [] => some []
  | .blank :: rest => readMessagesFile rest
  | .json value :: rest =>
    match SessionMessage.fromJson value with
    | some message => (readMessagesFile rest).map (message :: ·)
    | none => none
  | .malformed :: _ => none

/-- **Round trip.** A written history reads back. -/
@[simp] theorem readMessagesFile_map (messages : List SessionMessage) :
    readMessagesFile (messages.map fun message => .json message.toJson) = some messages := by
  induction messages with
  | nil => rfl
  | cons message rest ih => simp [readMessagesFile, ih]

/-- The outcomes of the storage steps of writing a history. -/
structure SessionStorage where
  createDirError : Option String
  writeError : Option (WriteStep × String)
  deriving DecidableEq, Repr

def SessionStorage.healthy : SessionStorage := ⟨none, none⟩

/-- What `create_dir_all` leaves of a session directory. -/
def SessionFiles.openDir (files : SessionFiles) (name : String) : SessionDir :=
  (files name).getD ⟨none, none⟩

/-- `persist_session_messages`. -/
def SessionPersistence.persistSessionMessages (persistence : SessionPersistence)
    (storage : SessionStorage) (files : SessionFiles) (sessionId : String)
    (messages : List SessionMessage) : KelvinResult Unit × SessionFiles :=
  match persistence.sessionDirFor sessionId with
  | none => (.ok (), files)
  | some name =>
    match storage.createDirError, storage.writeError with
    | some err, _ => (.error (.io s!"create session dir: {err}"), files)
    | none, some (step, err) =>
      (.error (.io s!"{step.label}: {err}"),
        Function.update files name (some (files.openDir name)))
    | none, none =>
      (.ok (), Function.update files name (some { files.openDir name with
        messages := some (messages.map fun message => .json message.toJson) }))

/-! ### Loading -/

/-- What the store has read so far, and the files without those it quarantined. -/
structure LoadedSessions where
  sessions : String → Option SessionDescriptor
  messages : String → Option (List SessionMessage)
  files : SessionFiles

def LoadedSessions.loadEntry (loaded : LoadedSessions) (name : String) : LoadedSessions :=
  match loaded.files name with
  | none | some ⟨none, _⟩ => loaded
  | some ⟨some none, messages⟩ =>
    { loaded with files := Function.update loaded.files name (some ⟨none, messages⟩) }
  | some ⟨some (some descriptor), lines⟩ =>
    let read := lines.map readMessagesFile
    { sessions := Function.update loaded.sessions descriptor.sessionId (some descriptor)
      messages := Function.update loaded.messages descriptor.sessionId
        (some ((read.getD (some [])).getD []))
      files :=
        if read = some none then
          Function.update loaded.files name (some ⟨some (some descriptor), none⟩)
        else loaded.files }

/-- `load_session_data` over the entries of the sessions directory, in the order the file
system lists them. -/
def SessionPersistence.loadSessionData (persistence : SessionPersistence)
    (entries : List String) (files : SessionFiles) : LoadedSessions :=
  if persistence.stateDir.isSome then
    entries.foldl LoadedSessions.loadEntry ⟨fun _ => none, fun _ => none, files⟩
  else ⟨fun _ => none, fun _ => none, files⟩

/-! ### The store -/

structure FileBackedSessionStore where
  sessions : String → Option SessionDescriptor
  messages : String → Option (List SessionMessage)

namespace FileBackedSessionStore

variable (persistence : SessionPersistence) (store : FileBackedSessionStore) (sessionId : String)

/-- The store that `load` starts with. -/
def ofLoaded (loaded : LoadedSessions) : FileBackedSessionStore :=
  ⟨loaded.sessions, loaded.messages⟩

def history : List SessionMessage := (store.messages sessionId).getD []

/-- The part of `append_message` under the lock, with the snapshot it takes. -/
def appendMessage (message : SessionMessage) : List SessionMessage × FileBackedSessionStore :=
  let snapshot := persistence.compactMessages sessionId (store.history sessionId ++ [message])
  (snapshot, { store with messages := Function.update store.messages sessionId (some snapshot) })

/-- The part of `clear_history` under the lock. -/
def clearHistory : List SessionMessage × FileBackedSessionStore :=
  ([], { store with messages := Function.update store.messages sessionId none })

end FileBackedSessionStore

/-! ### What the disk holds -/

def SessionDir.historyOf (dir : SessionDir) (sessionId : String) : List SessionMessage :=
  match dir with
  | ⟨some (some descriptor), some lines⟩ =>
    if descriptor.sessionId = sessionId then (readMessagesFile lines).getD [] else []
  | _ => []

def storedHistory (persistence : SessionPersistence) (files : SessionFiles) (sessionId : String) :
    List SessionMessage :=
  match files (persistence.keyHex sessionId) with
  | some dir => dir.historyOf sessionId
  | none => []

/-- Descriptors stand in the directories of their sessions, as the store writes them. -/
def WellNamed (persistence : SessionPersistence) (files : SessionFiles) : Prop :=
  ∀ name descriptor lines, files name = some ⟨some (some descriptor), lines⟩ →
    name = persistence.keyHex descriptor.sessionId

/-- A listing of the sessions directory: each directory once, in any order. -/
structure Lists (entries : List String) (files : SessionFiles) : Prop where
  nodup : entries.Nodup
  mem_iff : ∀ name, name ∈ entries ↔ (files name).isSome

section Loading

variable {persistence : SessionPersistence} {loaded : LoadedSessions} {files : SessionFiles}
  {name sessionId : String}

def LoadedSessions.history (loaded : LoadedSessions) (sessionId : String) : List SessionMessage :=
  (loaded.messages sessionId).getD []

/-- A directory that holds no readable messages file holds no history. -/
theorem historyOf_of_unreadable {descriptor : SessionDescriptor}
    {lines : Option (List MessagesLine)} (unreadable : lines.map readMessagesFile = some none) :
    SessionDir.historyOf ⟨some (some descriptor), lines⟩ sessionId = [] := by
  obtain ⟨content, rfl, unread⟩ := Option.map_eq_some_iff.mp unreadable
  simp [SessionDir.historyOf, unread]

/-- A directory holds no history for another session than its descriptor's. -/
theorem historyOf_of_other {descriptor : SessionDescriptor} {lines : Option (List MessagesLine)}
    (other : descriptor.sessionId ≠ sessionId) :
    SessionDir.historyOf ⟨some (some descriptor), lines⟩ sessionId = [] := by
  cases lines with
  | none => rfl
  | some content => simp [SessionDir.historyOf, other]

theorem storedHistory_loadEntry :
    storedHistory persistence (loaded.loadEntry name).files sessionId =
      storedHistory persistence loaded.files sessionId := by
  unfold LoadedSessions.loadEntry
  split
  · rfl
  · rfl
  · rename_i messages found
    by_cases here : persistence.keyHex sessionId = name
    · simp [storedHistory, here, found, SessionDir.historyOf]
    · simp [storedHistory, here]
  · rename_i descriptor lines found
    simp only
    split
    · rename_i unreadable
      by_cases here : persistence.keyHex sessionId = name
      · simp only [storedHistory, here, found, Function.update_self,
          historyOf_of_unreadable unreadable]
        rfl
      · simp [storedHistory, here]
    · rfl

theorem wellNamed_loadEntry (wellNamed : WellNamed persistence loaded.files) :
    WellNamed persistence (loaded.loadEntry name).files := by
  intro other descriptor lines holds
  unfold LoadedSessions.loadEntry at holds
  split at holds
  · exact wellNamed other descriptor lines holds
  · exact wellNamed other descriptor lines holds
  · by_cases here : other = name
    · simp [here] at holds
    · exact wellNamed other descriptor lines (by simpa [here] using holds)
  · rename_i found lines' present
    simp only at holds
    split at holds
    · by_cases here : other = name
      · subst here
        simp only [Function.update_self, Option.some.injEq, SessionDir.mk.injEq] at holds
        obtain ⟨rfl, -⟩ := holds
        exact wellNamed other found lines' present
      · exact wellNamed other descriptor lines (by simpa [here] using holds)
    · exact wellNamed other descriptor lines holds

theorem history_loadEntry (sessionId : String) (wellNamed : WellNamed persistence loaded.files)
    (unread : persistence.keyHex sessionId = name → loaded.history sessionId = []) :
    (loaded.loadEntry name).history sessionId =
      if persistence.keyHex sessionId = name then
        storedHistory persistence loaded.files sessionId
      else loaded.history sessionId := by
  unfold LoadedSessions.loadEntry
  split
  · rename_i absent
    split_ifs with here
    · rw [unread here, storedHistory, here, absent]
    · rfl
  · rename_i messages found
    split_ifs with here
    · rw [unread here, storedHistory, here, found]
      rfl
    · rfl
  · rename_i messages found
    split_ifs with here
    · rw [LoadedSessions.history] at unread ⊢
      rw [unread here, storedHistory, here, found]
      rfl
    · rfl
  · rename_i descriptor lines found
    have named := wellNamed name descriptor lines found
    by_cases mine : descriptor.sessionId = sessionId
    · subst mine
      rw [if_pos named.symm, storedHistory, ← named, found]
      cases lines <;> simp [LoadedSessions.history, SessionDir.historyOf]
    · simp only [LoadedSessions.history, Function.update_of_ne (Ne.symm mine)] at unread ⊢
      split_ifs with here
      · rw [unread here, storedHistory, here, found]
        exact (historyOf_of_other mine).symm
      · rfl

/-- Reading the entries one after the other adds the history of each session. -/
theorem history_foldl_loadEntry (loaded : LoadedSessions) {entries : List String}
    (once : entries.Nodup)
    (wellNamed : WellNamed persistence loaded.files)
    (unread : ∀ sessionId, persistence.keyHex sessionId ∈ entries →
      loaded.history sessionId = []) (sessionId : String) :
    (entries.foldl LoadedSessions.loadEntry loaded).history sessionId =
      if persistence.keyHex sessionId ∈ entries then
        storedHistory persistence loaded.files sessionId
      else loaded.history sessionId := by
  induction entries generalizing loaded with
  | nil => simp
  | cons name rest ih =>
    obtain ⟨notAgain, once⟩ := List.nodup_cons.mp once
    have here := fun sessionId => history_loadEntry sessionId wellNamed
      fun same => unread sessionId (same ▸ List.mem_cons_self)
    rw [List.foldl_cons, ih _ once (wellNamed_loadEntry wellNamed), storedHistory_loadEntry, here]
    · by_cases later : persistence.keyHex sessionId ∈ rest
      · simp [later]
      · simp [later]
    · intro other later
      rw [here, if_neg, unread other (List.mem_cons_of_mem _ later)]
      rintro rfl
      exact notAgain later

theorem wellNamed_foldl_loadEntry {entries : List String}
    (wellNamed : WellNamed persistence loaded.files) :
    WellNamed persistence (entries.foldl LoadedSessions.loadEntry loaded).files := by
  induction entries generalizing loaded with
  | nil => exact wellNamed
  | cons name rest ih => exact ih (wellNamed_loadEntry wellNamed)

theorem storedHistory_foldl_loadEntry {entries : List String} :
    storedHistory persistence (entries.foldl LoadedSessions.loadEntry loaded).files sessionId =
      storedHistory persistence loaded.files sessionId := by
  induction entries generalizing loaded with
  | nil => rfl
  | cons name rest ih =>
    rw [List.foldl_cons, ih]
    exact storedHistory_loadEntry

variable {entries : List String}

theorem wellNamed_load (wellNamed : WellNamed persistence files) :
    WellNamed persistence (persistence.loadSessionData entries files).files := by
  unfold SessionPersistence.loadSessionData
  split
  · apply wellNamed_foldl_loadEntry
    exact wellNamed
  · exact wellNamed

theorem storedHistory_load : storedHistory persistence
    (persistence.loadSessionData entries files).files sessionId =
      storedHistory persistence files sessionId := by
  unfold SessionPersistence.loadSessionData
  split
  · exact storedHistory_foldl_loadEntry
  · rfl

/-- **Loading.** A loaded store has the histories that the disk holds, whatever the order of
the directory. -/
theorem history_load (configured : persistence.stateDir.isSome) (listed : Lists entries files)
    (wellNamed : WellNamed persistence files) (sessionId : String) :
    (FileBackedSessionStore.ofLoaded (persistence.loadSessionData entries files)).history
      sessionId = storedHistory persistence files sessionId := by
  rw [SessionPersistence.loadSessionData, if_pos configured]
  have read := history_foldl_loadEntry ⟨fun _ => none, fun _ => none, files⟩ listed.nodup
    wellNamed (fun _ _ => rfl) sessionId
  refine read.trans ?_
  split_ifs with present
  · rfl
  · -- a session without a directory has no history in memory and none on disk
    have absent : files (persistence.keyHex sessionId) = none := by
      simpa [listed.mem_iff] using present
    simp [LoadedSessions.history, storedHistory, absent]

end Loading

end KelvinClaw.Sdk
