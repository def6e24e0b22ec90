import KelvinClaw.Sdk.SessionTools

/-!
# Isolation of session notes

The id of a session is text of a client's choice, and the session tools make a path of it
without looking at it. A call touches the entries that this path passes through and the file
it ends in. The notes of another session are safe from it exactly when their file is none of
these, and the calls stay inside the directory for notes exactly when the path ends there.

Ids without a slash give each session a file of its own in the directory. With one, an id can
spell the file of another session, or lead out of the directory.
-/

namespace KelvinClaw.Sdk

open Systems KelvinClaw.Core

namespace SessionToolsTool

variable {env : ToolEnvironment} {surroundings : CallSurroundings} {s t : String}

/-! ### What a session's calls touch -/

def notesFile (env : ToolEnvironment) (sessionId : String) : Option Location :=
  match statePath env.kelvinHome sessionId with
  | .ok path => fileAt env.workingDir path
  | .error _ => none

def passedDirectories (env : ToolEnvironment) (sessionId : String) : List Location :=
  match statePath env.kelvinHome sessionId with
  | .ok path =>
    if (components path).dropLast.any hasNul then [] else directoriesAbove env.workingDir path
  | .error _ => []

def footprint (env : ToolEnvironment) (sessionId : String) : Set Location :=
  {place | place ∈ passedDirectories env sessionId ∨ notesFile env sessionId = some place}

def InNotesDir (env : ToolEnvironment) (file : Location) : Prop :=
  ∃ home name, env.kelvinHome = .ok home ∧
    file = locate env.workingDir (notesDir home) ++ [name]

/-! ### Isolation -/

def CallsOf (sessionId : String) (calls : List (CallSurroundings × ToolCallInput)) : Prop :=
  ∀ call ∈ calls, call.2.sessionId = sessionId

/-- Calls of session `s` neither change nor read the notes of session `t`, and the files they
touch are entries of the directory for notes. -/
structure Isolated (env : ToolEnvironment) (s t : String) : Prop where
  unchanged : ∀ calls tree file, CallsOf s calls → notesFile env t = some file →
    (callAll env calls tree).state file = tree file
  unread : ∀ calls tree tree' file, CallsOf s calls → notesFile env t = some file →
    (∀ other ≠ file, tree other = tree' other) →
    (callAll env calls tree).result = (callAll env calls tree').result
  inside : ∀ calls tree, CallsOf s calls →
    ∀ access ∈ (callAll env calls tree).journal, InNotesDir env access.place

/-- The path for `s` ends in an entry of the directory for notes, and the file for `t` is
neither this entry nor on the way to it. -/
structure Separated (env : ToolEnvironment) (s t : String) : Prop where
  inside : ∀ file, notesFile env s = some file → InNotesDir env file
  apart : ∀ file, notesFile env t = some file → file ∉ footprint env s

/-! ### The footprint of a call -/

section Confinement

variable {places : Set Location}

theorem confined_makeDirectories {list : List Location} (inside : ∀ place ∈ list, place ∈ places) :
    Action.Confined places (makeDirectories surroundings list) := by
  induction list with
  | nil => exact Action.confined_pure _
  | cons place rest ih =>
    rw [List.forall_mem_cons] at inside
    apply Action.confined_bind
    · apply Action.confined_bind (Action.confined_look inside.1)
      intro held
      split
      · exact Action.confined_pure _
      · exact Action.confined_fail _
      · exact Action.confined_put inside.1 _
    · exact fun _ => ih inside.2

theorem confined_createDirAll {list : List Location} (inside : ∀ place ∈ list, place ∈ places) :
    Action.Confined places (createDirAll surroundings list) := by
  unfold createDirAll
  split
  · exact confined_makeDirectories inside
  · apply Action.confined_bind
    · exact confined_makeDirectories fun place member => inside place (List.mem_of_mem_take member)
    · exact fun _ => Action.confined_fail _

theorem confined_readState {file : Option Location} (inside : ∀ f, file = some f → f ∈ places) :
    Action.Confined places (readState surroundings file) := by
  cases file with
  | none => exact Action.confined_pure _
  | some f =>
    apply Action.confined_bind (Action.confined_log _)
    intro _
    apply Action.confined_bind (Action.confined_look (inside f rfl))
    intro held
    split
    · apply Action.confined_bind (Action.confined_log _)
      intro _
      split
      · exact Action.confined_fail _
      · exact Action.confined_pure _
      · exact Action.confined_fail _
    · exact Action.confined_pure _

theorem confined_writeState {file : Option Location} (inside : ∀ f, file = some f → f ∈ places)
    (state : List (String × Value)) :
    Action.Confined places (writeState surroundings file state) := by
  cases file with
  | none => exact Action.confined_fail _
  | some f =>
    have here := inside f rfl
    apply Action.confined_bind (Action.confined_look here)
    intro held
    split
    · exact Action.confined_fail _
    · apply Action.confined_bind (Action.confined_log _)
      exact fun _ => Action.confined_put here _
    · exact Action.confined_fail _
    · apply Action.confined_bind (Action.confined_log _)
      intro _
      apply Action.confined_bind (Action.confined_put here _)
      exact fun _ => Action.confined_fail _

end Confinement

theorem confined_call (input : ToolCallInput) :
    Action.Confined (footprint env input.sessionId) (call env surroundings input) := by
  apply Action.confined_bind (Action.confined_ofExcept _)
  intro args
  apply Action.confined_bind (Action.confined_ofExcept _)
  intro requested
  cases found : statePath env.kelvinHome input.sessionId with
  | error e => exact Action.confined_fail _
  | ok path =>
    have file : ∀ f, fileAt env.workingDir path = some f → f ∈ footprint env input.sessionId := by
      intro f ends
      right
      simpa only [notesFile, found] using ends
    simp only [Action.ofExcept_ok, Action.pure_bind]
    apply Action.confined_bind
    · unfold createParent
      split_ifs with nul
      · exact Action.confined_fail _
      · apply confined_createDirAll
        intro place passed
        left
        simpa [passedDirectories, found, nul] using passed
    · intro _
      apply Action.confined_bind (confined_readState file)
      intro state
      apply Action.confined_bind (Action.confined_ofExcept _)
      intro updated
      apply Action.confined_bind (confined_writeState file updated)
      exact fun _ => Action.confined_pure _

theorem confined_callAll {calls : List (CallSurroundings × ToolCallInput)}
    (own : CallsOf s calls) : Action.Confined (footprint env s) (callAll env calls) := by
  induction calls with
  | nil => exact Action.confined_pure _
  | cons first rest ih =>
    obtain ⟨mine, later⟩ := List.forall_mem_cons.mp own
    apply Action.confined_bind
    · exact Action.confined_attempt (mine ▸ confined_call first.2)
    · intro result
      apply Action.confined_bind (ih later)
      exact fun results => Action.confined_pure _

/-! ### The files a call touches -/

/-- The events of an action are touches of `file`. -/
abbrev Touches (file : Option Location) {α : Type} (act : FileAction α) : Prop :=
  Action.Frames (fun _ => ()) (fun _ access => file = some access.place) act

theorem touches_log {file : Option Location} {access : FileAccess}
    (here : file = some access.place) : Touches file (Action.log access) :=
  Action.frames_log fun _ => here

theorem touches_look {file : Option Location} (place : Location) :
    Touches file (Action.look place) :=
  fun _ => ⟨rfl, fun _ member => by cases member⟩

theorem touches_put {file : Option Location} (place : Location) (node : Option Node) :
    Touches file (Action.put place node) :=
  fun _ => ⟨rfl, fun _ member => by cases member⟩

theorem touches_makeDirectories (file : Option Location) (list : List Location) :
    Touches file (makeDirectories surroundings list) := by
  induction list with
  | nil => exact Action.frames_pure _
  | cons place rest ih =>
    apply Action.frames_bind
    · apply Action.frames_bind (touches_look _)
      intro held
      split
      · exact Action.frames_pure _
      · exact Action.frames_fail _
      · exact touches_put _ _
    · exact fun _ => ih

theorem touches_createParent (file : Option Location) (path : String) :
    Touches file (createParent env surroundings path) := by
  unfold createParent createDirAll
  split_ifs
  · exact Action.frames_fail _
  · split
    · exact touches_makeDirectories _ _
    · exact Action.frames_bind (touches_makeDirectories _ _) fun _ => Action.frames_fail _

theorem touches_readState (file : Option Location) :
    Touches file (readState surroundings file) := by
  cases file with
  | none => exact Action.frames_pure _
  | some f =>
    apply Action.frames_bind (touches_log rfl)
    intro _
    apply Action.frames_bind (touches_look f)
    intro held
    split
    · apply Action.frames_bind (touches_log rfl)
      intro _
      split
      · exact Action.frames_fail _
      · exact Action.frames_pure _
      · exact Action.frames_fail _
    · exact Action.frames_pure _

theorem touches_writeState (file : Option Location) (state : List (String × Value)) :
    Touches file (writeState surroundings file state) := by
  cases file with
  | none => exact Action.frames_fail _
  | some f =>
    apply Action.frames_bind (touches_look f)
    intro held
    split
    · exact Action.frames_fail _
    · exact Action.frames_bind (touches_log rfl) fun _ => touches_put f _
    · exact Action.frames_fail _
    · apply Action.frames_bind (touches_log rfl)
      intro _
      exact Action.frames_bind (touches_put f _) fun _ => Action.frames_fail _

theorem touches_call (input : ToolCallInput) :
    Touches (notesFile env input.sessionId) (call env surroundings input) := by
  apply Action.frames_bind (Action.frames_ofExcept _)
  intro args
  apply Action.frames_bind (Action.frames_ofExcept _)
  intro requested
  cases found : statePath env.kelvinHome input.sessionId with
  | error e => exact Action.frames_fail _
  | ok path =>
    have file : notesFile env input.sessionId = fileAt env.workingDir path := by
      simp only [notesFile, found]
    rw [file]
    simp only [Action.ofExcept_ok, Action.pure_bind]
    apply Action.frames_bind (touches_createParent _ _)
    intro _
    apply Action.frames_bind (touches_readState _)
    intro state
    apply Action.frames_bind (Action.frames_ofExcept _)
    intro updated
    exact Action.frames_bind (touches_writeState _ _) fun _ => Action.frames_pure _

theorem touches_callAll {calls : List (CallSurroundings × ToolCallInput)}
    (own : CallsOf s calls) : Touches (notesFile env s) (callAll env calls) := by
  induction calls with
  | nil => exact Action.frames_pure _
  | cons first rest ih =>
    obtain ⟨mine, later⟩ := List.forall_mem_cons.mp own
    apply Action.frames_bind
    · exact Action.frames_attempt (mine ▸ touches_call first.2)
    · exact fun result => Action.frames_bind (ih later) fun results => Action.frames_pure _

theorem isolated_of_separated (separated : Separated env s t) : Isolated env s t where
  unchanged := fun _calls tree file own notes =>
    (confined_callAll own).state_eq tree (separated.apart file notes)
  unread := fun _calls _tree _tree' file own notes same =>
    (confined_callAll own).agree (separated.apart file notes) same
  inside := fun _calls tree own access member =>
    separated.inside access.place ((touches_callAll own tree).2 access member)

/-! ### Calls on an empty tree -/

def withDirectories (tree : FileTree) : List Location → FileTree
  | [] => tree
  | first :: rest => withDirectories (Function.update tree first (some .directory)) rest

theorem withDirectories_of_mem {tree : FileTree} {list : List Location} {place : Location}
    (member : place ∈ list) : withDirectories tree list place = some .directory := by
  have kept : ∀ {list : List Location} {tree : FileTree}, tree place = some .directory →
      withDirectories tree list place = some .directory := by
    intro list
    induction list with
    | nil => exact id
    | cons first rest ih =>
      intro tree here
      apply ih
      by_cases same : place = first
      · rw [same, Function.update_self]
      · rwa [Function.update_of_ne same]
  induction list generalizing tree with
  | nil => cases member
  | cons first rest ih =>
    rw [withDirectories]
    rcases List.mem_cons.mp member with rfl | later
    · exact kept (Function.update_self place _ tree)
    · exact ih later

def NoFiles (tree : FileTree) : Prop := ∀ place, tree place = none ∨ tree place = some .directory

theorem NoFiles.update {tree : FileTree} (noFiles : NoFiles tree) (added : Location) :
    NoFiles (Function.update tree added (some .directory)) := by
  intro place
  by_cases here : place = added
  · rw [here, Function.update_self]
    exact Or.inr rfl
  · rw [Function.update_of_ne here]
    exact noFiles place

theorem NoFiles.withDirectories {tree : FileTree} (noFiles : NoFiles tree)
    (list : List Location) : NoFiles (withDirectories tree list) := by
  induction list generalizing tree with
  | nil => exact noFiles
  | cons first rest ih => exact ih (noFiles.update first)

theorem makeDirectories_apply {list : List Location} {tree : FileTree} (noFiles : NoFiles tree) :
    makeDirectories surroundings list tree = ⟨.ok ⟨⟩, withDirectories tree list, []⟩ := by
  induction list generalizing tree with
  | nil => rfl
  | cons first rest ih =>
    have made : makeDirectory surroundings first tree =
        ⟨.ok ⟨⟩, Function.update tree first (some .directory), []⟩ := by
      have looked : Action.look first tree =
        (⟨.ok (tree first), tree, []⟩ : Outcome FileTree FileAccess KelvinError _) := rfl
      rw [makeDirectory, Action.bind_apply_ok looked]
      rcases noFiles first with absent | directory
      · simp [absent, Action.put]
      · have same : Function.update tree first (some .directory) = tree := by
          rw [← directory, Function.update_eq_self]
        simp [directory, same, pure]
    rw [makeDirectories, Action.bind_apply_ok made, ih (noFiles.update first)]
    rfl

def listing (sessionId : String) : List (CallSurroundings × ToolCallInput) :=
  [(.healthy, { runId := "", sessionId := sessionId, workspaceDir := "", arguments := .obj [] })]

theorem callsOf_listing (sessionId : String) : CallsOf sessionId (listing sessionId) := by
  intro call member
  obtain rfl := List.mem_singleton.mp member
  rfl

def emptyTree : FileTree := fun _ => none

theorem noFiles_emptyTree : NoFiles emptyTree := fun _ => Or.inl rfl

theorem readState_apply {tree : FileTree} (noFiles : NoFiles tree) (file : Location) :
    readState surroundings (some file) tree = ⟨.ok [], tree, [.inspected file]⟩ := by
  have looked : Action.look file tree =
    (⟨.ok (tree file), tree, []⟩ : Outcome FileTree FileAccess KelvinError _) := rfl
  have logged : Action.log (.inspected file) tree =
    (⟨.ok ⟨⟩, tree, [.inspected file]⟩ : Outcome FileTree FileAccess KelvinError _) := rfl
  rw [readState, Action.bind_apply_ok logged, Action.bind_apply_ok looked]
  rcases noFiles file with absent | directory
  · simp [absent, pure]
  · simp [directory, pure]

theorem writeState_occupies {tree : FileTree} (file : Location) (state : List (String × Value))
    {place : Location} (occupied : tree place ≠ none ∨ place = file) :
    (writeState .healthy (some file) state tree).state place ≠ none := by
  have looked : Action.look file tree =
    (⟨.ok (tree file), tree, []⟩ : Outcome FileTree FileAccess KelvinError _) := rfl
  have logged : Action.log (.wrote file) tree =
    (⟨.ok ⟨⟩, tree, [.wrote file]⟩ : Outcome FileTree FileAccess KelvinError _) := rfl
  rw [writeState, Action.bind_apply_ok looked]
  have written : ((do
      Action.log (.wrote file)
      Action.put file (some (.file (.members state))) : FileAction PUnit) tree).state place ≠
        none := by
    rw [Action.bind_apply_ok logged]
    by_cases here : place = file
    · simp [Action.put, here]
    · simpa [Action.put, here] using occupied
  cases held : tree file with
  | none => exact written
  | some node =>
    cases node with
    | file content => exact written
    | directory =>
      -- the directory stays, and it is what is in the place of the file
      rcases occupied with before | rfl
      · exact before
      · simp [Action.fail, held]

theorem hasNul_of_dropLast {path : String} (nul : (components path).dropLast.any hasNul) :
    hasNul path := by
  obtain ⟨part, component, inPart⟩ := List.any_eq_true.mp nul
  obtain ⟨c, member, zero⟩ := List.any_eq_true.mp inPart
  exact List.any_eq_true.mpr
    ⟨c, mem_of_mem_components (List.dropLast_subset _ component) member, zero⟩

/-- On an empty tree, listing makes the directories on the way, looks for the file, and leaves
something in its place. -/
theorem update_listing {path : String} (input : ToolCallInput)
    (noNul : ¬ (components path).dropLast.any hasNul) :
    let outcome := update env .healthy input [] "list_notes" path emptyTree
    (∀ place, place ∈ directoriesAbove env.workingDir path ∨
        fileAt env.workingDir path = some place → outcome.state place ≠ none) ∧
      ∀ file, fileAt env.workingDir path = some file → .inspected file ∈ outcome.journal := by
  let tree := withDirectories emptyTree (directoriesAbove env.workingDir path)
  have noFiles : NoFiles tree := noFiles_emptyTree.withDirectories _
  have above : ∀ place ∈ directoriesAbove env.workingDir path, tree place ≠ none := by
    intro place passed
    rw [show tree place = some .directory from withDirectories_of_mem passed]
    exact Option.some_ne_none _
  have created : createParent env .healthy path emptyTree = ⟨.ok ⟨⟩, tree, []⟩ := by
    rw [createParent, if_neg noNul]
    exact makeDirectories_apply noFiles_emptyTree
  intro outcome
  have split : outcome = update env .healthy input [] "list_notes" path emptyTree := rfl
  rw [update, Action.bind_apply_ok created] at split
  cases file : fileAt env.workingDir path with
  | none =>
    rw [file] at split
    refine ⟨fun place occupied => ?_, fun file found => by cases found⟩
    rw [split]
    exact above place (occupied.resolve_right nofun)
  | some f =>
    rw [file] at split
    have listed : applyAction env 0 input [] "list_notes" (withNotes []) = .ok (withNotes []) := by
      simp only [applyAction]
    simp only [Action.bind_apply_ok (readState_apply noFiles f), CallSurroundings.healthy, listed,
      Action.ofExcept_ok, Action.pure_bind] at split
    refine ⟨fun place occupied => ?_, fun file found => ?_⟩
    · rw [split]
      simp only [Action.state_bind_pure]
      apply writeState_occupies
      rcases occupied with passed | ends
      · exact Or.inl (above place passed)
      · exact Or.inr (Option.some_inj.mp ends).symm
    · obtain rfl := Option.some_inj.mp found
      rw [split]
      exact List.mem_append_right _ (List.mem_append_left _ List.mem_cons_self)

theorem callAll_singleton (env : ToolEnvironment) (surroundings : CallSurroundings)
    (input : ToolCallInput) (tree : FileTree) :
    callAll env [(surroundings, input)] tree = ⟨.ok [(call env surroundings input tree).result],
      (call env surroundings input tree).state,
      (call env surroundings input tree).journal ++ []⟩ := by
  rw [callAll, Action.bind_apply_ok (Action.attempt_apply _ _)]
  rfl

theorem callAll_listing (env : ToolEnvironment) (s : String) :
    let outcome := callAll env (listing s) emptyTree
    (∀ place ∈ footprint env s, outcome.state place ≠ none) ∧
      ∀ file, notesFile env s = some file → .inspected file ∈ outcome.journal := by
  cases found : statePath env.kelvinHome s with
  | error e => simp [footprint, passedDirectories, notesFile, found]
  | ok path =>
    by_cases nul : (components path).dropLast.any hasNul
    · have refused : fileAt env.workingDir path = none := if_pos (hasNul_of_dropLast nul)
      simp [footprint, passedDirectories, notesFile, found, nul, refused]
    · let input : ToolCallInput := ⟨"", s, "", .obj []⟩
      have called : call env .healthy input = update env .healthy input [] "list_notes" path := by
        have args : argsObject input.arguments toolName = .ok [] := rfl
        have unnamed : optionalString [] "action" toolName = .ok none := rfl
        have lower : toAsciiLowercase "list_notes" = "list_notes" := by decide
        simp only [call, args, unnamed, found, Action.ofExcept_ok, Action.pure_bind,
          Option.getD_none, lower, input]
      have whole := callAll_singleton env .healthy input emptyTree
      rw [called] at whole
      have passed : passedDirectories env s = directoriesAbove env.workingDir path := by
        simp [passedDirectories, found, nul]
      have ends : notesFile env s = fileAt env.workingDir path := by
        simp only [notesFile, found]
      rw [listing, whole]
      simpa [footprint, passed, ends] using update_listing input nul

/-! ### The two conditions agree -/

theorem separated_of_isolated (isolated : Isolated env s t) : Separated env s t where
  inside := by
    intro file ends
    have inspected := (callAll_listing env s).2 file ends
    exact isolated.inside (listing s) emptyTree (callsOf_listing s) _ inspected
  apart := by
    intro file notes touched
    have occupied := (callAll_listing env s).1 file touched
    exact occupied (isolated.unchanged (listing s) emptyTree file (callsOf_listing s) notes)

/-- **Isolation of session notes.** The calls of a session leave the notes of another alone, and
stay inside the directory for notes, exactly when the two ids are separated. -/
theorem isolated_iff_separated (env : ToolEnvironment) (s t : String) :
    Isolated env s t ↔ Separated env s t :=
  ⟨separated_of_isolated, isolated_of_separated⟩

/-- A home directory, and a process that runs at the root. -/
def homeEnvironment : ToolEnvironment where
  workingDir := []
  kelvinHome := .ok "/home/kelvin/.kelvinclaw"
  allowSessionClear := true
  toJsonText := fun _ => ""

/-- The session `./work` keeps its notes in the file of the session `work`, and the session
`../trusted_publishers` keeps them in a file of the Kelvin home itself. -/
theorem not_isolated_of_dot_segments :
    ("./work" ≠ "work" ∧ ¬ Isolated homeEnvironment "./work" "work") ∧
      "../trusted_publishers" ≠ "work" ∧
        ¬ Isolated homeEnvironment "../trusted_publishers" "work" := by
  let dir : Location := ["home", "kelvin", ".kelvinclaw"]
  have work : notesFile homeEnvironment "work" = some (dir ++ ["session-tools", "work.json"]) := by
    decide
  refine ⟨⟨by decide, fun isolated => ?_⟩, by decide, fun isolated => ?_⟩
  · have same : notesFile homeEnvironment "./work" =
        some (dir ++ ["session-tools", "work.json"]) := by decide
    exact (separated_of_isolated isolated).apart _ work (Or.inr same)
  · have outside : notesFile homeEnvironment "../trusted_publishers" =
        some (dir ++ ["trusted_publishers.json"]) := by decide
    obtain ⟨home, name, found, place⟩ := (separated_of_isolated isolated).inside _ outside
    obtain rfl : "/home/kelvin/.kelvinclaw" = home := Except.ok.inj found
    have notes : locate homeEnvironment.workingDir (notesDir "/home/kelvin/.kelvinclaw") =
        dir ++ ["session-tools"] := by decide
    rw [notes] at place
    exact absurd (congrArg List.length place) (by decide : ¬ 4 = 5)

/-! ### Ids without a slash -/

theorem isName_append_json {id : String} (plain : '/' ∉ id.toList) : IsName (id ++ ".json") := by
  have length : 5 ≤ (id ++ ".json").toList.length := by
    rw [String.toList_append, List.length_append]
    exact Nat.le_add_left 5 _
  refine ⟨fun same => ?_, fun same => ?_, fun same => ?_, ?_⟩
  · rw [same] at length
    exact absurd length (by decide)
  · rw [same] at length
    exact absurd length (by decide)
  · rw [same] at length
    exact absurd length (by decide)
  · rw [String.toList_append, List.mem_append]
    rintro (inId | inSuffix)
    · exact plain inId
    · exact absurd inSuffix (by decide)

theorem not_isAbsolute_of_isName {text : String} (name : IsName text) : ¬ IsAbsolute text :=
  fun absolute => name.plain (List.mem_of_mem_head? absolute)

/-- Two different ids without a slash are separated, when the home has no two dots in it. -/
theorem separated_of_plain (home : String) (found : env.kelvinHome = .ok home)
    (down : ".." ∉ components home) (distinct : s ≠ t) (plainS : '/' ∉ s.toList)
    (plainT : '/' ∉ t.toList) : Separated env s t := by
  have path : ∀ id, statePath env.kelvinHome id = .ok (join (notesDir home) (id ++ ".json")) := by
    intro id
    rw [statePath, found]
    rfl
  have place : ∀ {id file}, '/' ∉ id.toList → notesFile env id = some file →
      file = locate env.workingDir (notesDir home) ++ [id ++ ".json"] := by
    intro id file plain ends
    have name := isName_append_json plain
    simp only [notesFile, path, fileAt] at ends
    split_ifs at ends
    rw [← Option.some_inj.mp ends, locate_join (not_isAbsolute_of_isName name),
      components_of_isName name, resolve_of_isName name]
  constructor
  · intro file ends
    exact ⟨home, s ++ ".json", found, place plainS ends⟩
  · intro file notes touched
    obtain rfl := place plainT notes
    have name := isName_append_json plainS
    have relative := not_isAbsolute_of_isName name
    rcases touched with passed | ends
    · -- what is passed on the way is no longer than the directory for notes
      have downAll : ".." ∉ components (notesDir home) := by
        rw [notesDir, components_join (by decide)]
        simpa [down] using (by decide : ".." ∉ components "session-tools")
      have short : ∀ place ∈ passedDirectories env s,
          place.length ≤ (locate env.workingDir (notesDir home)).length := by
        intro place passed
        simp only [passedDirectories, path] at passed
        split_ifs at passed
        · cases passed
        · rw [directoriesAbove, components_join relative, components_of_isName name,
            List.dropLast_concat, origin_join relative] at passed
          exact length_of_mem_entered downAll passed
      have := short _ passed
      rw [List.length_append, List.length_singleton] at this
      omega
    · have same := List.append_cancel_left (place plainS ends)
      simp only [List.cons.injEq, and_true] at same
      have texts := congrArg String.toList same
      rw [String.toList_append, String.toList_append] at texts
      exact distinct (String.toList_inj.mp (List.append_cancel_right texts)).symm

/-- **Plain ids are isolated.** Whatever is called under two different ids without a slash, the
notes of each are its own. -/
theorem plain_ids_isolated (env : ToolEnvironment) (home s t : String)
    (found : env.kelvinHome = .ok home) (down : ".." ∉ components home) (distinct : s ≠ t)
    (plainS : '/' ∉ s.toList) (plainT : '/' ∉ t.toList) : Isolated env s t ∧ Isolated env t s :=
  ⟨isolated_of_separated (separated_of_plain home found down distinct plainS plainT),
    isolated_of_separated (separated_of_plain home found down distinct.symm plainT plainS)⟩

theorem work_and_play_isolated :
    Isolated homeEnvironment "work" "play" ∧ Isolated homeEnvironment "play" "work" :=
  plain_ids_isolated homeEnvironment "/home/kelvin/.kelvinclaw" "work" "play" rfl (by decide)
    (by decide) (by decide) (by decide)

end SessionToolsTool

end KelvinClaw.Sdk
