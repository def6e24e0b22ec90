import KelvinClaw.Sdk.WorkspaceWrites

/-!
# The roots of written files

The tool `fs_safe_write` accepts a path that begins with one of the allowed roots and does not
lead upwards. The comparison is one of texts, with the separator at the end of a root: what
follows it is spelled in any way that has no two dots among its components. The path then leads
into the root, and a file that is written lies below it.
-/

namespace KelvinClaw.Sdk

open Systems KelvinClaw.Core

/-! ### Paths below a root -/

theorem components_of_separator {root path : String} {above tail : List Char}
    (ends : root.toList = above ++ ['/']) (whole : path.toList = root.toList ++ tail) :
    components path = components root ++ components (String.ofList tail) := by
  have parts : path.toList = above ++ '/' :: tail := by
    rw [whole, ends, List.append_assoc, List.singleton_append]
  simp only [components, parts, ends, segments_append_separator, String.toList_ofList,
    List.map_append, List.filter_append]
  simp [segments]

theorem namesDirectory_of_components {path : String} {above tail : List Char}
    (whole : path.toList = above ++ '/' :: tail)
    (unnamed : components (String.ofList tail) = []) : NamesDirectory path := by
  obtain ⟨last, isLast⟩ : ∃ last, (segments tail).getLast? = some last :=
    ⟨_, List.getLast?_eq_some_getLast (segments_ne_nil tail)⟩
  refine ⟨last, ?_, ?_⟩
  · rw [whole, segments_append_separator, List.getLast?_append_of_ne_nil _ (segments_ne_nil tail)]
    exact isLast
  · rw [components, String.toList_ofList] at unnamed
    have blank := List.filter_eq_nil_iff.mp unnamed _
      (List.mem_map_of_mem (List.mem_of_getLast? isLast))
    simp only [ne_eq, decide_eq_true_eq, not_and_or, not_not] at blank
    rcases blank with empty | dot
    · exact List.mem_cons.mpr (.inl empty)
    · exact List.mem_cons_of_mem _ (List.mem_cons.mpr (.inl dot))

namespace SafeFsWriteTool

def Accepts (input : ToolCallInput) (path : String) : Prop :=
  ∃ args text, argsObject input.arguments toolName = .ok args ∧
    requiredString args "path" toolName = .ok text ∧
    normalizeWorkspaceRelativePath text "path" = .ok path ∧ writeScopeAllowed path

def writeRoot (workingDir : Location) (workspaceDir root : String) : Location :=
  locate workingDir (join workspaceDir root)

def InWriteRoots (workingDir : Location) (workspaceDir : String) (place : Location) : Prop :=
  ∃ root ∈ defaultFsWriteScope, ∃ names, names ≠ [] ∧
    place = writeRoot workingDir workspaceDir root ++ names

theorem of_mem_scope {root : String} (listed : root ∈ defaultFsWriteScope) :
    ¬ IsAbsolute root ∧ ".." ∉ components root ∧ ∃ above, root.toList = above ++ ['/'] := by
  simp only [defaultFsWriteScope, List.mem_cons, List.not_mem_nil, or_false] at listed
  rcases listed with rfl | rfl | rfl
  · exact ⟨by decide, by decide, ".kelvinclaw/sandbox".toList, rfl⟩
  · exact ⟨by decide, by decide, "memory".toList, rfl⟩
  · exact ⟨by decide, by decide, "notes".toList, rfl⟩

variable {workingDir : Location} {workspaceDir path : String}

theorem exists_of_writeScopeAllowed (allowed : writeScopeAllowed path) :
    ∃ root ∈ defaultFsWriteScope, ∃ tail, path.toList = root.toList ++ tail := by
  obtain ⟨root, listed, begins⟩ := List.any_eq_true.mp allowed
  obtain ⟨tail, whole⟩ := List.isPrefixOf_iff_prefix.mp begins
  exact ⟨root, listed, tail, whole.symm⟩

/-- A path in scope that does not lead upwards leads to what its text behind a root names. -/
theorem exists_locate_eq (relative : ¬ IsAbsolute path) (down : ".." ∉ components path)
    (allowed : writeScopeAllowed path) :
    ∃ root ∈ defaultFsWriteScope, ∃ above tail, path.toList = above ++ '/' :: tail ∧
      locate workingDir (join workspaceDir path) =
        writeRoot workingDir workspaceDir root ++ components (String.ofList tail) := by
  obtain ⟨root, listed, tail, whole⟩ := exists_of_writeScopeAllowed allowed
  obtain ⟨relativeRoot, downRoot, above, ends⟩ := of_mem_scope listed
  refine ⟨root, listed, above, tail, ?_, ?_⟩
  · rw [whole, ends, List.append_assoc, List.singleton_append]
  · rw [writeRoot, locate_join relative, locate_join relativeRoot, resolve_of_down down,
      resolve_of_down downRoot, components_of_separator ends whole, List.append_assoc]

variable {env : WriteEnvironment} {input : ToolCallInput}

theorem Accepts.spelling (accepts : Accepts input path) :
    ¬ IsAbsolute path ∧ ".." ∉ components path ∧ writeScopeAllowed path := by
  obtain ⟨args, text, _, _, normalized, allowed⟩ := accepts
  obtain ⟨_, _, relative, down⟩ := normalizeWorkspaceRelativePath_eq_ok.mp normalized
  exact ⟨relative, down, allowed⟩

theorem prefix_locate_of_accepts (accepts : Accepts input path) :
    ∃ root ∈ defaultFsWriteScope, writeRoot workingDir workspaceDir root <+:
      locate workingDir (join workspaceDir path) := by
  obtain ⟨relative, down, allowed⟩ := accepts.spelling
  obtain ⟨root, listed, _, tail, _, leads⟩ :=
    @exists_locate_eq workingDir workspaceDir _ relative down allowed
  exact ⟨root, listed, _, leads.symm⟩

theorem inWriteRoots_of_filePlace {place : Location} (accepts : Accepts input path)
    (named : filePlace workingDir (join workspaceDir path) = some place) :
    InWriteRoots workingDir workspaceDir place := by
  obtain ⟨relative, down, allowed⟩ := accepts.spelling
  obtain ⟨root, listed, above, tail, whole, leads⟩ :=
    @exists_locate_eq workingDir workspaceDir _ relative down allowed
  unfold filePlace at named
  split_ifs at named with unnamed
  obtain rfl := Option.some.inj named
  refine ⟨root, listed, _, fun below => unnamed (.inr ?_), leads⟩
  -- a path without a name behind the root would name a directory
  unfold NamesDirectory
  rw [getLast?_segments_join relative]
  exact namesDirectory_of_components whole below

/-! ### What a call writes -/

def OutsideContents (workingDir : Location) (workspaceDir : String) (files : WorkspaceFiles)
    (place : Location) : Set (List UInt8) :=
  {bytes | ¬ InWriteRoots workingDir workspaceDir place ∧ files place = some (.file bytes)}

/-- A computation that changes no file outside of the roots and opens none there for writing. -/
abbrev StaysInside {α : Type} (workingDir : Location) (workspaceDir : String)
    (act : WorkspaceAction α) : Prop :=
  Action.Frames (OutsideContents workingDir workspaceDir)
    (fun _ access => ∀ place, access = .wrote place → InWriteRoots workingDir workspaceDir place)
    act

theorem staysInside_createParent (surroundings : WriteSurroundings) (path : String) :
    StaysInside workingDir workspaceDir (createParent env surroundings path) := by
  unfold createParent
  dsimp only
  split_ifs
  · exact Action.frames_fail _
  · split
    · exact writesWithin_makeDirectories _ _
    · exact Action.frames_bind (writesWithin_makeDirectories _ _) fun _ => Action.frames_fail _

theorem staysInside_writeFile (accepts : Accepts input path) (surroundings : WriteSurroundings)
    (append : Bool) (content : String) :
    StaysInside env.workingDir workspaceDir
      (writeFile env surroundings (join workspaceDir path) append content) := by
  unfold writeFile
  apply Action.frames_bind (staysInside_createParent surroundings _)
  intro _
  split
  · exact Action.frames_fail _
  · next place named =>
    have inside := inWriteRoots_of_filePlace accepts named
    exact Action.frames_bind (writesWithin_openFile inside surroundings append) fun _ =>
      writesWithin_writeAll inside surroundings _ _

/-- Every path that the tool accepts leads from the workspace into one of the allowed roots, and
no call opens a file for writing, or changes one, that does not lie below a root. -/
theorem fs_safe_write_stays_inside (env : WriteEnvironment) (input : ToolCallInput) :
    (∀ path, Accepts input path → ∃ root ∈ defaultFsWriteScope,
      locate env.workingDir (join input.workspaceDir root) <+:
        locate env.workingDir (join input.workspaceDir path)) ∧
    ∀ surroundings,
      StaysInside env.workingDir input.workspaceDir (call env surroundings input) := by
  constructor
  · intro path accepts
    exact prefix_locate_of_accepts accepts
  · intro surroundings
    unfold call
    split_ifs
    · apply Action.frames_check
      intro args found
      apply Action.frames_bind (Action.frames_ofExcept _)
      intro approvalReason
      apply Action.frames_check
      intro text given
      apply Action.frames_check
      intro path normalized
      split_ifs with allowed
      · have accepts : Accepts input path := ⟨args, text, found, given, normalized, allowed⟩
        apply Action.frames_bind (Action.frames_ofExcept _)
        intro content
        apply Action.frames_bind (Action.frames_ofExcept _)
        intro requested
        dsimp only
        split_ifs
        · exact Action.frames_fail _
        · exact Action.frames_bind (staysInside_writeFile accepts surroundings _ content)
            fun _ => Action.frames_pure _
      · exact Action.frames_fail _
    · exact Action.frames_fail _

end SafeFsWriteTool

end KelvinClaw.Sdk
