import KelvinClaw.Sdk.ToolPack

/-!
# Reading files of the workspace

The tool `fs_safe_read` reads a file of the workspace. It refuses the names of sensitive
files, which it compares with the beginning of the path as it is spelled. A path may spell
the same file in other ways, with a dot or an empty component in front of a name.
-/

namespace KelvinClaw.Sdk

open Systems KelvinClaw.Core

def sensitivePathsCompare : List String := [".env"]

def sensitivePathsPrefix : List String :=
  [".env.", ".git/", ".kelvin/plugins/", ".kelvinclaw/plugins/"]

def denySensitiveReadPath (path : String) : Bool :=
  let lower := toAsciiLowercase path
  sensitivePathsCompare.any (· == lower) ||
    sensitivePathsPrefix.any fun start => start.toList.isPrefixOf lower.toList

/-! ### The tool -/

/-- What is fixed for the process: the working directory, the policy, the printer of JSON
values, and the decoder that replaces what is no UTF-8. -/
structure ReadEnvironment where
  workingDir : Location
  policy : ToolPackPolicy
  toJsonText : Value → String
  fromUtf8Lossy : List UInt8 → String

/-- How the system answers during a call, where the files do not decide it. -/
structure ReadSurroundings where
  openFails : Option String
  readFails : Option String

namespace SafeFsReadTool

def toolName : String := "fs_safe_read"

/-- The path of a call, before it is compared with the sensitive names. -/
def requestedPath (args : List (String × Value)) : KelvinResult String := do
  let path ← requiredString args "path" toolName
  normalizeWorkspaceRelativePath path "path"

def readLimit (policy : ToolPackPolicy) (requested : Option ℕ) : ℕ :=
  max ((requested.map (clampUsize · policy.maxReadBytes)).getD policy.maxReadBytes) 1

def resultOf (env : ReadEnvironment) (path : String) (limit : ℕ) (bytes : List UInt8) :
    ToolCallResult :=
  let buffer := bytes.take limit
  let truncated : Bool := limit < bytes.length
  let output := Value.object [("path", .str path), ("bytes", .num buffer.length),
    ("truncated", .bool truncated), ("content", .str (env.fromUtf8Lossy buffer))]
  let ending := if truncated then ", truncated" else ""
  let summary := s!"{toolName} read '{path}' ({buffer.length} bytes{ending})"
  { summary := summary, output := some (env.toJsonText output), visibleText := some summary
    isError := false }

/-- `is_file`: what the file at a path holds. -/
def inspect (env : ReadEnvironment) (path : String) :
    WorkspaceAction (Option (Location × List UInt8)) :=
  match filePlace env.workingDir path with
  | none => pure none
  | some place => do
    Action.log (.inspected place)
    let held ← Action.look place
    match held with
    | some (.file bytes) => pure (some (place, bytes))
    | _ => pure none

def readFile (env : ReadEnvironment) (surroundings : ReadSurroundings) (input : ToolCallInput)
    (path : String) (requested : Option ℕ) : WorkspaceAction ToolCallResult := do
  let found ← inspect env (join input.workspaceDir path)
  match found with
  | none => Action.fail (.notFound s!"{toolName} path not found: {path}")
  | some (place, bytes) =>
    match surroundings.openFails with
    | some err => Action.fail (.io err)
    | none => do
      Action.log (.read place)
      match surroundings.readFails with
      | some err => Action.fail (.io err)
      | none => pure (resultOf env path (readLimit env.policy requested) bytes)

def call (env : ReadEnvironment) (surroundings : ReadSurroundings) (input : ToolCallInput) :
    WorkspaceAction ToolCallResult := do
  let args ← Action.ofExcept (argsObject input.arguments toolName)
  let path ← Action.ofExcept (requestedPath args)
  if denySensitiveReadPath path then
    Action.fail (.invalidInput s!"{toolName} denied path '{path}' by policy")
  else
    let requested ← Action.ofExcept (optionalU64 args "max_bytes" toolName)
    readFile env surroundings input path requested

end SafeFsReadTool

/-! ### Sensitive files -/

/-- The files of the workspace that are not to be read, by the names that lead to them. -/
def Sensitive : List String → Prop
  | [] => False
  | [name] => name = ".env" ∨ ".env.".toList <+: name.toList
  | first :: second :: rest =>
    first = ".git" ∨
      (first = ".kelvin" ∨ first = ".kelvinclaw") ∧ second = "plugins" ∧ rest ≠ []

instance : DecidablePred Sensitive
  | [] => inferInstanceAs (Decidable False)
  | [name] => inferInstanceAs (Decidable (name = ".env" ∨ ".env.".toList <+: name.toList))
  | first :: second :: rest =>
    inferInstanceAs (Decidable (first = ".git" ∨
      (first = ".kelvin" ∨ first = ".kelvinclaw") ∧ second = "plugins" ∧ rest ≠ []))

def IsComponent (segment : List Char) : Prop := segment ≠ [] ∧ segment ≠ ['.']

instance (segment : List Char) : Decidable (IsComponent segment) := by
  unfold IsComponent
  infer_instance

/-- The path begins with a name, and below a Kelvin home with the name of an entry. -/
def SpelledPlainly : List (List Char) → Prop
  | [] => False
  | [first] => IsComponent first
  | first :: second :: _ => IsComponent first ∧
      (first = ".kelvin".toList ∨ first = ".kelvinclaw".toList → IsComponent second)

instance : DecidablePred SpelledPlainly
  | [] => inferInstanceAs (Decidable False)
  | [first] => inferInstanceAs (Decidable (IsComponent first))
  | first :: second :: _ => inferInstanceAs (Decidable (IsComponent first ∧
      (first = ".kelvin".toList ∨ first = ".kelvinclaw".toList → IsComponent second)))

/-! ### Spellings -/

/-- The first text between separators, and what follows the separator after it. -/
theorem segments_cons_cases {path first : List Char} {rest : List (List Char)}
    (parts : segments path = first :: rest) :
    (rest = [] ∧ path = first) ∨ ∃ tail, path = first ++ '/' :: tail ∧ segments tail = rest := by
  induction path generalizing first with
  | nil =>
    obtain ⟨rfl, rfl⟩ := List.cons.inj parts
    exact .inl ⟨rfl, rfl⟩
  | cons c path ih =>
    rw [segments] at parts
    split_ifs at parts with separator
    · obtain ⟨rfl, rfl⟩ := List.cons.inj parts
      exact .inr ⟨path, by rw [separator, List.nil_append], rfl⟩
    · cases later : segments path with
      | nil => exact absurd later (segments_ne_nil path)
      | cons head others =>
        rw [later] at parts
        obtain ⟨rfl, rfl⟩ := List.cons.inj parts
        rcases ih later with ⟨rfl, rfl⟩ | ⟨tail, rfl, rest⟩
        · exact .inl ⟨rfl, rfl⟩
        · exact .inr ⟨tail, by rw [List.cons_append], rest⟩

def namesIn (segments : List (List Char)) : List String :=
  (segments.filter fun segment => IsComponent segment).map String.ofList

theorem components_eq_namesIn (path : String) :
    components path = namesIn (segments path.toList) := by
  unfold components namesIn
  rw [List.filter_map]
  congr 1
  apply List.filter_congr
  intro segment _
  have empty : String.ofList segment = "" ↔ segment = [] := by
    rw [← String.ofList_nil, String.ofList_inj]
  have dot : String.ofList segment = "." ↔ segment = ['.'] := by
    rw [show "." = String.ofList ['.'] from rfl, String.ofList_inj]
  rw [Bool.eq_iff_iff]
  simp only [Function.comp, ne_eq, empty, dot, decide_eq_true_eq]
  exact Iff.rfl

theorem namesIn_cons {first : List Char} {rest : List (List Char)} (named : IsComponent first) :
    namesIn (first :: rest) = String.ofList first :: namesIn rest := by
  simp [namesIn, named]

theorem namesDirectory_of_namesIn {path : String} {first : List Char} {rest : List (List Char)}
    (parts : segments path.toList = first :: rest) (more : rest ≠ [])
    (unnamed : namesIn rest = []) : NamesDirectory path := by
  obtain ⟨last, isLast⟩ : ∃ last, rest.getLast? = some last :=
    ⟨_, List.getLast?_eq_some_getLast more⟩
  refine ⟨last, ?_, ?_⟩
  · rw [parts, List.getLast?_cons, isLast]
    rfl
  · have blank : ¬ IsComponent last := by
      have all := List.filter_eq_nil_iff.mp (List.map_eq_nil_iff.mp unnamed)
      simpa using all last (List.mem_of_getLast? isLast)
    rw [IsComponent, ← not_or, not_not] at blank
    rcases blank with rfl | rfl <;> decide

theorem denySensitiveReadPath_iff {path : String} : denySensitiveReadPath path ↔
    path.toList.map Char.toLower = ".env".toList ∨
      ∃ start ∈ sensitivePathsPrefix, start.toList <+: path.toList.map Char.toLower := by
  have lower : (toAsciiLowercase path).toList = path.toList.map Char.toLower :=
    String.toList_ofList
  have whole : (".env" = toAsciiLowercase path) ↔
      path.toList.map Char.toLower = ".env".toList := by
    rw [← lower, String.toList_inj, eq_comm]
  simp only [denySensitiveReadPath, sensitivePathsCompare, Bool.or_eq_true, List.any_cons,
    List.any_nil, Bool.or_false, beq_iff_eq, whole, List.any_eq_true, lower,
    List.isPrefixOf_iff_prefix]

theorem denied_of_prefix {path : String} (start : String) (listed : start ∈ sensitivePathsPrefix)
    (begins : start.toList <+: path.toList) : denySensitiveReadPath path := by
  have lowercase : ∀ start ∈ sensitivePathsPrefix,
      start.toList.map Char.toLower = start.toList := by decide
  have lower := lowercase start listed
  rw [denySensitiveReadPath_iff]
  exact .inr ⟨start, listed, lower ▸ begins.map Char.toLower⟩

/-- A path that begins with a dot is not refused, whatever it leads to. -/
theorem not_denied_of_dot {path : String} {rest : List (List Char)}
    (parts : segments path.toList = ['.'] :: rest) : ¬ denySensitiveReadPath path := by
  rw [denySensitiveReadPath_iff]
  rcases segments_cons_cases parts with ⟨_, whole⟩ | ⟨tail, whole, _⟩
  · simp [whole, sensitivePathsPrefix]
  · simp [whole, sensitivePathsPrefix]

theorem not_denied_of_home {path : String} {home second : List Char} {rest : List (List Char)}
    (kelvin : home = ".kelvin".toList ∨ home = ".kelvinclaw".toList)
    (unnamed : ¬ IsComponent second) (parts : segments path.toList = home :: second :: rest) :
    ¬ denySensitiveReadPath path := by
  rw [IsComponent, ← not_or, not_not] at unnamed
  rw [denySensitiveReadPath_iff]
  obtain ⟨tail, whole, later⟩ :=
    (segments_cons_cases parts).resolve_left fun single => List.cons_ne_nil _ _ single.1
  rcases segments_cons_cases later with ⟨_, ends⟩ | ⟨tail, goes, _⟩
  · rcases kelvin with rfl | rfl <;> rcases unnamed with rfl | rfl <;>
      simp [whole, ends, sensitivePathsPrefix]
  · rcases kelvin with rfl | rfl <;> rcases unnamed with rfl | rfl <;>
      simp [whole, goes, sensitivePathsPrefix]

theorem denied_of_spelledPlainly {path : String} {first : List Char} {rest : List (List Char)}
    (parts : segments path.toList = first :: rest) (file : ¬ NamesDirectory path)
    (sensitive : Sensitive (String.ofList first :: namesIn rest))
    (spelled : SpelledPlainly (first :: rest)) : denySensitiveReadPath path := by
  have toList : ∀ {name : String}, String.ofList first = name → first = name.toList := by
    rintro _ rfl
    exact String.toList_ofList.symm
  rcases segments_cons_cases parts with ⟨rfl, whole⟩ | ⟨tail, whole, later⟩
  · -- a single name
    rcases sensitive with env | env
    · rw [denySensitiveReadPath_iff, whole, toList env]
      exact .inl (by decide)
    · rw [String.toList_ofList (l := first), ← whole] at env
      exact denied_of_prefix ".env." (by decide) env
  · have more : rest ≠ [] := later ▸ segments_ne_nil tail
    cases names : namesIn rest with
    | nil => exact absurd (namesDirectory_of_namesIn parts more names) file
    | cons second others =>
      rw [names] at sensitive
      rcases sensitive with git | ⟨home, rfl, below⟩
      · apply denied_of_prefix ".git/" (by decide)
        rw [whole, toList git]
        exact ⟨tail, by simp⟩
      · cases rest with
        | nil => exact absurd rfl more
        | cons segment rest =>
          have plain : IsComponent segment := spelled.2 (home.imp toList toList)
          rw [namesIn_cons plain] at names
          obtain ⟨isPlugins, rfl⟩ := List.cons.inj names
          obtain ⟨tail, goes, _⟩ := (segments_cons_cases later).resolve_left fun single => by
            rw [single.1] at below
            exact below rfl
          rw [show segment = "plugins".toList from isPlugins ▸ String.toList_ofList.symm] at goes
          rcases home with kelvin | kelvin
          · apply denied_of_prefix ".kelvin/plugins/" (by decide)
            rw [whole, goes, toList kelvin]
            exact ⟨tail, by simp⟩
          · apply denied_of_prefix ".kelvinclaw/plugins/" (by decide)
            rw [whole, goes, toList kelvin]
            exact ⟨tail, by simp⟩

theorem denied_iff_spelledPlainly {path : String} (nonempty : path ≠ "")
    (relative : ¬ IsAbsolute path) (file : ¬ NamesDirectory path)
    (sensitive : Sensitive (components path)) :
    denySensitiveReadPath path ↔ SpelledPlainly (segments path.toList) := by
  rw [components_eq_namesIn] at sensitive
  cases parts : segments path.toList with
  | nil => exact absurd parts (segments_ne_nil _)
  | cons first rest =>
    rw [parts] at sensitive
    by_cases named : IsComponent first
    · rw [namesIn_cons named] at sensitive
      constructor
      · -- a Kelvin home with no name below it is not refused
        intro denied
        cases rest with
        | nil => exact named
        | cons second rest =>
          refine ⟨named, fun home => ?_⟩
          by_contra unnamed
          exact not_denied_of_home home unnamed parts denied
      · exact denied_of_spelledPlainly parts file sensitive
    · have unnamed := named
      rw [IsComponent, ← not_or, not_not] at unnamed
      have dot : first = ['.'] := by
        apply unnamed.resolve_left
        rintro rfl
        rcases segments_cons_cases parts with ⟨_, whole⟩ | ⟨tail, whole, _⟩
        · exact nonempty (String.toList_inj.mp whole)
        · exact relative (by rw [IsAbsolute, whole]; rfl)
      subst dot
      refine iff_of_false (not_denied_of_dot parts) fun spelled => named ?_
      cases rest with
      | nil => exact spelled
      | cons second rest => exact spelled.1

/-! ### What a call reads -/

namespace SafeFsReadTool

def Requests (input : ToolCallInput) (path : String) : Prop :=
  ∃ args, argsObject input.arguments toolName = .ok args ∧ requestedPath args = .ok path ∧
    ∃ limit, optionalU64 args "max_bytes" toolName = .ok limit

/-- No sensitive file of the workspace is read, whatever stands in the files and however the
system answers. -/
def ReadsNothingSensitive (env : ReadEnvironment) (input : ToolCallInput) : Prop :=
  ∀ surroundings files names,
    .read (locate env.workingDir input.workspaceDir ++ names) ∈
      (call env surroundings input files).journal → ¬ Sensitive names

def Harmless (input : ToolCallInput) (path : String) : Prop :=
  ¬ Sensitive (components path) ∨ NamesDirectory path ∨ hasNul input.workspaceDir ∨
    SpelledPlainly (segments path.toList)

theorem hasNul_slashed {value : String} (plain : (trim value).toList.any isControl = false) :
    hasNul (slashed value) = false := by
  have trimmed : trim (trim value) = trim value := trim_trim value
  unfold hasNul slashed
  rw [String.toList_ofList, List.any_map, List.any_eq_false]
  intro c member
  have printable := List.any_eq_false.mp plain c member
  simp only [Function.comp]
  split_ifs
  · decide
  · intro nul
    exact printable (by simp [isControl, of_decide_eq_true nul])

/-- What a path has passed before it is compared with the sensitive names. -/
theorem of_requestedPath {args : List (String × Value)} {path : String}
    (requested : requestedPath args = .ok path) :
    path ≠ "" ∧ ¬ IsAbsolute path ∧ ".." ∉ components path ∧ hasNul path = false := by
  unfold requestedPath at requested
  obtain ⟨text, given, normalized⟩ := bind_eq_ok.mp requested
  obtain ⟨rfl, nonempty, relative, down⟩ := normalizeWorkspaceRelativePath_eq_ok.mp normalized
  refine ⟨nonempty, relative, down, ?_⟩
  unfold requiredString at given
  split at given
  · cases given
  · next value found =>
    dsimp only at given
    split_ifs at given with empty control
    cases given
    apply hasNul_slashed
    rw [trim_trim]
    simpa using control

theorem hasNul_join {base path : String} (relative : ¬ IsAbsolute path)
    (plain : hasNul path = false) : hasNul (join base path) = hasNul base := by
  unfold hasNul at plain ⊢
  rw [join, if_neg relative]
  split_ifs
  · rw [String.toList_append, List.any_append, plain, Bool.or_false]
  · simp [plain]

theorem filePlace_of_requestedPath {workingDir : Location} {workspaceDir path : String}
    {args : List (String × Value)} (requested : requestedPath args = .ok path) :
    filePlace workingDir (join workspaceDir path) =
      if hasNul workspaceDir ∨ NamesDirectory path then none
      else some (locate workingDir workspaceDir ++ components path) := by
  obtain ⟨_, relative, down, plain⟩ := of_requestedPath requested
  have last : NamesDirectory (join workspaceDir path) ↔ NamesDirectory path := by
    unfold NamesDirectory
    rw [getLast?_segments_join relative]
  rw [filePlace, hasNul_join relative plain, locate_join relative, resolve_of_down down]
  simp only [last]

variable {env : ReadEnvironment} {surroundings : ReadSurroundings} {input : ToolCallInput}
  {files : WorkspaceFiles} {place : Location}

theorem inspect_of_none {path : String} (unnamed : filePlace env.workingDir path = none) :
    inspect env path files = ⟨.ok none, files, []⟩ := by
  rw [inspect, unnamed]
  rfl

theorem inspect_of_file {path : String} {bytes : List UInt8}
    (named : filePlace env.workingDir path = some place) (held : files place = some (.file bytes)) :
    inspect env path files = ⟨.ok (some (place, bytes)), files, [.inspected place]⟩ := by
  have looked : (Action.look place : WorkspaceAction _) files =
      ⟨.ok (some (.file bytes)), files, []⟩ := by
    rw [Action.look, held]
  rw [inspect, named]
  simp only
  rw [Action.bind_apply_ok (Action.log_apply ..), Action.bind_apply_ok looked]
  rfl

theorem inspect_of_no_file {path : String} (named : filePlace env.workingDir path = some place)
    (absent : ∀ bytes, files place ≠ some (.file bytes)) :
    inspect env path files = ⟨.ok none, files, [.inspected place]⟩ := by
  have looked : (Action.look place : WorkspaceAction _) files = ⟨.ok (files place), files, []⟩ :=
    rfl
  rw [inspect, named]
  simp only
  rw [Action.bind_apply_ok (Action.log_apply ..), Action.bind_apply_ok looked]
  cases held : files place with
  | none => rfl
  | some entry =>
    cases entry with
    | directory => rfl
    | file bytes => exact absurd held (absent bytes)

theorem read_mem_readFile {path : String} {requested : Option ℕ} :
    .read place ∈ (readFile env surroundings input path requested files).journal ↔
      filePlace env.workingDir (join input.workspaceDir path) = some place ∧
        (∃ bytes, files place = some (.file bytes)) ∧ surroundings.openFails = none := by
  unfold readFile
  cases named : filePlace env.workingDir (join input.workspaceDir path) with
  | none =>
    rw [Action.bind_apply_ok (inspect_of_none named)]
    simp [Action.fail]
  | some there =>
    by_cases file : ∃ bytes, files there = some (.file bytes)
    · obtain ⟨bytes, held⟩ := file
      rw [Action.bind_apply_ok (inspect_of_file named held)]
      cases surroundings.openFails with
      | some err => simp [Action.fail]
      | none =>
        simp only
        rw [Action.bind_apply_ok (Action.log_apply ..)]
        have here : .read place ∈ [FileAccess.inspected there] ++ [.read there] ↔
            some there = some place ∧ (∃ bytes, files place = some (.file bytes)) ∧ True := by
          constructor
          · intro member
            obtain rfl : place = there := by simpa using member
            exact ⟨rfl, ⟨bytes, held⟩, trivial⟩
          · rintro ⟨⟨⟩, -⟩
            simp
        cases surroundings.readFails with
        | some err => simpa [Action.fail] using here
        | none => simpa [pure] using here
    · rw [Action.bind_apply_ok (inspect_of_no_file named (not_exists.mp file))]
      constructor
      · intro member
        simp [Action.fail] at member
      · rintro ⟨⟨⟩, held, -⟩
        exact absurd held file

/-- A call reads the file it asks for, if it asks for one that is not refused. -/
theorem read_mem_call :
    .read place ∈ (call env surroundings input files).journal ↔
      ∃ path, Requests input path ∧ ¬ denySensitiveReadPath path ∧
        filePlace env.workingDir (join input.workspaceDir path) = some place ∧
        (∃ bytes, files place = some (.file bytes)) ∧ surroundings.openFails = none := by
  unfold call
  simp only [Action.mem_journal_bind, Action.journal_ofExcept, List.not_mem_nil, false_or,
    Action.result_ofExcept, Action.state_ofExcept]
  constructor
  · rintro ⟨args, found, path, requested, reads⟩
    split_ifs at reads with denied
    · cases reads
    · simp only [Action.mem_journal_bind, Action.journal_ofExcept, List.not_mem_nil, false_or,
        Action.result_ofExcept, Action.state_ofExcept, read_mem_readFile] at reads
      obtain ⟨limit, limited, reads⟩ := reads
      exact ⟨path, ⟨args, found, requested, limit, limited⟩, denied, reads⟩
  · rintro ⟨path, ⟨args, found, requested, limit, limited⟩, denied, reads⟩
    refine ⟨args, found, path, requested, ?_⟩
    rw [if_neg denied]
    simp only [Action.mem_journal_bind, Action.journal_ofExcept, List.not_mem_nil, false_or,
      Action.result_ofExcept, Action.state_ofExcept, read_mem_readFile]
    exact ⟨limit, limited, reads⟩

/-- A call never reads a sensitive file exactly when the path it asks for is not sensitive, names
no file or is spelled plainly. -/
theorem reads_nothing_sensitive_iff (env : ReadEnvironment) (input : ToolCallInput) :
    ReadsNothingSensitive env input ↔ ∀ path, Requests input path → Harmless input path := by
  constructor
  · intro safe path requests
    by_contra harmful
    simp only [Harmless, not_or, not_not] at harmful
    obtain ⟨sensitive, file, nul, spelled⟩ := harmful
    obtain ⟨args, found, requested, limit, limited⟩ := requests
    obtain ⟨nonempty, relative, -, -⟩ := of_requestedPath requested
    -- a tree of files in which the path names a file
    apply safe ⟨none, none⟩ (fun _ => some (.file [])) (components path) _ sensitive
    refine read_mem_call.mpr
      ⟨path, ⟨args, found, requested, limit, limited⟩, ?_, ?_, ⟨[], rfl⟩, rfl⟩
    · rwa [denied_iff_spelledPlainly nonempty relative file sensitive]
    · rw [filePlace_of_requestedPath requested, if_neg (by simp [nul, file])]
  · intro harmless surroundings files names reads sensitive
    obtain ⟨path, requests, allowed, named, -⟩ := read_mem_call.mp reads
    obtain ⟨args, found, requested, -⟩ := id requests
    obtain ⟨nonempty, relative, -, -⟩ := of_requestedPath requested
    rw [filePlace_of_requestedPath requested] at named
    split_ifs at named with unnamed
    obtain rfl : components path = names := List.append_cancel_left (Option.some.inj named)
    rw [not_or] at unnamed
    have spelled : SpelledPlainly (segments path.toList) := by
      rcases harmless path requests with safe | directory | nul | spelled
      · exact absurd sensitive safe
      · exact absurd directory unnamed.2
      · exact absurd nul unnamed.1
      · exact spelled
    exact allowed ((denied_iff_spelledPlainly nonempty relative unnamed.2 sensitive).mpr spelled)

def defaultReadEnvironment : ReadEnvironment where
  workingDir := []
  policy := ⟨true, true, true, true, 64 * 1024, 128 * 1024, []⟩
  toJsonText _ := ""
  fromUtf8Lossy _ := ""

/-- A dot in front of the name lets a call read the environment file of the workspace. -/
theorem dotted_env_is_read : ¬ ReadsNothingSensitive defaultReadEnvironment
    ⟨"run", "session", "/workspace", .obj [("path", .str "./.env")]⟩ := by
  intro safe
  apply safe ⟨none, none⟩ (fun _ => some (.file [])) [".env"] _ (.inl rfl)
  refine read_mem_call.mpr ⟨"./.env", ⟨_, rfl, rfl, none, rfl⟩, by decide, ?_, ⟨[], rfl⟩, rfl⟩
  decide

end SafeFsReadTool

end KelvinClaw.Sdk
