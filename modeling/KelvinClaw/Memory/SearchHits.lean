import Mathlib.Data.Finset.Card
import Mathlib.Data.Prod.Lex
import Mathlib.Data.String.Basic
import Mathlib.Data.List.Sort
import KelvinClaw.Core.LowerCase
import KelvinClaw.Library.ReadLists
import KelvinClaw.Memory.PagedReads

/-!
# Reading a search hit

A search of the memory answers with pieces of texts: a line that matches the query, with the lines
next to it, and where they are. The manager of the Markdown files searches the files below the
memory directory and makes a path of each, and reads a file after it has checked the path; the
manager of documents in memory searches all documents, and reads the last one with a path.

So a hit reads back the lines that it shows if its path leads back to where it was found. That is
so for files whose names are texts without a backslash and without two dots in a row, and for
documents that are the last ones with their paths, if the paths are not changed when they are
cleaned.

The scores are numbers of a linear order: they are quotients of counts and not `NaN`.
-/

namespace KelvinClaw.Memory

open KelvinClaw.Core KelvinClaw.Sdk Systems

variable {F : Type}

structure MemorySearchOptions where
  maxResults : ℕ
  minScoreMilli : ℕ
  deriving DecidableEq, Repr

inductive MemorySource where
  | memory
  | sessions
  deriving DecidableEq, Repr

structure MemorySearchResult (F : Type) where
  path : String
  startLine : ℕ
  endLine : ℕ
  score : F
  snippet : String
  source : MemorySource
  citation : Option String
  deriving DecidableEq

structure ScoreArithmetic (F : Type) where
  zero : F
  /-- The quotient of two counts. -/
  ratio : ℕ → ℕ → F
  /-- A thousand times the score is less than a number. -/
  below : F → ℕ → Bool

abbrev SearchOutcome (F : Type) := Option (KelvinResult (List (MemorySearchResult F)))

/-! ### Tokens -/

/-- `trim_matches` of all but letters and digits. -/
def trimToken (token : List Char) : List Char :=
  (token.dropWhile fun c => !c.isAlphanum).rdropWhile fun c => !c.isAlphanum

/-- `tokenize`. -/
def tokenize (toLowercase : String → String) (input : String) : List String :=
  ((splitWhitespace input.toList).map fun token =>
    toLowercase (String.ofList (trimToken token))).filter (· ≠ "")

/-- `contains` of a line in lower case. -/
def Contains (toLowercase : String → String) (line : List Char) (token : String) : Prop :=
  token.toList <:+: (toLowercase (String.ofList line)).toList

instance (toLowercase : String → String) (line : List Char) (token : String) :
    Decidable (Contains toLowercase line token) := by
  unfold Contains
  infer_instance

/-- `score_line`: how many of the tokens the line contains. -/
def scoreLine (toLowercase : String → String) (line : List Char) (tokens : List String) : ℕ :=
  tokens.countP fun token => Contains toLowercase line token

/-! ### Snippets -/

/-- A piece of a text with the numbers of its first and its last line. -/
structure Snippet where
  startLine : ℕ
  endLine : ℕ
  text : String
  deriving DecidableEq

/-- `build_snippet`: a line with the lines next to it. -/
def buildSnippet (rawLines : List (List Char)) (idx : ℕ) : Option Snippet :=
  let start := idx - 1
  let stop := min (idx + 1) (rawLines.length - 1)
  (lineRange rawLines start (stop + 1)).map fun page =>
    ⟨start + 1, stop + 1, String.ofList (joinLines page)⟩

/-- The text has no more lines than a `usize` counts. -/
def Fits (text : String) : Prop := (Systems.lines text.toList).length ≤ usizeMax

/-- The snippet shows the lines of the text from its first to its last one. -/
structure Snippet.Of (snippet : Snippet) (text : String) : Prop where
  positive : 1 ≤ snippet.startLine
  ordered : snippet.startLine ≤ snippet.endLine
  within : snippet.endLine ≤ (Systems.lines text.toList).length
  shows : snippet.text = String.ofList (joinLines
    (((Systems.lines text.toList).take snippet.endLine).drop (snippet.startLine - 1)))

/-! ### Ranking -/

section Ranking

variable [LinearOrder F]

/-- What the hits are sorted by: the highest score first, then by path and lines. -/
def hitKey (hit : MemorySearchResult F) : Fᵒᵈ ×ₗ String ×ₗ ℕ ×ₗ ℕ :=
  toLex (OrderDual.toDual hit.score, toLex (hit.path, toLex (hit.startLine, hit.endLine)))

def ranked (opts : MemorySearchOptions) (hits : List (MemorySearchResult F)) :
    List (MemorySearchResult F) :=
  (hits.insertionSort (Order.Preimage hitKey (· ≤ ·))).take (max opts.maxResults 1)

end Ranking

/-! ### The files of a workspace -/

/-- The text of a path: its characters, and the sequences of bytes in it that are no characters. -/
abbrev OsText := List (Char ⊕ List UInt8)

namespace OsText

def ofString (s : String) : OsText := s.toList.map .inl

/-- `to_string_lossy`. -/
def toStringLossy (text : OsText) : String :=
  String.ofList (text.map (Sum.elim id fun _ => '\uFFFD'))

/-- `Path::extension`, of the last name in the path. -/
def extension (path : OsText) : Option OsText :=
  let name := path.rtakeWhile (· ≠ .inl '/')
  let stem := name.rdropWhile (· ≠ .inl '.')
  if stem.length ≤ 1 then none else some (name.rtakeWhile (· ≠ .inl '.'))

/-- `eq_ignore_ascii_case`. -/
def EqIgnoreCase (text : OsText) (s : String) : Prop :=
  text.map (Sum.map Char.toLower id) = (ofString s).map (Sum.map Char.toLower id)

instance (text : OsText) (s : String) : Decidable (text.EqIgnoreCase s) :=
  inferInstanceAs (Decidable (_ = _))

end OsText

def markdownExtension : String := "md"

/-- A file by its path in the workspace, with its text, or why it cannot be read. -/
structure MemoryFile where
  path : OsText
  read : Except String String

/-- A workspace with the files that a walk of the memory directory finds. -/
structure MemoryWorkspace extends MarkdownMemoryManager where
  walked : List MemoryFile
  walked_below : ∀ file ∈ walked, ∃ rest, file.path = OsText.ofString (memoryDir ++ "/") ++ rest
  walked_files : ∀ file ∈ walked, ∀ path, file.path = OsText.ofString path →
    files path = some file.read
  walked_fits : ∀ file ∈ walked, ∀ text, file.read = .ok text → Fits text
  fits : ∀ path text, files path = some (.ok text) → Fits text

/-- `to_relative_path`. -/
def MemoryFile.relativePath (file : MemoryFile) : String := withSlashes file.path.toStringLossy

namespace MemoryWorkspace

variable (toLowercase : String → String) (scores : ScoreArithmetic F)
  (workspace : MemoryWorkspace) (opts : MemorySearchOptions)

/-- `collect_memory_files`. -/
def collectMemoryFiles : List MemoryFile :=
  ((workspace.files memoryFile).map fun read =>
    (⟨OsText.ofString memoryFile, read⟩ : MemoryFile)).toList ++
    workspace.walked.filter fun file =>
      file.path.extension.any fun ext => ext.EqIgnoreCase markdownExtension

def lineHit (tokens : List String) (file : MemoryFile) (line : List Char) (snippet : Snippet) :
    MemorySearchResult F where
  path := file.relativePath
  startLine := snippet.startLine
  endLine := snippet.endLine
  score := scores.ratio (scoreLine toLowercase line tokens) tokens.length
  snippet := snippet.text
  source := .memory
  citation := some s!"{file.relativePath}#{snippet.startLine}"

def fileHits (tokens : List String) (file : MemoryFile) : Option (List (MemorySearchResult F)) :=
  match file.read with
  | .error _ => some []
  | .ok text =>
    let rawLines := Systems.lines text.toList
    (rawLines.zipIdx.filter fun (line, _) =>
      scoreLine toLowercase line tokens ≠ 0 &&
        !scores.below (scores.ratio (scoreLine toLowercase line tokens) tokens.length)
          opts.minScoreMilli).mapM fun (line, idx) =>
      (buildSnippet rawLines idx).map (lineHit toLowercase scores tokens file line)

/-- `search` of the Markdown manager. -/
def search [LinearOrder F] (query : String) : SearchOutcome F :=
  let cleaned := trim query
  if cleaned = "" then some (.ok [])
  else
    let tokens := tokenize toLowercase cleaned
    if tokens = [] then some (.ok [])
    else (workspace.collectMemoryFiles.mapM (fileHits toLowercase scores opts tokens)).map
      fun hits => .ok (ranked opts hits.flatten)

def FoundIn (query : String) (file : MemoryFile) (hit : MemorySearchResult F) : Prop :=
  file ∈ workspace.collectMemoryFiles ∧ ∃ hits,
    fileHits toLowercase scores opts (tokenize toLowercase (trim query)) file = some hits ∧
      hit ∈ hits

end MemoryWorkspace

/-! ### Documents in memory -/

structure SourcedDocument extends InMemoryDocument where
  source : MemorySource
  fits : Fits text

structure DocumentStore where
  docs : List SourcedDocument

namespace DocumentStore

variable (toLowercase : String → String) (scores : ScoreArithmetic F) (store : DocumentStore)
  (opts : MemorySearchOptions)

def manager : InMemoryVectorMemoryManager := ⟨store.docs.map (·.toInMemoryDocument)⟩

def tokenSet (input : String) : Finset String := (tokenize toLowercase input).toFinset

/-- `compute_similarity`. -/
def computeSimilarity (queryTokens textTokens : Finset String) : F :=
  if queryTokens = ∅ ∨ textTokens = ∅ then scores.zero
  else scores.ratio (queryTokens ∩ textTokens).card (max queryTokens.card 1)

/-- `build_snippet` at the first line that contains a token, or at the first line. -/
def docSnippet (text : String) (queryTokens : Finset String) : Option Snippet :=
  let rawLines := Systems.lines text.toList
  if rawLines = [] then some ⟨1, 1, ""⟩
  else buildSnippet rawLines ((rawLines.findIdx? fun line =>
    decide (∃ token ∈ queryTokens, Contains toLowercase line token)).getD 0)

def docHit [LinearOrder F] (queryTokens : Finset String) (doc : SourcedDocument) :
    Option (Option (MemorySearchResult F)) :=
  let score := computeSimilarity scores queryTokens (tokenSet toLowercase doc.text)
  if score ≤ scores.zero then some none
  else if scores.below score opts.minScoreMilli then some none
  else (docSnippet toLowercase doc.text queryTokens).map fun snippet => some {
    path := doc.path
    startLine := snippet.startLine
    endLine := snippet.endLine
    score
    snippet := snippet.text
    source := doc.source
    citation := some s!"{doc.path}#{snippet.startLine}" }

/-- `search` of the manager of documents. -/
def search [LinearOrder F] (query : String) : SearchOutcome F :=
  let cleaned := trim query
  if cleaned = "" then some (.ok [])
  else
    let queryTokens := tokenSet toLowercase cleaned
    if queryTokens = ∅ then some (.ok [])
    else (store.docs.mapM (docHit toLowercase scores opts queryTokens)).map
      fun hits => .ok (ranked opts (hits.filterMap id))

def FoundIn [LinearOrder F] (query : String) (doc : SourcedDocument)
    (hit : MemorySearchResult F) : Prop :=
  doc ∈ store.docs ∧
    docHit toLowercase scores opts (tokenSet toLowercase (trim query)) doc = some (some hit)

end DocumentStore

/-! ### What a search is for -/

def ReadsBack (read : MemoryReadParams → ReadOutcome) (hit : MemorySearchResult F) : Prop :=
  read ⟨hit.path, some (UInt64.ofNat hit.startLine),
    some (UInt64.ofNat (hit.endLine - hit.startLine + 1))⟩ = some (.ok ⟨hit.snippet, hit.path⟩)

/-- The search answers with hits in the order of their scores and no more than were asked for. Each
of them shows some lines of what it was found in, and reads back if that is where its path leads
to. -/
def AnswersWell [LinearOrder F] {S : Type} (opts : MemorySearchOptions)
    (read : MemoryReadParams → ReadOutcome) (foundIn : S → MemorySearchResult F → Prop)
    (leadsBack : S → Prop) (outcome : SearchOutcome F) : Prop :=
  ∃ hits, outcome = some (.ok hits) ∧ hits.length ≤ max 1 opts.maxResults ∧
    (hits.Pairwise fun hit later => later.score ≤ hit.score) ∧
      ∀ hit ∈ hits, (1 ≤ hit.startLine ∧ hit.startLine ≤ hit.endLine) ∧
        (∃ place, foundIn place hit) ∧
          ∀ place, foundIn place hit → leadsBack place → ReadsBack read hit

def PlainPath (file : MemoryFile) : Prop :=
  ∃ path, file.path = OsText.ofString path ∧ '\\' ∉ path.toList ∧
    ¬ pathTraversalPattern.toList <:+: path.toList

/-- The path stays as it is when it is cleaned, and the document is the last one with it. -/
def OwnPath (store : DocumentStore) (doc : SourcedDocument) : Prop :=
  slashed doc.path = doc.path ∧
    InMemoryVectorMemoryManager.docMap store.manager.docs doc.path =
      some doc.toInMemoryDocument

/-! ### The lines of a hit -/

section Lines

variable {text : String} {snippet : Snippet}

theorem exists_buildSnippet {idx : ℕ} (inside : idx < (Systems.lines text.toList).length) :
    ∃ snippet, buildSnippet (Systems.lines text.toList) idx = some snippet ∧ snippet.Of text := by
  have ordered : idx - 1 ≤ min (idx + 1) ((Systems.lines text.toList).length - 1) + 1 := by omega
  have within : min (idx + 1) ((Systems.lines text.toList).length - 1) + 1 ≤
      (Systems.lines text.toList).length := by omega
  simp only [buildSnippet, lineRange, if_pos (And.intro ordered within), Option.map_some,
    Option.some.injEq]
  refine ⟨_, rfl, ⟨?_, ?_, within, rfl⟩⟩
  · exact Nat.le_add_left 1 _
  · simp only
    omega

theorem sliceLines_of_snippet (overflowChecks : Bool) (isOf : snippet.Of text)
    (fits : Fits text) :
    sliceLines overflowChecks text (some (UInt64.ofNat snippet.startLine))
      (some (UInt64.ofNat (snippet.endLine - snippet.startLine + 1))) = some snippet.text := by
  obtain ⟨positive, ordered, within, shows⟩ := isOf
  have bounded : snippet.endLine ≤ usizeMax := within.trans fits
  have first : pageStart (some (UInt64.ofNat snippet.startLine)) = snippet.startLine - 1 := by
    rw [pageStart, Option.getD_some, UInt64.toNat_ofNat_of_lt']
    simp only [usizeMax, u64Max] at bounded
    simp only [UInt64.size]
    omega
  have count : (UInt64.ofNat (snippet.endLine - snippet.startLine + 1)).toNat =
      snippet.endLine - snippet.startLine + 1 := by
    rw [UInt64.toNat_ofNat_of_lt']
    simp only [usizeMax, u64Max] at bounded
    simp only [UInt64.size]
    omega
  have cut := (@sliceLines_eq_iff text (some (UInt64.ofNat snippet.startLine))
    (some (UInt64.ofNat (snippet.endLine - snippet.startLine + 1))) overflowChecks).mpr
      (.inr (by rw [first, Option.map_some, Option.getD_some, count]; omega))
  rw [cut, pageText_eq, first, Option.map_some, Option.getD_some, count, shows, List.drop_take]
  congr 4
  omega

end Lines

/-! ### Ranked hits -/

section Ranks

variable [LinearOrder F] {opts : MemorySearchOptions} {hits : List (MemorySearchResult F)}

theorem mem_of_mem_ranked {hit : MemorySearchResult F} (member : hit ∈ ranked opts hits) :
    hit ∈ hits :=
  (List.perm_insertionSort _ _).mem_iff.mp (List.mem_of_mem_take member)

theorem length_ranked_le : (ranked opts hits).length ≤ max 1 opts.maxResults := by
  rw [ranked, List.length_take, max_comm]
  exact min_le_left _ _

theorem pairwise_ranked :
    (ranked opts hits).Pairwise fun hit later => later.score ≤ hit.score := by
  have sorted := List.pairwise_insertionSort (Order.Preimage hitKey (· ≤ ·)) hits
  refine (List.Pairwise.sublist (List.take_sublist _ _) sorted).imp fun {hit later} before => ?_
  -- the score is the first part of the key
  rcases Prod.Lex.le_iff.mp before with higher | ⟨same, -⟩
  · exact le_of_lt (OrderDual.toDual_lt_toDual.mp higher)
  · exact ge_of_eq (OrderDual.toDual.injective same)

end Ranks

/-! ### The Markdown files -/

namespace MemoryWorkspace

variable {toLowercase : String → String} {scores : ScoreArithmetic F}
  {workspace : MemoryWorkspace} {opts : MemorySearchOptions} {tokens : List String}
  {file : MemoryFile}

theorem files_of_collected (collected : file ∈ workspace.collectMemoryFiles) {path : String}
    (isText : file.path = OsText.ofString path) : workspace.files path = some file.read := by
  rcases List.mem_append.mp collected with root | walked
  · obtain ⟨read, found, rfl⟩ := Option.map_eq_some_iff.mp (Option.mem_toList.mp root)
    have same : memoryFile = path :=
      String.toList_inj.mp (List.map_injective_iff.mpr Sum.inl_injective isText)
    exact same ▸ found
  · exact workspace.walked_files file (List.mem_filter.mp walked).1 path isText

theorem fits_of_collected (collected : file ∈ workspace.collectMemoryFiles) {text : String}
    (reads : file.read = .ok text) : Fits text := by
  rcases List.mem_append.mp collected with root | walked
  · obtain ⟨read, found, rfl⟩ := Option.map_eq_some_iff.mp (Option.mem_toList.mp root)
    exact workspace.fits memoryFile text (reads ▸ found)
  · exact workspace.walked_fits file (List.mem_filter.mp walked).1 text reads

theorem getLast?_of_extension {path : OsText} {ext : OsText} (has : path.extension = some ext)
    (same : ext.EqIgnoreCase markdownExtension) :
    ∀ c, path.getLast? = some (.inl c) → isWhitespace c = false := by
  have ends : ext <:+ path := by
    unfold OsText.extension at has
    simp only at has
    split_ifs at has
    obtain rfl := Option.some_inj.mp has
    exact (List.rtakeWhile_suffix _ _).trans (List.rtakeWhile_suffix _ _)
  intro c last
  obtain ⟨front, rfl⟩ := ends
  have lowered : (ext.map (Sum.map Char.toLower id)).getLast? = some (.inl 'd') := by
    rw [same]
    rfl
  have nonempty : ext ≠ [] := by
    rintro rfl
    cases lowered
  rw [List.getLast?_append_of_ne_nil _ nonempty] at last
  rw [List.getLast?_map, last, Option.map_some, Option.some.injEq, Sum.map_inl,
    Sum.inl.injEq] at lowered
  by_contra blank
  rw [Bool.not_eq_false] at blank
  rw [Char.toLower] at lowered
  split_ifs at lowered with upper
  · -- a capital letter is no white space
    obtain ⟨least, most⟩ := upper
    have least : 65 ≤ c.toNat := least
    have most : c.toNat ≤ 90 := most
    simp only [isWhitespace, Bool.or_eq_true, Bool.and_eq_true, decide_eq_true_eq,
      beq_iff_eq] at blank
    omega
  · subst lowered
    exact absurd blank (by decide)

theorem scope_of_collected (collected : file ∈ workspace.collectMemoryFiles) {path : String}
    (isText : file.path = OsText.ofString path) :
    path = memoryFile ∨ (memoryDir ++ "/").toList <+: path.toList ∧
      ∀ c ∈ path.toList.getLast?, isWhitespace c = false := by
  rcases List.mem_append.mp collected with root | walked
  · obtain ⟨read, found, rfl⟩ := Option.map_eq_some_iff.mp (Option.mem_toList.mp root)
    exact .inl (String.toList_inj.mp (List.map_injective_iff.mpr Sum.inl_injective isText)).symm
  · obtain ⟨member, extended⟩ := List.mem_filter.mp walked
    obtain ⟨rest, below⟩ := workspace.walked_below file member
    refine .inr ⟨?_, fun c last => ?_⟩
    · have begins : OsText.ofString (memoryDir ++ "/") <+: OsText.ofString path :=
        ⟨rest, below.symm.trans isText⟩
      exact (List.prefix_map_iff_of_injective Sum.inl_injective).mp begins
    · cases has : file.path.extension with
      | none =>
        rw [has] at extended
        cases extended
      | some ext =>
        rw [has] at extended
        refine getLast?_of_extension has (of_decide_eq_true extended) c ?_
        rw [isText, OsText.ofString, List.getLast?_map, Option.mem_def.mp last, Option.map_some]

theorem withSlashes_of_not_mem {path : String} (plain : '\\' ∉ path.toList) :
    withSlashes path = path := by
  apply String.toList_inj.mp
  rw [withSlashes, String.toList_ofList]
  refine (List.map_congr_left fun c member => ?_).trans (List.map_id _)
  refine if_neg ?_
  rintro rfl
  exact plain member

theorem valid_of_collected (collected : file ∈ workspace.collectMemoryFiles) {path : String}
    (isText : file.path = OsText.ofString path) (noBackslash : '\\' ∉ path.toList)
    (noDots : ¬ pathTraversalPattern.toList <:+: path.toList) :
    slashed path = path ∧ validateRelPath path = .ok () := by
  have slashes := withSlashes_of_not_mem noBackslash
  rcases scope_of_collected collected isText with rfl | ⟨⟨rest, begins⟩, ends⟩
  · exact ⟨slashed_memoryFile, validateRelPath_memoryFile⟩
  · constructor
    · have first : ∀ c ∈ path.toList.head?, isWhitespace c = false := by
        intro c head
        rw [← begins] at head
        obtain rfl := Option.some_inj.mp head
        decide
      have whole : trim path = path := by
        rw [trim, trimChars_eq_self first ends, String.ofList_toList]
      rw [slashed, whole]
      exact slashes
    · rw [validateRelPath, slashes]
      simp only [bind_unit_eq_ok, refuseIf_eq_ok]
      refine ⟨fun empty => ?_, noDots, fun outside => outside.2 ⟨rest, begins⟩, fun absolute => ?_⟩
      · rw [empty] at begins
        cases begins
      · rw [IsAbsolute, ← begins] at absolute
        cases absolute

theorem readFile_of_plain (overflowChecks : Bool)
    (collected : file ∈ workspace.collectMemoryFiles) (plain : PlainPath file) {text : String}
    (reads : file.read = .ok text) {snippet : Snippet} (isOf : snippet.Of text) :
    workspace.readFile overflowChecks ⟨file.relativePath,
        some (UInt64.ofNat snippet.startLine),
        some (UInt64.ofNat (snippet.endLine - snippet.startLine + 1))⟩ =
      some (.ok ⟨snippet.text, file.relativePath⟩) := by
  obtain ⟨path, isText, noBackslash, noDots⟩ := plain
  have relative : file.relativePath = path := by
    have lossy : file.path.toStringLossy = path := by
      rw [isText, OsText.toStringLossy, OsText.ofString, List.map_map]
      exact (congrArg String.ofList (List.map_id _)).trans String.ofList_toList
    rw [MemoryFile.relativePath, lossy, withSlashes_of_not_mem noBackslash]
  obtain ⟨cleaned, valid⟩ := valid_of_collected collected isText noBackslash noDots
  have cut := sliceLines_of_snippet overflowChecks isOf (fits_of_collected collected reads)
  rw [relative]
  simp only [MarkdownMemoryManager.readFile, cleaned, valid, files_of_collected collected isText,
    reads, cut, Option.map_some]

theorem exists_fileHits (file : MemoryFile) :
    ∃ hits, fileHits toLowercase scores opts tokens file = some hits := by
  unfold fileHits
  cases file.read with
  | error err => exact ⟨[], rfl⟩
  | ok text =>
    refine exists_mapM_iff.mpr fun item member => ?_
    obtain ⟨line, idx⟩ := item
    have inside := List.snd_lt_of_mem_zipIdx (List.mem_of_mem_filter member)
    obtain ⟨snippet, built, -⟩ := @exists_buildSnippet text idx (by simpa using inside)
    refine ⟨lineHit toLowercase scores tokens file line snippet, ?_⟩
    simp only [built, Option.map_some]

theorem snippet_of_fileHits {hits : List (MemorySearchResult F)} {hit : MemorySearchResult F}
    (found : fileHits toLowercase scores opts tokens file = some hits) (member : hit ∈ hits) :
    ∃ text snippet, file.read = .ok text ∧ snippet.Of text ∧
      ∃ line, hit = lineHit toLowercase scores tokens file line snippet := by
  unfold fileHits at found
  cases reads : file.read with
  | error err =>
    rw [reads] at found
    obtain rfl := Option.some_inj.mp found
    cases member
  | ok text =>
    rw [reads] at found
    obtain ⟨⟨line, idx⟩, listed, made⟩ := mem_of_mem_mapM found member
    have inside := List.snd_lt_of_mem_zipIdx (List.mem_of_mem_filter listed)
    obtain ⟨snippet, built, isOf⟩ := @exists_buildSnippet text idx (by simpa using inside)
    simp only [built, Option.map_some, Option.some.injEq] at made
    exact ⟨text, snippet, rfl, isOf, line, made.symm⟩

theorem answersWell_search [LinearOrder F] (overflowChecks : Bool) (query : String) :
    AnswersWell opts (workspace.readFile overflowChecks)
      (FoundIn toLowercase scores workspace opts query) PlainPath
      (search toLowercase scores workspace opts query) := by
  have empty : AnswersWell opts (workspace.readFile overflowChecks)
      (FoundIn toLowercase scores workspace opts query) PlainPath (some (.ok [])) :=
    ⟨[], rfl, Nat.zero_le _, .nil, List.forall_mem_nil _⟩
  unfold search
  by_cases blank : trim query = ""
  · rw [if_pos blank]
    exact empty
  rw [if_neg blank]
  by_cases untold : tokenize toLowercase (trim query) = []
  · rw [if_pos untold]
    exact empty
  rw [if_neg untold]
  obtain ⟨hits, found⟩ := exists_mapM_iff.mpr fun file (_ : file ∈ workspace.collectMemoryFiles) =>
    @exists_fileHits _ toLowercase scores opts (tokenize toLowercase (trim query)) file
  refine ⟨ranked opts hits.flatten, by rw [found]; rfl, length_ranked_le, pairwise_ranked,
    fun hit member => ?_⟩
  obtain ⟨part, listed, inPart⟩ := List.mem_flatten.mp (mem_of_mem_ranked member)
  obtain ⟨file, collected, ofFile⟩ := mem_of_mem_mapM found listed
  obtain ⟨text, snippet, reads, isOf, line, rfl⟩ := snippet_of_fileHits ofFile inPart
  refine ⟨⟨isOf.positive, isOf.ordered⟩, ⟨file, collected, part, ofFile, inPart⟩, ?_⟩
  rintro other ⟨collected', hits', ofOther, inOther⟩ plain
  obtain ⟨text', snippet', reads', isOf', line', same⟩ := snippet_of_fileHits ofOther inOther
  rw [same]
  exact readFile_of_plain overflowChecks collected' plain reads' isOf'

end MemoryWorkspace

/-! ### The documents -/

namespace DocumentStore

variable [LinearOrder F] {toLowercase : String → String} {scores : ScoreArithmetic F}
  {store : DocumentStore} {opts : MemorySearchOptions} {queryTokens : Finset String}
  {doc : SourcedDocument}

theorem lines_ne_nil_of_tokenSet {text : String} (told : tokenSet toLowercase text ≠ ∅) :
    Systems.lines text.toList ≠ [] := by
  refine Systems.lines_ne_nil fun empty => told ?_
  rw [tokenSet, tokenize, empty]
  rfl

theorem docHit_cases (queryTokens : Finset String) (doc : SourcedDocument) :
    docHit toLowercase scores opts queryTokens doc = some none ∨
      ∃ snippet : Snippet, snippet.Of doc.text ∧ ∃ hit,
        docHit toLowercase scores opts queryTokens doc = some (some hit) ∧
          hit.path = doc.path ∧ hit.startLine = snippet.startLine ∧
            hit.endLine = snippet.endLine ∧ hit.snippet = snippet.text := by
  unfold docHit
  simp only
  split_ifs with low few
  · exact .inl rfl
  · exact .inl rfl
  · have told : tokenSet toLowercase doc.text ≠ ∅ := by
      intro untold
      rw [computeSimilarity, if_pos (.inr untold)] at low
      exact low le_rfl
    have rows := lines_ne_nil_of_tokenSet told
    have inside : ((Systems.lines doc.text.toList).findIdx? fun line =>
        decide (∃ token ∈ queryTokens, Contains toLowercase line token)).getD 0 <
          (Systems.lines doc.text.toList).length := by
      cases first : (Systems.lines doc.text.toList).findIdx? fun line =>
          decide (∃ token ∈ queryTokens, Contains toLowercase line token) with
      | none => exact List.length_pos_iff.mpr rows
      | some idx => exact (List.findIdx?_eq_some_iff_getElem.mp first).1
    obtain ⟨snippet, built, isOf⟩ := exists_buildSnippet inside
    refine .inr ⟨snippet, isOf, ?_⟩
    rw [docSnippet, if_neg rows, built]
    exact ⟨_, rfl, rfl, rfl, rfl, rfl⟩

theorem readFile_of_ownPath (overflowChecks : Bool) (own : OwnPath store doc) {snippet : Snippet}
    (isOf : snippet.Of doc.text) :
    store.manager.readFile overflowChecks ⟨doc.path, some (UInt64.ofNat snippet.startLine),
        some (UInt64.ofNat (snippet.endLine - snippet.startLine + 1))⟩ =
      some (.ok ⟨snippet.text, doc.path⟩) := by
  obtain ⟨cleaned, last⟩ := own
  have cut := sliceLines_of_snippet overflowChecks isOf doc.fits
  simp only [InMemoryVectorMemoryManager.readFile, cleaned, last, cut, Option.map_some]

theorem answersWell_search (overflowChecks : Bool) (query : String) :
    AnswersWell opts (store.manager.readFile overflowChecks)
      (FoundIn toLowercase scores store opts query) (OwnPath store)
      (search toLowercase scores store opts query) := by
  have empty : AnswersWell opts (store.manager.readFile overflowChecks)
      (FoundIn toLowercase scores store opts query) (OwnPath store) (some (.ok [])) :=
    ⟨[], rfl, Nat.zero_le _, .nil, List.forall_mem_nil _⟩
  unfold search
  by_cases blank : trim query = ""
  · rw [if_pos blank]
    exact empty
  rw [if_neg blank]
  by_cases untold : tokenSet toLowercase (trim query) = ∅
  · rw [if_pos untold]
    exact empty
  rw [if_neg untold]
  obtain ⟨hits, found⟩ := exists_mapM_iff.mpr fun doc (_ : doc ∈ store.docs) => by
    rcases @docHit_cases _ _ toLowercase scores opts (tokenSet toLowercase (trim query)) doc with
      none | ⟨_, _, hit, some, _⟩
    · exact ⟨_, none⟩
    · exact ⟨_, some⟩
  refine ⟨ranked opts (hits.filterMap id), by rw [found]; rfl, length_ranked_le, pairwise_ranked,
    fun hit member => ?_⟩
  obtain ⟨_, listed, rfl⟩ := List.mem_filterMap.mp (mem_of_mem_ranked member)
  obtain ⟨doc, held, ofDoc⟩ := mem_of_mem_mapM found listed
  have shows {other : SourcedDocument} (ofOther : docHit toLowercase scores opts
      (tokenSet toLowercase (trim query)) other = some (some hit)) :
      ∃ snippet : Snippet, snippet.Of other.text ∧ hit.path = other.path ∧
        hit.startLine = snippet.startLine ∧ hit.endLine = snippet.endLine ∧
          hit.snippet = snippet.text := by
    rcases @docHit_cases _ _ toLowercase scores opts (tokenSet toLowercase (trim query)) other with
      none | ⟨snippet, isOf, hit', some, same⟩
    · rw [none] at ofOther
      cases ofOther
    · obtain rfl := Option.some_inj.mp (Option.some_inj.mp (some.symm.trans ofOther))
      exact ⟨snippet, isOf, same⟩
  obtain ⟨snippet, isOf, -, first, last, -⟩ := shows ofDoc
  refine ⟨⟨first ▸ isOf.positive, first ▸ last ▸ isOf.ordered⟩, ⟨doc, held, ofDoc⟩, ?_⟩
  rintro other ⟨-, ofOther⟩ own
  obtain ⟨snippet', isOf', path, first', last', text⟩ := shows ofOther
  rw [ReadsBack, path, first', last', text]
  exact readFile_of_ownPath overflowChecks own isOf'

end DocumentStore

/-- **Memory hits.** A search of either manager answers with no more hits than were asked for, the
best ones first; each shows some lines of the file or the document that it was found in, and reads
back as it is where its path leads back. -/
theorem memory_hits_read_back [LinearOrder F] (toLowercase : String → String)
    (scores : ScoreArithmetic F) (overflowChecks : Bool) (opts : MemorySearchOptions)
    (query : String) (workspace : MemoryWorkspace) (store : DocumentStore) :
    AnswersWell opts (workspace.readFile overflowChecks)
        (workspace.FoundIn toLowercase scores opts query) PlainPath
        (workspace.search toLowercase scores opts query) ∧
      AnswersWell opts (store.manager.readFile overflowChecks)
        (store.FoundIn toLowercase scores opts query) (OwnPath store)
        (store.search toLowercase scores opts query) :=
  ⟨MemoryWorkspace.answersWell_search overflowChecks query,
    DocumentStore.answersWell_search overflowChecks query⟩

/-! ### Hits that lead elsewhere -/

def thousandths : ScoreArithmetic ℕ where
  zero := 0
  ratio matched total := 1000 * matched / total
  below score least := score < least

theorem fits_router : Fits "router" := by
  unfold Fits
  decide

theorem fits_empty : Fits "" := by
  unfold Fits
  decide

def workspaceWith (name : String) : MemoryWorkspace where
  files path := if path = "memory/" ++ name then some (.ok "router") else none
  walked := [⟨OsText.ofString ("memory/" ++ name), .ok "router"⟩]
  walked_below file member := by
    obtain rfl := List.mem_singleton.mp member
    refine ⟨OsText.ofString name, ?_⟩
    rw [OsText.ofString, String.toList_append, List.map_append]
    rfl
  walked_files file member path isText := by
    obtain rfl := List.mem_singleton.mp member
    exact if_pos (String.toList_inj.mp (List.map_injective_iff.mpr Sum.inl_injective isText)).symm
  walked_fits file member text reads := by
    obtain rfl := List.mem_singleton.mp member
    obtain rfl := Except.ok.inj reads
    exact fits_router
  fits path text found := by
    split_ifs at found
    obtain rfl := Except.ok.inj (Option.some_inj.mp found)
    exact fits_router

def routerDocument (path : String) : SourcedDocument := ⟨⟨path, "router"⟩, .memory, fits_router⟩

def emptyDocument (path : String) : SourcedDocument := ⟨⟨path, ""⟩, .memory, fits_empty⟩

/-- The only hit on `router`. -/
def routerHit (path : String) : MemorySearchResult ℕ where
  path
  startLine := 1
  endLine := 1
  score := 1000
  snippet := "router"
  source := .memory
  citation := some (path ++ "#1")

theorem not_answersWell [LinearOrder F] {S : Type} {opts : MemorySearchOptions}
    {read : MemoryReadParams → ReadOutcome} {foundIn : S → MemorySearchResult F → Prop}
    {outcome : SearchOutcome F} {hit : MemorySearchResult F} (found : outcome = some (.ok [hit]))
    (lost : ¬ ReadsBack read hit) : ¬ AnswersWell opts read foundIn (fun _ => True) outcome := by
  rintro ⟨hits, answered, -, -, each⟩
  obtain rfl := Except.ok.inj (Option.some_inj.mp (found.symm.trans answered))
  obtain ⟨-, ⟨place, isIn⟩, back⟩ := each hit List.mem_cons_self
  exact lost (back place isIn trivial)

/-- A name with two dots is refused, and a name with a backslash leads to another file. A later
document with the path is read in place of the one that was found, and a blank in front of a path
is lost. -/
theorem hits_read_elsewhere :
    (∀ name ∈ ["a..b.md", "a\\b.md"],
      ¬ AnswersWell ⟨5, 0⟩ ((workspaceWith name).readFile true)
        ((workspaceWith name).FoundIn toAsciiLowercase thousandths ⟨5, 0⟩ "router") (fun _ => True)
        ((workspaceWith name).search toAsciiLowercase thousandths ⟨5, 0⟩ "router")) ∧
      ∀ store ∈ [DocumentStore.mk [routerDocument "a.md", emptyDocument "a.md"],
          DocumentStore.mk [routerDocument " a.md"]],
        ¬ AnswersWell ⟨5, 0⟩ (store.manager.readFile true)
          (store.FoundIn toAsciiLowercase thousandths ⟨5, 0⟩ "router") (fun _ => True)
          (store.search toAsciiLowercase thousandths ⟨5, 0⟩ "router") := by
  constructor
  · intro name member
    rcases List.mem_pair.mp member with rfl | rfl
    · apply @not_answersWell _ _ _ _ _ _ _ (routerHit "memory/a..b.md")
      · decide +kernel
      · unfold ReadsBack
        decide +kernel
    · apply @not_answersWell _ _ _ _ _ _ _ (routerHit "memory/a/b.md")
      · decide +kernel
      · unfold ReadsBack
        decide +kernel
  · intro store member
    rcases List.mem_pair.mp member with rfl | rfl
    · apply @not_answersWell _ _ _ _ _ _ _ (routerHit "a.md")
      · decide +kernel
      · unfold ReadsBack
        decide +kernel
    · apply @not_answersWell _ _ _ _ _ _ _ (routerHit " a.md")
      · decide +kernel
      · unfold ReadsBack
        decide +kernel

end KelvinClaw.Memory
