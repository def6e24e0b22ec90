import Mathlib.Data.List.Basic
import Mathlib.Data.List.Infix

/-!
# Paths and the places they lead to

A path is a text. Its components are the texts between the separators, without the empty ones
and without the dot. Following a path from a place in the tree of directories, a component
leads to the entry of that name, and two dots lead back to the parent; the parent of the root
is the root. No entry is a symbolic link.
-/

namespace Systems

/-- A place in the tree of directories: the names from the root down. -/
abbrev Location := List String

/-! ### Components -/

/-- The texts between the separators. -/
def segments : List Char → List (List Char)
  | [] => [[]]
  | c :: rest =>
    if c = '/' then [] :: segments rest
    else
      match segments rest with
      | [] => [[c]]
      | first :: others => (c :: first) :: others

theorem segments_ne_nil (path : List Char) : segments path ≠ [] := by
  cases path with
  | nil => exact List.cons_ne_nil _ _
  | cons c rest =>
    rw [segments]
    split_ifs
    · exact List.cons_ne_nil _ _
    · cases segments rest <;> exact List.cons_ne_nil _ _

theorem segments_append_separator (path rest : List Char) :
    segments (path ++ '/' :: rest) = segments path ++ segments rest := by
  induction path with
  | nil => rfl
  | cons c path ih =>
    simp only [List.cons_append, segments, ih]
    split_ifs
    · rfl
    · cases parts : segments path with
      | nil => exact absurd parts (segments_ne_nil path)
      | cons first others => rfl

theorem segments_of_not_mem {text : List Char} (plain : '/' ∉ text) : segments text = [text] := by
  induction text with
  | nil => rfl
  | cons c rest ih =>
    obtain ⟨here, later⟩ := List.ne_and_not_mem_of_not_mem_cons plain
    rw [segments, if_neg (Ne.symm here), ih later]

/-- The segments of a path begin with those of another one if it is that path, or goes on behind it
with a separator. -/
theorem segments_prefix_iff {base path : List Char} :
    segments base <+: segments path ↔ base = path ∨ base ++ ['/'] <+: path := by
  constructor
  · intro begins
    induction base generalizing path with
    | nil =>
      cases path with
      | nil => exact .inl rfl
      | cons c rest =>
        rw [segments, segments] at begins
        split_ifs at begins with separator
        · exact .inr ⟨rest, by rw [separator]; rfl⟩
        · cases parts : segments rest with
          | nil => exact absurd parts (segments_ne_nil rest)
          | cons first others => simp [parts] at begins
    | cons c base ih =>
      -- both paths begin with the same character, or their first segments differ
      cases path with
      | nil =>
        simp only [segments] at begins
        split_ifs at begins
        · exact absurd (List.prefix_nil.mp ((List.cons_prefix_cons.mp begins).2))
            (segments_ne_nil base)
        · cases parts : segments base <;> simp [parts] at begins
      | cons d rest =>
        have further : c = d → segments base <+: segments rest →
            c :: base = d :: rest ∨ c :: base ++ ['/'] <+: d :: rest := by
          rintro rfl begins
          rcases ih begins with rfl | begins
          · exact .inl rfl
          · exact .inr (List.cons_prefix_cons.mpr ⟨rfl, begins⟩)
        rw [segments, segments] at begins
        split_ifs at begins with hereSeparator thereSeparator thereSeparator
        · exact further (hereSeparator.trans thereSeparator.symm)
            (List.cons_prefix_cons.mp begins).2
        · cases parts : segments rest with
          | nil => exact absurd parts (segments_ne_nil rest)
          | cons first others => simp [parts] at begins
        · cases parts : segments base <;> simp [parts] at begins
        · cases baseParts : segments base with
          | nil => exact absurd baseParts (segments_ne_nil base)
          | cons baseFirst baseOthers =>
            cases parts : segments rest with
            | nil => exact absurd parts (segments_ne_nil rest)
            | cons first others =>
              simp only [baseParts, parts, List.cons_prefix_cons, List.cons.injEq] at begins
              obtain ⟨⟨sameChar, sameFirst⟩, others⟩ := begins
              refine further sameChar ?_
              rw [baseParts, parts, List.cons_prefix_cons]
              exact ⟨sameFirst, others⟩
  · rintro (rfl | ⟨rest, rfl⟩)
    · exact List.prefix_rfl
    · rw [List.append_assoc, List.singleton_append, segments_append_separator]
      exact List.prefix_append _ _

def components (path : String) : List String :=
  ((segments path.toList).map String.ofList).filter fun part => part ≠ "" ∧ part ≠ "."

theorem components_prefix_of_segments {base path : String}
    (begins : segments base.toList <+: segments path.toList) :
    components base <+: components path :=
  (begins.map String.ofList).filter _

theorem mem_of_mem_segments {path segment : List Char} (part : segment ∈ segments path) {c : Char}
    (member : c ∈ segment) : c ∈ path := by
  induction path generalizing segment with
  | nil =>
    obtain rfl := List.mem_singleton.mp part
    exact member
  | cons d path ih =>
    rw [segments] at part
    split_ifs at part
    · rcases List.mem_cons.mp part with rfl | part
      · cases member
      · exact List.mem_cons_of_mem d (ih part member)
    · cases parts : segments path with
      | nil => exact absurd parts (segments_ne_nil path)
      | cons first others =>
        simp only [parts] at part ih
        rcases List.mem_cons.mp part with rfl | part
        · rcases List.mem_cons.mp member with rfl | member
          · exact List.mem_cons_self
          · exact List.mem_cons_of_mem d (ih List.mem_cons_self member)
        · exact List.mem_cons_of_mem d (ih (List.mem_cons_of_mem first part) member)

theorem mem_of_mem_components {path part : String} (component : part ∈ components path) {c : Char}
    (member : c ∈ part.toList) : c ∈ path.toList := by
  obtain ⟨segment, isSegment, rfl⟩ := List.mem_map.mp (List.mem_of_mem_filter component)
  rw [String.toList_ofList] at member
  exact mem_of_mem_segments isSegment member

/-- A text that names an entry of a directory. -/
structure IsName (text : String) : Prop where
  nonempty : text ≠ ""
  not_dot : text ≠ "."
  not_dots : text ≠ ".."
  plain : '/' ∉ text.toList

instance (text : String) : Decidable (IsName text) :=
  decidable_of_iff (text ≠ "" ∧ text ≠ "." ∧ text ≠ ".." ∧ '/' ∉ text.toList)
    ⟨fun ⟨nonempty, notDot, notDots, plain⟩ => ⟨nonempty, notDot, notDots, plain⟩,
      fun name => ⟨name.nonempty, name.not_dot, name.not_dots, name.plain⟩⟩

theorem components_of_isName {text : String} (name : IsName text) : components text = [text] := by
  rw [components, segments_of_not_mem name.plain]
  simp [name.nonempty, name.not_dot]

/-! ### Joining -/

def IsAbsolute (path : String) : Prop := path.toList.head? = some '/'

instance (path : String) : Decidable (IsAbsolute path) := inferInstanceAs (Decidable (_ = _))

/-- A path below `base`. An absolute path replaces it. -/
def join (base path : String) : String :=
  if IsAbsolute path then path
  else if base.toList.getLast? = none ∨ base.toList.getLast? = some '/' then base ++ path
  else base ++ "/" ++ path

theorem components_join {base path : String} (relative : ¬ IsAbsolute path) :
    components (join base path) = components base ++ components path := by
  rw [join, if_neg relative]
  split_ifs with ended
  · rcases ended with empty | separator
    · have nil : base.toList = [] := List.getLast?_eq_none_iff.mp empty
      simp [components, nil, segments]
    · obtain ⟨above, split⟩ := List.getLast?_eq_some_iff.mp separator
      have whole : above ++ ['/'] ++ path.toList = above ++ '/' :: path.toList := by simp
      simp only [components, String.toList_append, split, whole, segments_append_separator,
        List.map_append, List.filter_append, List.append_assoc]
      rfl
  · have whole : (base ++ "/" ++ path).toList = base.toList ++ '/' :: path.toList := by simp
    simp only [components, whole, segments_append_separator, List.map_append, List.filter_append]

/-- A path ends as its last part does. -/
theorem getLast?_segments_join {base path : String} (relative : ¬ IsAbsolute path) :
    (segments (join base path).toList).getLast? = (segments path.toList).getLast? := by
  have ends : ∀ above : List Char, (segments (above ++ '/' :: path.toList)).getLast? =
      (segments path.toList).getLast? := by
    intro above
    rw [segments_append_separator, List.getLast?_append_of_ne_nil _ (segments_ne_nil _)]
  rw [join, if_neg relative]
  split_ifs with ended
  · rcases ended with empty | separator
    · rw [String.toList_append, List.getLast?_eq_none_iff.mp empty, List.nil_append]
    · obtain ⟨above, split⟩ := List.getLast?_eq_some_iff.mp separator
      rw [String.toList_append, split, List.append_assoc, List.singleton_append, ends]
  · have whole : (base ++ "/" ++ path).toList = base.toList ++ '/' :: path.toList := by simp
    rw [whole, ends]

theorem isAbsolute_join {base path : String} (relative : ¬ IsAbsolute path) :
    IsAbsolute (join base path) ↔ IsAbsolute base := by
  rw [join, if_neg relative]
  cases base : base.toList with
  | nil => simp_all [IsAbsolute]
  | cons c rest => split_ifs <;> simp [IsAbsolute, base]

/-! ### Following -/

def follow (place : Location) (part : String) : Location :=
  if part = ".." then place.dropLast else place ++ [part]

/-- Where components lead. -/
def resolve (start : Location) (parts : List String) : Location := parts.foldl follow start

/-- The entries that components pass through, with the last one. -/
def entered (start : Location) : List String → List Location
  | [] => []
  | part :: rest =>
    if part = ".." then entered start.dropLast rest
    else (start ++ [part]) :: entered (start ++ [part]) rest

theorem resolve_append (start : Location) (parts rest : List String) :
    resolve start (parts ++ rest) = resolve (resolve start parts) rest :=
  List.foldl_append

theorem resolve_of_isName {start : Location} {text : String} (name : IsName text) :
    resolve start [text] = start ++ [text] :=
  if_neg name.not_dots

/-- Without two dots, components lead down. -/
theorem resolve_of_down {start : Location} {parts : List String} (down : ".." ∉ parts) :
    resolve start parts = start ++ parts := by
  induction parts generalizing start with
  | nil => exact (List.append_nil start).symm
  | cons part rest ih =>
    obtain ⟨here, later⟩ := List.ne_and_not_mem_of_not_mem_cons down
    rw [resolve, List.foldl_cons, follow, if_neg (Ne.symm here), ← resolve, ih later,
      List.append_assoc, List.singleton_append]

/-- Without two dots, what is passed lies between the start and the end. -/
theorem length_of_mem_entered {start : Location} {parts : List String} (down : ".." ∉ parts)
    {place : Location} (passed : place ∈ entered start parts) :
    place.length ≤ (resolve start parts).length := by
  have grows : ∀ {parts : List String} (start : Location), ".." ∉ parts →
      start.length ≤ (resolve start parts).length := by
    intro parts
    induction parts with
    | nil => exact fun start _ => Nat.le_refl _
    | cons part rest ih =>
      intro start down
      obtain ⟨here, later⟩ := List.ne_and_not_mem_of_not_mem_cons down
      have further := ih (start ++ [part]) later
      rw [List.length_append] at further
      rw [resolve, List.foldl_cons, follow, if_neg (Ne.symm here)]
      exact Nat.le_trans (Nat.le_add_right _ _) further
  induction parts generalizing start with
  | nil => cases passed
  | cons part rest ih =>
    obtain ⟨here, later⟩ := List.ne_and_not_mem_of_not_mem_cons down
    rw [resolve, List.foldl_cons, follow, if_neg (Ne.symm here)]
    rw [entered, if_neg (Ne.symm here)] at passed
    rcases List.mem_cons.mp passed with rfl | passed
    · exact grows _ later
    · exact ih later passed

/-- What lies above the end lies above the start, or is passed on the way. -/
theorem mem_entered_of_prefix {start place : Location} {parts : List String}
    (up : place <+: resolve start parts) : place <+: start ∨ place ∈ entered start parts := by
  induction parts generalizing start with
  | nil => exact .inl up
  | cons part rest ih =>
    rw [resolve, List.foldl_cons, follow] at up
    rw [entered]
    split_ifs at up ⊢ with dots
    · exact (ih up).imp_left fun above => above.trans (List.dropLast_prefix start)
    · rcases ih up with above | passed
      · rcases List.prefix_concat_iff.mp above with rfl | above
        · exact .inr List.mem_cons_self
        · exact .inl above
      · exact .inr (List.mem_cons_of_mem _ passed)

/-- Where a path starts from. -/
def origin (workingDir : Location) (path : String) : Location :=
  if IsAbsolute path then [] else workingDir

/-- Where a path leads. -/
def locate (workingDir : Location) (path : String) : Location :=
  resolve (origin workingDir path) (components path)

theorem origin_join {workingDir : Location} {base path : String} (relative : ¬ IsAbsolute path) :
    origin workingDir (join base path) = origin workingDir base := by
  simp only [origin, isAbsolute_join relative]

/-- A relative path is followed from where the base leads. -/
theorem locate_join {workingDir : Location} {base path : String} (relative : ¬ IsAbsolute path) :
    locate workingDir (join base path) =
      resolve (locate workingDir base) (components path) := by
  rw [locate, origin_join relative, components_join relative, resolve_append, locate]

end Systems
