import KelvinClaw.Cli.PluginIndex
import KelvinClaw.Core.Decimal
import KelvinClaw.Plugin.Installed
import KelvinClaw.Registry.Index

/-!
# The latest version of a plugin

Four places say what the latest version of a plugin is. The registry and the loader compare semantic
versions. The command line compares the numbers of two versions and takes the last of several
entries with the greatest numbers, whatever comes after the numbers; and an update installs what the
command line takes for the latest, also over a greater version.
-/

namespace KelvinClaw.Registry

open KelvinClaw.Core KelvinClaw.Plugin KelvinClaw.Cli Systems

variable {V : Type} [LinearOrder V] (crate : SemverCrate V)

/-! ### The index as the command line gets it -/

def entryJson (entry : PluginIndexEntry) : Value :=
  Value.object [("id", .str entry.id), ("version", .str entry.version),
    ("package_url", .str entry.packageUrl), ("sha256", .str entry.sha256),
    ("trust_policy_url", Value.ofOption entry.trustPolicyUrl),
    ("quality_tier", Value.ofOption entry.qualityTier), ("tags", .arr (entry.tags.map .str))]

def indexJson (index : PluginIndex) : Value :=
  Value.object [("schema_version", .str index.schemaVersion),
    ("plugins", .arr (index.plugins.map entryJson))]

def entriesOfId (index : PluginIndex) (id : String) : List PluginIndexEntry :=
  index.plugins.filter fun entry => entry.id = id

/-! ### The loader -/

/-- A plugin directory: the target of the symbolic link `current`, if it is one, the entries in the
order in which they are read, with whether they are directories, and which relative paths lead to
directories. -/
structure PluginDir where
  current : Option String
  entries : List (String × Bool)
  isDir : String → Bool

/-- One round of the loop of `resolve_version_dir`. -/
def considerEntry (best : Option (V × String)) (entry : String × Bool) : Option (V × String) :=
  if entry.2 = false then best
  else if entry.1 = "current" then best
  else
    match crate.parse entry.1 with
    | none => best
    | some version =>
      match best with
      | some (bestVersion, name) =>
        if version ≤ bestVersion then some (bestVersion, name) else some (version, entry.1)
      | none => some (version, entry.1)

def resolveVersionDir (pluginDir : String) (dir : PluginDir) : KelvinResult String :=
  let current := join pluginDir "current"
  match dir.current with
  | some target => do
    let normalized ← normalizeSafeRelativePath target "current symlink target"
    refuseIf (dir.isDir normalized = false)
      (.invalidInput s!"plugin current symlink points to missing directory: {current}")
    .ok (join pluginDir normalized)
  | none =>
    match dir.entries.foldl (considerEntry crate) none with
    | some (_, name) => .ok (join pluginDir name)
    | none => .error (.invalidInput s!"plugin '{pluginDir}' has no version directories")

/-! ### What the latest version should be -/

def Lower (a b : String) : Prop :=
  ∃ x y, crate.parse a = some x ∧ crate.parse b = some y ∧ x < y

def AtMost (a b : String) : Prop :=
  ∃ x y, crate.parse a = some x ∧ crate.parse b = some y ∧ x ≤ y

/-- The version is the latest of the plugin for the command line, the registry and the loader. -/
structure IsLatest (index : PluginIndex) (id version : String) : Prop where
  greatest : (∃ entry ∈ entriesOfId index id, entry.version = version) ∧
    ∀ entry ∈ entriesOfId index id, AtMost crate entry.version version
  registry : ∀ text, trimOption (some text) = some id →
    ∃ entry, (plugins crate index ⟨some text, none, none, some true⟩).plugins = [entry] ∧
      entry.id = id ∧ entry.version = version
  loader : ∀ (pluginDir : String) (dir : PluginDir), dir.current = none →
    (∀ name, (name, true) ∈ dir.entries ↔ ∃ entry ∈ entriesOfId index id, entry.version = name) →
    resolveVersionDir crate pluginDir dir = .ok (join pluginDir version)

/-- What the command line selects without a version is the latest, and an update from `current`
does not go back. -/
structure LatestAgrees (index : PluginIndex) (id current : String) (only : Option String)
    (dryRun : Bool) : Prop where
  selected : ∀ entry, selectPluginEntry (indexJson index) id none = .ok entry →
    ∃ version, stringAt "version" entry = some version ∧ IsLatest crate index id version
  forward : ∀ latest,
    planUpdate (index.plugins.map entryJson) only dryRun id current = some latest →
      ¬ Lower crate latest.version current

/-! ### Reading the index -/

section Reading

variable (entry : PluginIndexEntry)

theorem stringAt_id_entryJson : stringAt "id" (entryJson entry) = some entry.id := by
  simp [stringAt, entryJson, Value.object, Value.get, Value.lookup_insertMember_of_ne, Value.asStr]

theorem stringAt_version_entryJson : stringAt "version" (entryJson entry) = some entry.version := by
  simp [stringAt, entryJson, Value.object, Value.get, Value.lookup_insertMember_of_ne, Value.asStr]

theorem stringAt_packageUrl_entryJson :
    stringAt "package_url" (entryJson entry) = some entry.packageUrl := by
  simp [stringAt, entryJson, Value.object, Value.get, Value.lookup_insertMember_of_ne, Value.asStr]

theorem stringAt_sha256_entryJson : stringAt "sha256" (entryJson entry) = some entry.sha256 := by
  simp [stringAt, entryJson, Value.object, Value.get, Value.lookup_insertMember_of_ne, Value.asStr]

end Reading

theorem indexPlugins_indexJson (index : PluginIndex) :
    indexPlugins (indexJson index) = .ok (index.plugins.map entryJson) := by
  simp [indexPlugins, indexJson, Value.object, Value.get, Value.asArray, orBail]

theorem entriesOf_map_entryJson (index : PluginIndex) (id : String) :
    entriesOf id (index.plugins.map entryJson) = (entriesOfId index id).map entryJson := by
  rw [entriesOf, List.filter_map, entriesOfId]
  refine congrArg _ (List.filter_congr fun entry _ => ?_)
  simp [stringAt_id_entryJson]

/-! ### What the command line takes -/

theorem eq_nil_of_maxBy {α : Type} {cmp : α → α → Ordering} {items : List α}
    (none : maxBy cmp items = none) : items = [] := by
  cases items with
  | nil => rfl
  | cons first rest => cases none

theorem maxBy_concat {α : Type} {cmp : α → α → Ordering} {items : List α} {best : α} {item : α}
    (greatest : maxBy cmp items = some best) :
    maxBy cmp (items ++ [item]) = some (if cmp best item = .gt then best else item) := by
  cases items with
  | nil => cases greatest
  | cons first rest =>
    obtain rfl := Option.some.inj greatest
    rw [List.cons_append, maxBy, List.foldl_concat]

theorem mem_of_maxBy {α : Type} {cmp : α → α → Ordering} {items : List α} {best : α}
    (greatest : maxBy cmp items = some best) : best ∈ items := by
  induction items using List.reverseRecOn generalizing best with
  | nil => cases greatest
  | append_singleton items item ih =>
    cases held : maxBy cmp items with
    | none =>
      obtain rfl := eq_nil_of_maxBy held
      obtain rfl := Option.some.inj greatest
      exact List.mem_singleton.mpr rfl
    | some other =>
      rw [maxBy_concat held] at greatest
      obtain rfl := Option.some.inj greatest
      split_ifs
      · exact List.mem_append_left _ (ih held)
      · exact List.mem_append_right _ (List.mem_singleton.mpr rfl)

theorem maxBy_eq_some_iff {α : Type} {cmp : α → α → Ordering} [Std.TransCmp cmp] {items : List α}
    {item : α} : maxBy cmp items = some item ↔ ∃ before after, items = before ++ item :: after ∧
      (∀ other ∈ before, (cmp other item).isLE) ∧ ∀ other ∈ after, cmp item other = .gt := by
  constructor
  · intro greatest
    -- by the last item: it replaces the held one unless that one is greater
    induction items using List.reverseRecOn generalizing item with
    | nil => cases greatest
    | append_singleton items last ih =>
      cases best : maxBy cmp items with
      | none =>
        obtain rfl := eq_nil_of_maxBy best
        obtain rfl := Option.some.inj greatest
        exact ⟨[], [], rfl, List.forall_mem_nil _, List.forall_mem_nil _⟩
      | some held =>
        rw [maxBy_concat best] at greatest
        obtain ⟨before, after, rfl, below, above⟩ := ih best
        obtain rfl := Option.some.inj greatest
        split_ifs with greater
        · refine ⟨before, after ++ [last], by simp, below, ?_⟩
          exact List.forall_mem_append.mpr ⟨above, List.forall_mem_singleton.mpr greater⟩
        · have atMost : (cmp held last).isLE := by
            cases order : cmp held last <;> simp_all
          refine ⟨before ++ held :: after, [], rfl, ?_, List.forall_mem_nil _⟩
          refine List.forall_mem_append.mpr ⟨fun other member =>
            Std.TransCmp.isLE_trans (below other member) atMost, ?_⟩
          refine List.forall_mem_cons.mpr ⟨atMost, fun other member => ?_⟩
          have lower := Std.OrientedCmp.lt_of_gt (above other member)
          rw [Std.TransCmp.lt_of_lt_of_isLE lower atMost]
          rfl
  · rintro ⟨before, after, rfl, below, above⟩
    induction after using List.reverseRecOn with
    | nil =>
      cases best : maxBy cmp before with
      | none =>
        obtain rfl := eq_nil_of_maxBy best
        rfl
      | some held =>
        have member : held ∈ before := mem_of_maxBy best
        rw [maxBy_concat best, if_neg]
        intro greater
        have atMost := below held member
        rw [greater] at atMost
        cases atMost
    | append_singleton after last ih =>
      obtain ⟨aboveAfter, aboveLast⟩ := List.forall_mem_append.mp above
      have held := ih aboveAfter
      rw [← List.cons_append, ← List.append_assoc, maxBy_concat held,
        if_pos (aboveLast last (List.mem_singleton.mpr rfl))]

/-! ### Numbers of versions -/

theorem upTo_upTo_append {numbers suffix : List Char}
    (plain : ∀ c ∈ numbers, c ≠ '+' ∧ c ≠ '-') (signed : ∀ c ∈ suffix.head?, c = '-' ∨ c = '+') :
    upTo '-' (upTo '+' (numbers ++ suffix)) = numbers := by
  have cut : upTo '-' (upTo '+' suffix) = [] := by
    cases suffix with
    | nil => rfl
    | cons c rest =>
      rcases signed c rfl with rfl | rfl <;> rfl
  rw [upTo, upTo, List.takeWhile_append_of_pos (by simpa using fun c member => (plain c member).1),
    List.takeWhile_append_of_pos (by simpa using fun c member => (plain c member).2)]
  exact (congrArg (numbers ++ ·) cut).trans (List.append_nil numbers)

theorem versionParts_of_parse {text : String} {version : V}
    (parsed : crate.parse text = some version) :
    versionParts text = [crate.major version, crate.minor version, crate.patch version] := by
  obtain ⟨majorFits, minorFits, patchFits⟩ := crate.fits parsed
  let parts := [(toString (crate.major version)).toList, (toString (crate.minor version)).toList,
    (toString (crate.patch version)).toList]
  have chars : text.toList = ['.'].intercalate parts ++ (crate.suffix version).toList := by
    have dot : (toString ".").toList = ['.'] := rfl
    rw [crate.spelled parsed]
    simp [parts, List.intercalate, dot]
  have plain : ∀ c ∈ ['.'].intercalate parts, c ≠ '+' ∧ c ≠ '-' := by
    have digits : ∀ n : ℕ, ∀ c ∈ (toString n).toList, c ≠ '+' ∧ c ≠ '-' := fun n c member =>
      ⟨fun plus => not_mem_toString rfl (plus ▸ member),
        fun minus => not_mem_toString rfl (minus ▸ member)⟩
    have whole : ['.'].intercalate parts = (toString (crate.major version)).toList ++ '.' ::
        ((toString (crate.minor version)).toList ++ '.' ::
          (toString (crate.patch version)).toList) := by
      simp [parts, List.intercalate]
    rw [whole]
    refine List.forall_mem_append.mpr ⟨digits _, List.forall_mem_cons.mpr ⟨by decide, ?_⟩⟩
    exact List.forall_mem_append.mpr ⟨digits _, List.forall_mem_cons.mpr ⟨by decide, digits _⟩⟩
  have undotted : ∀ part ∈ parts, '.' ∉ part := by
    simp only [parts, List.forall_mem_cons]
    exact ⟨not_mem_toString rfl, not_mem_toString rfl, not_mem_toString rfl, List.forall_mem_nil _⟩
  rw [versionParts, chars, upTo_upTo_append plain (crate.signed parsed),
    List.splitOn_intercalate '.' undotted (List.cons_ne_nil _ _)]
  simp only [parts, List.map_cons, List.map_nil, parseUsize_toString majorFits,
    parseUsize_toString minorFits, parseUsize_toString patchFits, Option.getD_some]

theorem compareSemver_eq {a b : String} {x y : V} (left : crate.parse a = some x)
    (right : crate.parse b = some y) : compareSemver a b =
      ((compare (crate.major x) (crate.major y)).then
        (compare (crate.minor x) (crate.minor y))).then
          (compare (crate.patch x) (crate.patch y)) := by
  rw [compareSemver, versionParts_of_parse crate left, versionParts_of_parse crate right]
  simp [List.compare_cons_cons, Ordering.then_assoc]

/-- Lower numbers make a lower version. -/
theorem lt_of_compareSemver {a b : String} {x y : V} (left : crate.parse a = some x)
    (right : crate.parse b = some y) (below : compareSemver a b = .lt) : x < y :=
  crate.numbers_first x y ((compareSemver_eq crate left right).symm.trans below)

theorem nine_is_before_ten : ∃ x y, fewVersions.parse "9.0.0" = some x ∧
    fewVersions.parse "10.0.0" = some y ∧ x < y := by
  have below : compareSemver "9.0.0" "10.0.0" = .lt := by decide +kernel
  have nine : fewVersions.parse "9.0.0" = some 2 := by decide
  have ten : fewVersions.parse "10.0.0" = some 3 := by decide
  exact ⟨2, 3, nine, ten, lt_of_compareSemver fewVersions nine ten below⟩

def LastOfGreatest (entries : List PluginIndexEntry) (entry : PluginIndexEntry) : Prop :=
  ∃ before after, entries = before ++ entry :: after ∧
    (∀ other ∈ before, (compareSemver other.version entry.version).isLE) ∧
    ∀ other ∈ after, compareSemver entry.version other.version = .gt

/-! ### What the loader picks -/

def Candidate (entries : List (String × Bool)) (name : String) (version : V) : Prop :=
  (name, true) ∈ entries ∧ name ≠ "current" ∧ crate.parse name = some version

theorem candidate_concat {entries : List (String × Bool)} {entry : String × Bool} {name : String}
    {version : V} : Candidate crate (entries ++ [entry]) name version ↔
      Candidate crate entries name version ∨
        entry = (name, true) ∧ name ≠ "current" ∧ crate.parse name = some version := by
  rw [Candidate, Candidate, List.mem_append, List.mem_singleton, or_and_right,
    @eq_comm _ (name, true)]

/-- What is held after some entries: the greatest version among them, if there is any. -/
theorem foldl_considerEntry (entries : List (String × Bool)) :
    match entries.foldl (considerEntry crate) none with
    | none => ∀ name version, ¬ Candidate crate entries name version
    | some (version, name) => Candidate crate entries name version ∧
        ∀ other x, Candidate crate entries other x → x ≤ version := by
  induction entries using List.reverseRecOn with
  | nil => exact fun name version candidate => List.not_mem_nil candidate.1
  | append_singleton entries entry ih =>
    -- an entry that is no candidate changes nothing
    have skipped : (∀ name version, ¬ (entry = (name, true) ∧ name ≠ "current" ∧
        crate.parse name = some version)) → ∀ name version,
        Candidate crate (entries ++ [entry]) name version ↔ Candidate crate entries name version :=
      fun none name version => (candidate_concat crate).trans (or_iff_left (none name version))
    rw [List.foldl_concat, considerEntry]
    obtain ⟨name, isDir⟩ := entry
    split_ifs with file current
    · simp only [skipped fun other x new =>
        Bool.false_ne_true (file.symm.trans (Prod.mk.inj new.1).2)]
      exact ih
    · simp only [skipped fun other x new => new.2.1 ((Prod.mk.inj new.1).1.symm.trans current)]
      exact ih
    · cases parsed : crate.parse name with
      | none =>
        have unread : ∀ other x, ¬ ((name, isDir) = (other, true) ∧ other ≠ "current" ∧
            crate.parse other = some x) := by
          rintro other x ⟨same, -, parsedOther⟩
          rw [← (Prod.mk.inj same).1, parsed] at parsedOther
          cases parsedOther
        simp only [skipped unread]
        exact ih
      | some version =>
        have directory : isDir = true := Bool.eq_true_of_not_eq_false file
        have new : ∀ other x, ((name, isDir) = (other, true) ∧ other ≠ "current" ∧
            crate.parse other = some x) ↔ name = other ∧ version = x := by
          intro other x
          constructor
          · rintro ⟨same, -, parsedOther⟩
            obtain rfl := (Prod.mk.inj same).1
            exact ⟨rfl, Option.some.inj (parsed.symm.trans parsedOther)⟩
          · rintro ⟨rfl, rfl⟩
            exact ⟨by rw [directory], current, parsed⟩
        simp only [candidate_concat, new]
        cases held : entries.foldl (considerEntry crate) none with
        | none =>
          rw [held] at ih
          refine ⟨.inr ⟨rfl, rfl⟩, fun other x candidate => ?_⟩
          rcases candidate with candidate | ⟨-, rfl⟩
          · exact absurd candidate (ih other x)
          · exact le_refl _
        | some pair =>
          obtain ⟨bestVersion, bestName⟩ := pair
          rw [held] at ih
          obtain ⟨bestCandidate, atMost⟩ := ih
          dsimp only
          split_ifs with lower
          · refine ⟨.inl bestCandidate, fun other x candidate => ?_⟩
            rcases candidate with candidate | ⟨-, rfl⟩
            · exact atMost other x candidate
            · exact lower
          · refine ⟨.inr ⟨rfl, rfl⟩, fun other x candidate => ?_⟩
            rcases candidate with candidate | ⟨-, rfl⟩
            · exact (atMost other x candidate).trans (le_of_not_ge lower)
            · exact le_refl _

theorem resolveVersionDir_of_greatest {pluginDir : String} {dir : PluginDir} {name : String}
    {version : V} (unlinked : dir.current = none)
    (candidate : Candidate crate dir.entries name version)
    (greatest : ∀ other x, Candidate crate dir.entries other x → x ≤ version) :
    resolveVersionDir crate pluginDir dir = .ok (join pluginDir name) := by
  have held := foldl_considerEntry crate dir.entries
  rw [resolveVersionDir, unlinked]
  cases best : dir.entries.foldl (considerEntry crate) none with
  | none =>
    rw [best] at held
    exact absurd candidate (held name version)
  | some pair =>
    obtain ⟨bestVersion, bestName⟩ := pair
    rw [best] at held
    obtain ⟨bestCandidate, atMost⟩ := held
    have same : bestVersion = version :=
      le_antisymm (greatest bestName bestVersion bestCandidate) (atMost name version candidate)
    have parsed := bestCandidate.2.2
    rw [same] at parsed
    rw [crate.injective candidate.2.2 parsed]

theorem ne_current_of_parse {text : String} {version : V}
    (parsed : crate.parse text = some version) : text ≠ "current" := by
  rintro rfl
  have spelled := congrArg String.toList (crate.spelled parsed)
  cases digits : (toString (crate.major version)).toList with
  | nil => exact toString_ne_empty _ (String.toList_eq_nil_iff.mp digits)
  | cons c rest =>
    have digit : 'c' ∉ (toString (crate.major version)).toList := not_mem_toString rfl
    simp only [String.toList_append, digits, List.cons_append] at spelled
    rw [digits] at digit
    have first : 'c' = c := (List.cons.inj spelled).1
    exact digit (first ▸ List.mem_cons_self)

/-! ### The entry that the command line takes -/

def compareNumbers (a b : PluginIndexEntry) : Ordering := compareSemver a.version b.version

instance : Std.TransCmp compareNumbers where
  eq_swap {_ _} := Std.OrientedOrd.eq_swap
  isLE_trans below above := Std.TransOrd.isLE_trans below above

theorem maxBy_map {α β : Type} {cmp : β → β → Ordering} (f : α → β) (items : List α) :
    maxBy cmp (items.map f) = (maxBy (fun a b => cmp (f a) (f b)) items).map f := by
  induction items using List.reverseRecOn with
  | nil => rfl
  | append_singleton items item ih =>
    rw [List.map_append, List.map_singleton]
    cases held : maxBy (fun a b => cmp (f a) (f b)) items with
    | none =>
      obtain rfl := eq_nil_of_maxBy held
      rfl
    | some best =>
      rw [held] at ih
      rw [maxBy_concat ih, maxBy_concat held, Option.map_some]
      split_ifs <;> rfl

theorem latestEntry_map_entryJson (entries : List PluginIndexEntry) :
    latestEntry (entries.map entryJson) = (maxBy compareNumbers entries).map entryJson := by
  have version : ∀ entry, entryVersion (entryJson entry) = entry.version := fun entry => by
    rw [entryVersion, stringAt_version_entryJson, Option.getD_some]
  rw [latestEntry, maxBy_map]
  simp only [version]
  rfl

theorem maxBy_compareNumbers_iff {entries : List PluginIndexEntry} {entry : PluginIndexEntry} :
    maxBy compareNumbers entries = some entry ↔ LastOfGreatest entries entry :=
  maxBy_eq_some_iff

theorem selectPluginEntry_eq_ok_iff {index : PluginIndex} {id : String} {json : Value} :
    selectPluginEntry (indexJson index) id none = .ok json ↔
      ∃ entry, LastOfGreatest (entriesOfId index id) entry ∧ json = entryJson entry := by
  have all : (entriesOf id (index.plugins.map entryJson)).filter (fun entry =>
      (none : Option String).all fun asked => stringAt "version" entry = some asked) =
        (entriesOfId index id).map entryJson := by
    rw [← entriesOf_map_entryJson]
    exact List.filter_eq_self.mpr fun _ _ => rfl
  simp only [← maxBy_compareNumbers_iff]
  rw [selectPluginEntry, indexPlugins_indexJson]
  change orBail _ (latestEntry (List.filter _ _)) = _ ↔ _
  rw [all, latestEntry_map_entryJson]
  cases maxBy compareNumbers (entriesOfId index id) with
  | none => simp [orBail]
  | some entry => simp [orBail, eq_comm]

theorem planUpdate_eq_some_iff {index : PluginIndex} {id current : String} {only : Option String}
    {dryRun : Bool} {latest : IndexedPackage} :
    planUpdate (index.plugins.map entryJson) only dryRun id current = some latest ↔
      ∃ entry, LastOfGreatest (entriesOfId index id) entry ∧ only.all (· = id) ∧
        entry.version ≠ current ∧ dryRun = false ∧
        latest = ⟨entry.version, entry.packageUrl, entry.sha256⟩ := by
  simp only [← maxBy_compareNumbers_iff]
  rw [planUpdate, entriesOf_map_entryJson, latestEntry_map_entryJson]
  cases maxBy compareNumbers (entriesOfId index id) with
  | none => simp [guard]
  | some entry =>
    by_cases chosen : only.all (· = id) = true
    · by_cases newer : ¬ entry.version = current ∧ dryRun = false
      · obtain ⟨different, wet⟩ := newer
        simp [guard, chosen, stringAt_version_entryJson, stringAt_packageUrl_entryJson,
          stringAt_sha256_entryJson, different, wet]
        exact eq_comm
      · simp [guard, chosen, stringAt_version_entryJson, newer]
        tauto
    · simp [guard, chosen]

/-! ### The latest version -/

section Latest

variable {index : PluginIndex} {id : String}

theorem parsed_of_atMost {a b : String} (atMost : AtMost crate a b) :
    (crate.parse a).isSome ∧ ∃ y, crate.parse b = some y := by
  obtain ⟨x, y, left, right, -⟩ := atMost
  exact ⟨by rw [left]; rfl, y, right⟩

theorem mem_of_lastOfGreatest {entries : List PluginIndexEntry} {entry : PluginIndexEntry}
    (last : LastOfGreatest entries entry) : entry ∈ entries :=
  mem_of_maxBy (maxBy_compareNumbers_iff.mpr last)

theorem plugins_of_greatest {entry : PluginIndexEntry} (member : entry ∈ entriesOfId index id)
    (greatest : ∀ other ∈ entriesOfId index id, AtMost crate other.version entry.version)
    {text : String} (asked : trimOption (some text) = some id) :
    ∃ latest, (plugins crate index ⟨some text, none, none, some true⟩).plugins = [latest] ∧
      latest.id = id ∧ latest.version = entry.version := by
  have named : id ≠ "" := by
    have nonblank := Option.mem_filter_iff.mp asked
    simpa using nonblank.2
  have consistent : ConsistentOn (compareEntries crate) (entriesOfId index id) := by
    rw [consistentOn_compareEntries_iff]
    intro low _ middle inMiddle high _ _ _ crossed
    have parsed := (parsed_of_atMost crate (greatest middle inMiddle)).1
    rw [crossed.without] at parsed
    cases parsed
  have ofId : ∀ other ∈ entriesOfId index id, other.id = id := fun other inEntries =>
    decide_eq_true_iff.mp (List.mem_filter.mp inEntries).2
  have sameId := ofId entry member
  obtain ⟨latest, only, latestId, inEntries, first⟩ := exists_latest crate consistent member
    (by rw [sameId]; exact named)
  have whole : (latestEntries (sortEntries crate (entriesOfId index id))).filter
      (·.id = entry.id) = latestEntries (sortEntries crate (entriesOfId index id)) := by
    refine List.filter_eq_self.mpr fun other taken => ?_
    rw [sameId, decide_eq_true_iff]
    exact ofId other (mem_sortBy.mp (latestFrom_subset other taken))
  have served : (plugins crate index ⟨some text, none, none, some true⟩).plugins =
      latestEntries (sortEntries crate (entriesOfId index id)) := by
    simp only [plugins, asked, Option.getD_some, if_true]
    have others : trimOption none = none := rfl
    simp only [others, Option.all_none, Option.all_some, List.filter_true]
    rfl
  refine ⟨latest, ?_, latestId.trans sameId, ?_⟩
  · rw [served, ← whole, only]
  · -- neither of the two versions is lower than the other one
    obtain ⟨x, y, left, right, atMost⟩ := greatest latest inEntries
    have notBefore := first entry member rfl
    rw [compareEntries, latestId, Std.compare_self, Ordering.eq_then, compareVersionsDesc_eq,
      compareByValue_of_some left right] at notBefore
    have same : x = y := by
      refine le_antisymm atMost (le_of_not_gt fun less => notBefore ?_)
      rw [compare_lt_iff_lt.mpr less]
      rfl
    exact crate.injective left (same ▸ right)

theorem isLatest_of_greatest {entry : PluginIndexEntry} (member : entry ∈ entriesOfId index id)
    (greatest : ∀ other ∈ entriesOfId index id, AtMost crate other.version entry.version) :
    IsLatest crate index id entry.version where
  greatest := ⟨⟨entry, member, rfl⟩, greatest⟩
  registry _ asked := plugins_of_greatest crate member greatest asked
  loader pluginDir dir unlinked listed := by
    obtain ⟨-, version, parsed⟩ := parsed_of_atMost crate (greatest entry member)
    refine resolveVersionDir_of_greatest crate unlinked
      ⟨(listed entry.version).mpr ⟨entry, member, rfl⟩, ne_current_of_parse crate parsed, parsed⟩
      fun other x candidate => ?_
    obtain ⟨named, inEntries, rfl⟩ := (listed other).mp candidate.1
    obtain ⟨y, z, left, right, atMost⟩ := greatest named inEntries
    rw [Option.some.inj (candidate.2.2.symm.trans left),
      Option.some.inj (parsed.symm.trans right)]
    exact atMost

/-- All places mean the same if the plugin is not in the index; or all its versions are semantic
versions, the last listed of those with the greatest numbers is the greatest, and what is installed
is not greater than all of them. -/
theorem latest_version_agrees_iff (index : PluginIndex) (id current : String)
    (only : Option String) (dryRun : Bool) :
    LatestAgrees crate index id current only dryRun ↔
      entriesOfId index id = [] ∨
      ((∀ entry ∈ entriesOfId index id, (crate.parse entry.version).isSome) ∧
        (∀ entry, LastOfGreatest (entriesOfId index id) entry →
          ∀ other ∈ entriesOfId index id, ¬ Lower crate entry.version other.version) ∧
        (only.all (· = id) → dryRun = false →
          ∃ entry ∈ entriesOfId index id, ¬ Lower crate entry.version current)) := by
  constructor
  · intro agrees
    refine or_iff_not_imp_left.mpr fun listed => ?_
    -- something is listed, so the index selects an entry, which bounds all others
    obtain ⟨entry, last⟩ : ∃ entry, LastOfGreatest (entriesOfId index id) entry := by
      cases best : maxBy compareNumbers (entriesOfId index id) with
      | none => exact absurd (eq_nil_of_maxBy best) listed
      | some entry => exact ⟨entry, maxBy_compareNumbers_iff.mp best⟩
    obtain ⟨version, read, latest⟩ := agrees.selected _
      (selectPluginEntry_eq_ok_iff.mpr ⟨entry, last, rfl⟩)
    obtain rfl := Option.some.inj ((stringAt_version_entryJson entry).symm.trans read)
    obtain ⟨-, greatest⟩ := latest.greatest
    refine ⟨fun other member => (parsed_of_atMost crate (greatest other member)).1, ?_, ?_⟩
    · intro other lastOther above member lower
      obtain rfl := Option.some.inj ((maxBy_compareNumbers_iff.mpr last).symm.trans
        (maxBy_compareNumbers_iff.mpr lastOther))
      obtain ⟨x, y, left, right, less⟩ := lower
      obtain ⟨x', y', left', right', atMost⟩ := greatest above member
      rw [Option.some.inj (left'.symm.trans right), Option.some.inj (right'.symm.trans left)]
        at atMost
      exact absurd less (not_lt_of_ge atMost)
    · intro chosen wet
      refine ⟨entry, mem_of_lastOfGreatest last, fun lower => ?_⟩
      by_cases same : entry.version = current
      · obtain ⟨x, y, left, right, less⟩ := lower
        rw [same, right] at left
        exact absurd (Option.some.inj left) less.ne'
      · exact agrees.forward _
          (planUpdate_eq_some_iff.mpr ⟨entry, last, chosen, same, wet, rfl⟩) lower
  · rintro (unlisted | ⟨parsed, highest, ahead⟩)
    · refine ⟨fun json selected => ?_, fun latest planned => ?_⟩
      · obtain ⟨entry, last, -⟩ := selectPluginEntry_eq_ok_iff.mp selected
        have member := mem_of_lastOfGreatest last
        rw [unlisted] at member
        cases member
      · obtain ⟨entry, last, -⟩ := planUpdate_eq_some_iff.mp planned
        have member := mem_of_lastOfGreatest last
        rw [unlisted] at member
        cases member
    · -- parsed versions are ordered totally, so what is not lower is at most it
      have greatest : ∀ entry, LastOfGreatest (entriesOfId index id) entry →
          ∀ other ∈ entriesOfId index id, AtMost crate other.version entry.version := by
        intro entry last other member
        obtain ⟨x, left⟩ := Option.isSome_iff_exists.mp (parsed other member)
        obtain ⟨y, right⟩ := Option.isSome_iff_exists.mp
          (parsed entry (mem_of_lastOfGreatest last))
        exact ⟨x, y, left, right, le_of_not_gt fun less =>
          highest entry last other member ⟨y, x, right, left, less⟩⟩
      refine ⟨fun json selected => ?_, fun latest planned lower => ?_⟩
      · obtain ⟨entry, last, rfl⟩ := selectPluginEntry_eq_ok_iff.mp selected
        exact ⟨entry.version, stringAt_version_entryJson entry,
          isLatest_of_greatest crate (mem_of_lastOfGreatest last) (greatest entry last)⟩
      · obtain ⟨entry, last, chosen, -, wet, rfl⟩ := planUpdate_eq_some_iff.mp planned
        obtain ⟨other, member, notLower⟩ := ahead chosen wet
        obtain ⟨x, y, left, right, atMost⟩ := greatest entry last other member
        obtain ⟨z, w, leftCurrent, rightCurrent, less⟩ := lower
        rw [Option.some.inj (leftCurrent.symm.trans right)] at less
        exact notLower ⟨x, w, left, rightCurrent, lt_of_le_of_lt atMost less⟩

end Latest

def candidateIndex : PluginIndex where
  schemaVersion := "v1"
  plugins := [packageOf "acme.echo" "1.0.0", packageOf "acme.echo" "1.0.0-rc.1"]

/-- An update replaces the release by its candidate. -/
theorem candidate_replaces_release :
    ¬ LatestAgrees fewVersions candidateIndex "acme.echo" "1.0.0" none false := by
  intro agrees
  have last : LastOfGreatest (entriesOfId candidateIndex "acme.echo")
      (packageOf "acme.echo" "1.0.0-rc.1") :=
    ⟨[packageOf "acme.echo" "1.0.0"], [], by decide, by decide, by decide⟩
  exact agrees.forward _
    (planUpdate_eq_some_iff.mpr ⟨_, last, rfl, by decide, rfl, rfl⟩)
    ⟨0, 1, by decide, by decide, by decide⟩

end KelvinClaw.Registry
