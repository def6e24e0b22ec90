import KelvinClaw.Core.Text
import KelvinClaw.Library.Comparators
import Mathlib.Order.Lattice

/-!
# The plugin registry

The registry serves an index of plugin packages that it does not check beyond its shape. It lists
the entries by id, and the entries of an id from the latest version down. Two versions are compared
as semantic versions if both of them are, and as texts otherwise.
-/

namespace KelvinClaw.Registry

open KelvinClaw.Core Systems

/-! ### Semantic versions -/

/-- `semver::Version`: the texts that are versions, their major, minor and patch numbers, what
follows these, and the order of versions. -/
structure SemverCrate (V : Type) [LinearOrder V] where
  parse : String → Option V
  major : V → ℕ
  minor : V → ℕ
  patch : V → ℕ
  /-- The pre-release and the build, with their signs. -/
  suffix : V → String
  spelled : ∀ {text version}, parse text = some version →
    text = s!"{major version}.{minor version}.{patch version}" ++ suffix version
  signed : ∀ {text version}, parse text = some version →
    ∀ c ∈ (suffix version).toList.head?, c = '-' ∨ c = '+'
  fits : ∀ {text version}, parse text = some version →
    major version ≤ u64Max ∧ minor version ≤ u64Max ∧ patch version ≤ u64Max
  /-- The numbers decide first. -/
  numbers_first : ∀ a b, ((compare (major a) (major b)).then (compare (minor a) (minor b))).then
    (compare (patch a) (patch b)) = .lt → a < b

variable {V : Type} [LinearOrder V] (crate : SemverCrate V)

theorem SemverCrate.injective {a b : String} {version : V} (left : crate.parse a = some version)
    (right : crate.parse b = some version) : a = b :=
  (crate.spelled left).trans (crate.spelled right).symm

/-! ### The index -/

structure PluginIndexEntry where
  id : String
  version : String
  packageUrl : String
  sha256 : String
  trustPolicyUrl : Option String
  qualityTier : Option String
  tags : List String
  deriving DecidableEq, Repr

structure PluginIndex where
  schemaVersion : String
  plugins : List PluginIndexEntry
  deriving DecidableEq, Repr

def compareVersionsDesc (left right : String) : Ordering :=
  match crate.parse left, crate.parse right with
  | some left, some right => compare right left
  | _, _ => compare right left

/-- The comparator of `sort_entries`. -/
def compareEntries (left right : PluginIndexEntry) : Ordering :=
  ((compare left.id right.id).then (compareVersionsDesc crate left.version right.version)).then
    (compare left.packageUrl right.packageUrl)

def sortEntries (entries : List PluginIndexEntry) : List PluginIndexEntry :=
  sortBy (compareEntries crate) entries

/-- The loop of `latest_entries`, where the last entry that was taken has the id `lastId`. -/
def latestFrom (lastId : String) : List PluginIndexEntry → List PluginIndexEntry
  | [] => []
  | entry :: rest =>
    if entry.id ≠ lastId then entry :: latestFrom entry.id rest else latestFrom lastId rest

def latestEntries (entries : List PluginIndexEntry) : List PluginIndexEntry := latestFrom "" entries

/-! ### What is served -/

structure PluginsQuery where
  id : Option String
  tag : Option String
  qualityTier : Option String
  latestOnly : Option Bool
  deriving DecidableEq, Repr

/-- The answer of `plugins`, which repeats the query. -/
structure PluginsAnswer where
  schemaVersion : String
  count : ℕ
  filters : PluginsQuery
  plugins : List PluginIndexEntry
  deriving DecidableEq, Repr

def plugins (index : PluginIndex) (query : PluginsQuery) : PluginsAnswer :=
  let plugins := index.plugins.filter fun entry => (trimOption query.id).all (entry.id = ·)
  let plugins := plugins.filter fun entry => (trimOption query.tag).all (· ∈ entry.tags)
  let plugins := plugins.filter fun entry =>
    (trimOption query.qualityTier).all (entry.qualityTier = some ·)
  let plugins := sortEntries crate plugins
  let plugins := if query.latestOnly.getD false then latestEntries plugins else plugins
  { schemaVersion := index.schemaVersion
    count := plugins.length
    filters := { query with latestOnly := some (query.latestOnly.getD false) }
    plugins }

inductive VersionsAnswer where
  | notFound (message : String)
  | entry (pluginId : String) (entry : PluginIndexEntry)
  | versions (pluginId : String) (latest : Option PluginIndexEntry)
      (versions : List PluginIndexEntry)
  deriving DecidableEq, Repr

def pluginVersions (index : PluginIndex) (pluginId : String) (version : Option String) :
    VersionsAnswer :=
  let pluginId := trim pluginId
  let versions := index.plugins.filter fun entry => entry.id = pluginId
  if versions = [] then .notFound s!"plugin '{pluginId}' was not found in the registry index"
  else
    let versions := sortEntries crate versions
    match trimOption version with
    | some version =>
      match versions.find? fun entry => entry.version = version with
      | none => .notFound s!"plugin '{pluginId}' version '{version}' was not found"
      | some entry => .entry pluginId entry
    | none => .versions pluginId versions.head? versions

/-! ### The comparators -/

theorem compareVersionsDesc_eq (left right : String) :
    compareVersionsDesc crate left right = compareByValue crate.parse right left := by
  cases first : crate.parse left <;> cases second : crate.parse right <;>
    simp only [compareVersionsDesc, compareByValue, first, second]

instance : Std.OrientedCmp (compareVersionsDesc crate) where
  eq_swap {a b} := by
    rw [compareVersionsDesc_eq, compareVersionsDesc_eq]
    exact Std.OrientedCmp.eq_swap

instance : Std.LawfulEqCmp (compareVersionsDesc crate) where
  compare_self {a} := by
    rw [compareVersionsDesc_eq]
    exact (compareByValue_eq_iff crate.injective).mpr rfl
  eq_of_compare {a b} same := by
    rw [compareVersionsDesc_eq] at same
    exact ((compareByValue_eq_iff crate.injective).mp same).symm

theorem compareVersionsDesc_self (version : String) :
    compareVersionsDesc crate version version = .eq :=
  @Std.ReflCmp.compare_self _ (compareVersionsDesc crate) _ _

abbrev EntryKey := String × String × String

def PluginIndexEntry.key (entry : PluginIndexEntry) : EntryKey :=
  (entry.id, entry.version, entry.packageUrl)

def compareKeys (left right : EntryKey) : Ordering :=
  ((compare left.1 right.1).then (compareVersionsDesc crate left.2.1 right.2.1)).then
    (compare left.2.2 right.2.2)

instance : Std.OrientedCmp (compareKeys crate) where
  eq_swap {a b} := by
    rw [compareKeys, compareKeys, Ordering.swap_then, Ordering.swap_then,
      ← Std.OrientedOrd.eq_swap, ← Std.OrientedOrd.eq_swap, ← Std.OrientedCmp.eq_swap]

instance : Std.LawfulEqCmp (compareKeys crate) where
  compare_self {a} := by
    rw [compareKeys, Std.compare_self, compareVersionsDesc_self, Std.compare_self]
    rfl
  eq_of_compare {a b} same := by
    rw [compareKeys, Ordering.then_eq_eq, Ordering.then_eq_eq, Std.compare_eq_iff_eq,
      Std.LawfulEqCmp.compare_eq_iff_eq, Std.compare_eq_iff_eq] at same
    exact Prod.ext same.1.1 (Prod.ext same.1.2 same.2)

/-- An entry is not listed behind another one that has a greater id, or the same id and an earlier
version, or the same version and a greater URL. -/
theorem isLE_compareEntries_iff {a b : PluginIndexEntry} :
    (compareEntries crate a b).isLE ↔ compare a.id b.id = .lt ∨ a.id = b.id ∧
      (compareVersionsDesc crate a.version b.version = .lt ∨ a.version = b.version ∧
        (compare a.packageUrl b.packageUrl).isLE) := by
  rw [compareEntries, Ordering.then_assoc, Ordering.isLE_then_iff_or, Std.compare_eq_iff_eq,
    Ordering.isLE_then_iff_or, Std.LawfulEqCmp.compare_eq_iff_eq]

/-- The order of an index is transitive if no text stands between two versions of the same plugin
that are ordered against their texts. -/
theorem consistentOn_compareEntries_iff {entries : List PluginIndexEntry} :
    ConsistentOn (compareEntries crate) entries ↔
      ∀ low ∈ entries, ∀ middle ∈ entries, ∀ high ∈ entries, low.id = middle.id →
        middle.id = high.id → ¬ Crossed crate.parse low.version middle.version high.version := by
  constructor
  · intro consistent low inLow middle inMiddle high inHigh sameLow sameHigh crossed
    obtain ⟨first, second, third⟩ := compareByValue_of_crossed crossed
    rw [← compareVersionsDesc_eq] at first second third
    have around := consistent high inHigh low inLow middle inMiddle
      ((isLE_compareEntries_iff crate).mpr (.inr ⟨(sameLow.trans sameHigh).symm, .inl first⟩))
      ((isLE_compareEntries_iff crate).mpr (.inr ⟨sameLow, .inl third⟩))
    rcases (isLE_compareEntries_iff crate).mp around with before | ⟨-, before | ⟨same, -⟩⟩
    · rw [sameHigh, Std.compare_self] at before
      cases before
    · exact Std.OrientedCmp.not_lt_of_lt before second
    · rw [same, compareVersionsDesc_self] at second
      cases second
  · intro uncrossed a inA b inB c inC below above
    rw [isLE_compareEntries_iff] at below above ⊢
    rcases below with below | ⟨sameLeft, below⟩
    · rcases above with above | ⟨sameRight, -⟩
      · exact .inl (Std.TransCmp.lt_trans below above)
      · exact .inl (sameRight ▸ below)
    · rcases above with above | ⟨sameRight, above⟩
      · exact .inl (sameLeft ▸ above)
      · refine .inr ⟨sameLeft.trans sameRight, ?_⟩
        rcases below with below | ⟨sameVersion, below⟩
        · rcases above with above | ⟨sameVersion, -⟩
          · -- three versions of one plugin
            have consistent : ConsistentOn (compareByValue crate.parse)
                [a.version, b.version, c.version] := by
              refine (consistentOn_compareByValue_iff crate.injective).mpr ?_
              have entry : ∀ version ∈ [a.version, b.version, c.version], ∃ entry ∈ entries,
                  entry.id = a.id ∧ entry.version = version := by
                intro version member
                simp only [List.mem_cons, List.not_mem_nil, or_false] at member
                rcases member with rfl | rfl | rfl
                · exact ⟨a, inA, rfl, rfl⟩
                · exact ⟨b, inB, sameLeft.symm, rfl⟩
                · exact ⟨c, inC, (sameLeft.trans sameRight).symm, rfl⟩
              intro lowVersion lowMember middleVersion middleMember highVersion highMember
              obtain ⟨low, inLow, lowId, rfl⟩ := entry lowVersion lowMember
              obtain ⟨middle, inMiddle, middleId, rfl⟩ := entry middleVersion middleMember
              obtain ⟨high, inHigh, highId, rfl⟩ := entry highVersion highMember
              exact uncrossed low inLow middle inMiddle high inHigh (lowId.trans middleId.symm)
                (middleId.trans highId.symm)
            rw [compareVersionsDesc_eq] at below above
            have across := consistent c.version (by simp) b.version (by simp) a.version (by simp)
              (by rw [above]; rfl) (by rw [below]; rfl)
            rw [← compareVersionsDesc_eq] at below above across
            cases order : compareVersionsDesc crate a.version c.version with
            | lt => exact .inl rfl
            | eq =>
              rw [← Std.LawfulEqCmp.eq_of_compare order] at above
              exact absurd above (Std.OrientedCmp.not_lt_of_lt below)
            | gt =>
              rw [order] at across
              cases across
          · exact .inl (sameVersion ▸ below)
        · rcases above with above | ⟨sameNext, above⟩
          · exact .inl (sameVersion ▸ above)
          · exact .inr ⟨sameVersion.trans sameNext, Std.TransOrd.isLE_trans below above⟩

theorem consistentOn_of_perm {listed entries : List PluginIndexEntry} (same : listed.Perm entries)
    (consistent : ConsistentOn (compareEntries crate) entries) :
    ConsistentOn (compareEntries crate) listed :=
  consistent.of_subset fun _ member => same.mem_iff.mp member

/-! ### The sorted list -/

theorem isLE_empty (id : String) : (compare "" id).isLE := by
  rcases eq_or_ne id "" with rfl | nonempty
  · rw [Std.compare_self]
    rfl
  · obtain ⟨c, rest, chars⟩ := List.exists_cons_of_ne_nil (mt String.toList_eq_nil_iff.mp nonempty)
    have below : "" < id := by
      change "".toList < id.toList
      rw [chars]
      exact List.nil_lt_cons c rest
    change (compareOfLessAndEq "" id).isLE = true
    rw [compareOfLessAndEq, if_pos below]
    rfl

/-- Of a list that is sorted by id, the first entry of each id is taken, other than of the last one
that was taken. -/
theorem filter_latestFrom {entries : List PluginIndexEntry} {lastId : String} (id : String)
    (sorted : entries.Pairwise fun a b => (compare a.id b.id).isLE)
    (above : ∀ entry ∈ entries, (compare lastId entry.id).isLE) :
    (latestFrom lastId entries).filter (·.id = id) =
      if id = lastId then [] else (entries.filter (·.id = id)).take 1 := by
  induction entries generalizing lastId with
  | nil => rw [latestFrom]; split_ifs <;> rfl
  | cons entry rest ih =>
    obtain ⟨below, sorted⟩ := List.pairwise_cons.mp sorted
    obtain ⟨here, later⟩ := List.forall_mem_cons.mp above
    rw [latestFrom]
    by_cases taken : entry.id = lastId
    · rw [if_neg (not_not.mpr taken), ih sorted later]
      split_ifs with same
      · rfl
      · rw [List.filter_cons_of_neg]
        exact fun other => same ((decide_eq_true_iff.mp other).symm.trans taken)
    · rw [if_pos taken, List.filter_cons, List.filter_cons, ih sorted below]
      by_cases same : entry.id = id
      · rw [if_pos (decide_eq_true same), if_pos (decide_eq_true same), if_pos same.symm,
          if_neg fun last => taken (same.trans last)]
        rfl
      · rw [if_neg (mt decide_eq_true_iff.mp same), if_neg (mt decide_eq_true_iff.mp same),
          if_neg (Ne.symm same)]
        split_ifs with last
        · -- all that follows has a greater id
          have none : rest.filter (·.id = id) = [] := by
            refine List.filter_eq_nil_iff.mpr fun other member sameId => taken ?_
            have greater := below other member
            rw [decide_eq_true_iff.mp sameId, last] at greater
            exact Std.compare_eq_iff_eq.mp (Std.OrientedCmp.isLE_antisymm greater here)
          rw [none]
          rfl
        · rfl

theorem latestFrom_subset {entries : List PluginIndexEntry} {lastId : String} :
    ∀ entry ∈ latestFrom lastId entries, entry ∈ entries := by
  induction entries generalizing lastId with
  | nil => exact fun _ member => member
  | cons entry rest ih =>
    rw [latestFrom]
    split_ifs
    · refine List.forall_mem_cons.mpr ⟨List.mem_cons_self, fun other member => ?_⟩
      exact List.mem_cons_of_mem entry (ih other member)
    · exact fun other member => List.mem_cons_of_mem entry (ih other member)

/-- The order of an index: it is one, it lists the entries by id and from the latest version down
however they are given, and the latest entries are one for each id. -/
structure OrdersIndex (entries : List PluginIndexEntry) : Prop where
  total : ∀ a ∈ entries, ∀ b ∈ entries,
    (compareEntries crate a b).isLE ∨ (compareEntries crate b a).isLE
  transitive : ConsistentOn (compareEntries crate) entries
  sorted : ∀ listed : List PluginIndexEntry, listed.Perm entries →
    (sortEntries crate listed).Perm entries ∧ (sortEntries crate listed).Pairwise fun a b =>
      compare a.id b.id = .lt ∨
        a.id = b.id ∧ (compareVersionsDesc crate a.version b.version).isLE
  independent : ∀ listed : List PluginIndexEntry, listed.Perm entries →
    (sortEntries crate listed).map PluginIndexEntry.key =
      (sortEntries crate entries).map PluginIndexEntry.key
  latest : ∀ listed : List PluginIndexEntry, listed.Perm entries →
    (∀ entry ∈ latestEntries (sortEntries crate listed), entry ∈ entries) ∧
    ∀ entry ∈ entries, ∃ latest,
      (latestEntries (sortEntries crate listed)).filter (·.id = entry.id) = [latest] ∧
      ∀ other ∈ entries, other.id = entry.id → compareEntries crate other latest ≠ .lt

section Consistent

variable {entries : List PluginIndexEntry}
  (consistent : ConsistentOn (compareEntries crate) entries)

theorem compareEntries_oriented : Std.OrientedCmp (compareEntries crate) where
  eq_swap {a b} := @Std.OrientedCmp.eq_swap _ (compareKeys crate) _ a.key b.key

include consistent

theorem pairwise_sortEntries :
    (sortEntries crate entries).Pairwise fun a b => (compareEntries crate a b).isLE :=
  have := compareEntries_oriented crate
  pairwise_sortBy consistent

theorem pairwise_ids :
    (sortEntries crate entries).Pairwise fun a b => (compare a.id b.id).isLE := by
  refine (pairwise_sortEntries crate consistent).imp fun {a b} before => ?_
  rw [compareEntries, Ordering.then_assoc] at before
  exact Ordering.isLE_left_of_isLE_then before

theorem filter_latestEntries {id : String} (named : id ≠ "") :
    (latestEntries (sortEntries crate entries)).filter (·.id = id) =
      ((sortEntries crate entries).filter (·.id = id)).take 1 := by
  rw [latestEntries, filter_latestFrom id (pairwise_ids crate consistent)
    fun entry _ => isLE_empty entry.id, if_neg named]

theorem exists_latest {entry : PluginIndexEntry} (member : entry ∈ entries)
    (named : entry.id ≠ "") :
    ∃ latest, (latestEntries (sortEntries crate entries)).filter (·.id = entry.id) = [latest] ∧
      latest.id = entry.id ∧ latest ∈ entries ∧
      ∀ other ∈ entries, other.id = entry.id → compareEntries crate other latest ≠ .lt := by
  have ofId : ∀ other ∈ entries, other.id = entry.id →
      other ∈ (sortEntries crate entries).filter (·.id = entry.id) := fun other inEntries same =>
    List.mem_filter.mpr ⟨mem_sortBy.mpr inEntries, decide_eq_true same⟩
  rw [filter_latestEntries crate consistent named]
  have sorted := (pairwise_sortEntries crate consistent).filter (·.id = entry.id)
  have members : ∀ other ∈ (sortEntries crate entries).filter (·.id = entry.id),
      other ∈ entries ∧ other.id = entry.id := by
    intro other inside
    obtain ⟨inSorted, same⟩ := List.mem_filter.mp inside
    exact ⟨mem_sortBy.mp inSorted, decide_eq_true_iff.mp same⟩
  cases listed : (sortEntries crate entries).filter (·.id = entry.id) with
  | nil =>
    have := ofId entry member rfl
    rw [listed] at this
    cases this
  | cons latest rest =>
    rw [listed] at sorted members ofId
    obtain ⟨first, -⟩ := List.pairwise_cons.mp sorted
    obtain ⟨inEntries, sameId⟩ := members latest List.mem_cons_self
    refine ⟨latest, rfl, sameId, inEntries, fun other inside same => ?_⟩
    have := compareEntries_oriented crate
    rw [← isLE_iff_not_lt]
    rcases List.mem_cons.mp (ofId other inside same) with rfl | later
    · have same : compareEntries crate other other = .eq :=
        @Std.ReflCmp.compare_self _ (compareKeys crate) _ other.key
      rw [same]
      rfl
    · exact first other later

end Consistent

/-- The order is what it should be if no entry has an empty id, and no text that is no version
stands between two versions of a plugin that are ordered against their texts. -/
theorem registry_order_iff (entries : List PluginIndexEntry) :
    OrdersIndex crate entries ↔
      (∀ entry ∈ entries, entry.id ≠ "") ∧
      ∀ low ∈ entries, ∀ middle ∈ entries, ∀ high ∈ entries, low.id = middle.id →
        middle.id = high.id → ¬ Crossed crate.parse low.version middle.version high.version := by
  rw [← consistentOn_compareEntries_iff]
  constructor
  · intro order
    refine ⟨fun entry member empty => ?_, order.transitive⟩
    obtain ⟨latest, only, -⟩ := (order.latest entries (List.Perm.refl _)).2 entry member
    rw [latestEntries, filter_latestFrom entry.id (pairwise_ids crate order.transitive)
      fun entry _ => isLE_empty entry.id, if_pos empty] at only
    cases only
  · rintro ⟨named, consistent⟩
    have := compareEntries_oriented crate
    have sorted : ∀ listed : List PluginIndexEntry, listed.Perm entries →
        (sortEntries crate listed).Pairwise fun a b => (compareEntries crate a b).isLE :=
      fun listed same => pairwise_sortEntries crate (consistentOn_of_perm crate same consistent)
    refine ⟨fun a _ b _ => isLE_total a b, consistent, fun listed same => ?_, fun listed same => ?_,
      fun listed same => ?_⟩
    · refine ⟨sortBy_perm.trans same, (sorted listed same).imp fun {a b} before => ?_⟩
      rcases (isLE_compareEntries_iff crate).mp before with less | ⟨sameId, earlier | ⟨equal, -⟩⟩
      · exact .inl less
      · exact .inr ⟨sameId, by rw [earlier]; rfl⟩
      · exact .inr ⟨sameId, by rw [equal, compareVersionsDesc_self]; rfl⟩
    · refine @map_eq_of_pairwise _ _ (compareKeys crate) _ _ _ _ _ ?_ (sorted listed same)
        (sorted entries (List.Perm.refl _))
      exact (sortBy_perm.trans same).trans sortBy_perm.symm
    · refine ⟨fun entry member => same.mem_iff.mp (mem_sortBy.mp (latestFrom_subset entry member)),
        fun entry member => ?_⟩
      obtain ⟨latest, only, -, -, first⟩ := exists_latest crate
        (consistentOn_of_perm crate same consistent) (same.mem_iff.mpr member) (named entry member)
      exact ⟨latest, only, fun other inside => first other (same.mem_iff.mpr inside)⟩

/-! ### A circle of versions -/

def fewVersions : SemverCrate ℕ where
  parse text :=
    if text = "1.0.0-rc.1" then some 0
    else if text = "1.0.0" then some 1
    else if text = "9.0.0" then some 2
    else if text = "10.0.0" then some 3
    else none
  major version := if version ≤ 1 then 1 else if version = 2 then 9 else 10
  minor _ := 0
  patch _ := 0
  suffix version := if version = 0 then "-rc.1" else ""
  spelled := by
    intro text version parsed
    split_ifs at parsed <;> cases parsed <;> subst text <;> decide
  signed := by
    intro text version parsed
    split_ifs at parsed <;> cases parsed <;> simp
  fits := by
    intro text version parsed
    split_ifs at parsed <;> cases parsed <;> decide
  numbers_first := by
    intro a b less
    simp only [Std.compare_self, Ordering.then_eq, Nat.compare_eq_lt] at less
    split_ifs at less <;> omega

def packageOf (id version : String) : PluginIndexEntry where
  id
  version
  packageUrl := s!"https://plugins.example/{id}-{version}.tar.gz"
  sha256 := ""
  trustPolicyUrl := none
  qualityTier := none
  tags := []

/-- As texts, `10.0.0` comes before `2.x` and `2.x` before `9.0.0`. -/
theorem text_between_versions_circles :
    ¬ OrdersIndex fewVersions [packageOf "acme.echo" "10.0.0", packageOf "acme.echo" "2.x",
      packageOf "acme.echo" "9.0.0"] := by
  intro order
  refine (consistentOn_compareEntries_iff fewVersions).mp order.transitive
    (packageOf "acme.echo" "9.0.0") (by simp) (packageOf "acme.echo" "2.x") (by simp)
    (packageOf "acme.echo" "10.0.0") (by simp) rfl rfl ?_
  exact ⟨by decide, by decide, by decide, 2, 3, by decide, by decide, by decide⟩

end KelvinClaw.Registry
