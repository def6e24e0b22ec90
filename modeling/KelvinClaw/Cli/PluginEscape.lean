import KelvinClaw.Cli.PluginIndex
import KelvinClaw.Cli.PluginPaths

/-!
# Plugins that leave the plugin home

An id or a version may hold separators, two dots or an absolute path, and nothing refuses them.
Whether an installation stays in the directory of one plugin is decided by the paths for its id and
its version alone: over a tree of nothing but directories, a forced installation of an empty
package leaves that directory when one of the paths does.
-/

namespace KelvinClaw.Cli

open KelvinClaw.Core KelvinClaw.Plugin Systems Systems.Action Systems.FileAction

variable {κ ς : Type}

/-! ### An installation over a tree of directories -/

section Runs

variable {home : Location} {tree : Tree} {manifest : InstallManifest} {route : Route}

theorem journal_makeVersionDir_of_nul
    (proper : (pluginDir home manifest.pluginId).nul = false)
    (nul : (versionDir home manifest.pluginId manifest.pluginVersion).nul) (only : tree.OnlyDirs) :
    ∃ log, makeVersionDir healthy home manifest tree =
        ⟨.error nulByte, tree.withDirs (pluginDir home manifest.pluginId).way, log⟩ ∧
      ∀ place ∈ (pluginDir home manifest.pluginId).way, tree place = none →
        .created place ∈ log := by
  obtain ⟨log, made, created⟩ := createDirAll_of_ready proper fun place _ => only place
  refine ⟨log, ?_, created⟩
  have missing (t : Tree) :
      (versionDir home manifest.pluginId manifest.pluginVersion).exists t = false := by
    rw [Route.exists, Route.stat, if_pos nul]
    rfl
  have skipped (t : Tree) : removePrevious healthy
      (versionDir home manifest.pluginId manifest.pluginVersion) t = ⟨.ok (), t, []⟩ := by
    rw [removePrevious, get_bind_apply, missing]
    rfl
  have refused (t : Tree) : createDirAll (healthy .createVersionDir)
      (versionDir home manifest.pluginId manifest.pluginVersion) t = ⟨.error nulByte, t, []⟩ := by
    rw [createDirAll, if_pos nul]
    rfl
  rw [makeVersionDir, bind_apply_ok made, bind_apply_ok (skipped _), refused, List.nil_append,
    List.append_nil]

def remade (tree : Tree) (dir version : Route) : Tree :=
  ((tree.withDirs dir.way).prune version.place).withDirs version.way

section Remade

variable {dir version : Route} {place : Location}

theorem remade_of_mem (passed : place ∈ version.way) :
    remade tree dir version place = some .directory := Tree.withDirs_of_mem passed

theorem remade_of_outside (outside : ¬ version.place <+: place)
    (there : tree place = some .directory) : remade tree dir version place = some .directory := by
  by_cases passed : place ∈ version.way
  · exact remade_of_mem passed
  rw [remade, Tree.withDirs_of_not_mem passed, Tree.prune_of_outside outside]
  by_cases member : place ∈ dir.way
  · exact Tree.withDirs_of_mem member
  · rwa [Tree.withDirs_of_not_mem member]

theorem remade_of_below (below : version.place <+: place) (absent : place ∉ version.way) :
    remade tree dir version place = none := by
  rw [remade, Tree.withDirs_of_not_mem absent, Tree.prune_of_below below]

theorem onlyDirs_remade (only : tree.OnlyDirs) (dir version : Route) :
    (remade tree dir version).OnlyDirs :=
  ((only.withDirs _).prune _).withDirs _

end Remade

theorem makeVersionDir_of_onlyDirs
    (proper : (pluginDir home manifest.pluginId).nul = false)
    (route_eq : versionDir home manifest.pluginId manifest.pluginVersion = route)
    (properVersion : route.nul = false)
    (only : tree.OnlyDirs) (there : tree route.place = some .directory) :
    ∃ log log', makeVersionDir healthy home manifest tree =
        ⟨.ok (), remade tree (pluginDir home manifest.pluginId) route,
          log ++ .removed route.place :: log'⟩ ∧
      (∀ place ∈ (pluginDir home manifest.pluginId).way, tree place = none →
        .created place ∈ log) ∧
      ∀ place ∈ route.way, (tree.withDirs (pluginDir home manifest.pluginId).way).prune
        route.place place = none → .created place ∈ log' := by
  obtain ⟨log, made, created⟩ := createDirAll_of_ready proper fun place _ => only place
  have onlyDirs := only.withDirs (pluginDir home manifest.pluginId).way
  -- the previous copy is not touched when the directory of the plugin is made
  have still : tree.withDirs (pluginDir home manifest.pluginId).way route.place =
      some .directory := by
    by_cases member : route.place ∈ (pluginDir home manifest.pluginId).way
    · exact Tree.withDirs_of_mem member
    · rw [Tree.withDirs_of_not_mem member, there]
  have present : route.exists (tree.withDirs (pluginDir home manifest.pluginId).way) = true := by
    rw [Route.exists, Route.stat, if_neg (by rw [properVersion]; exact nofun),
      Tree.stat_of_directory still]
    rfl
  have removed : removePrevious healthy route
      (tree.withDirs (pluginDir home manifest.pluginId).way) =
        ⟨.ok (), (tree.withDirs (pluginDir home manifest.pluginId).way).prune route.place,
          [.removed route.place]⟩ := by
    rw [removePrevious, get_bind_apply, if_pos present]
    exact removeDirAll_of_directory properVersion still
  obtain ⟨log', again, recreated⟩ := createDirAll_of_ready properVersion
    fun place _ => onlyDirs.prune route.place place
  refine ⟨log, log', ?_, created, recreated⟩
  rw [makeVersionDir, route_eq, bind_apply_ok made, bind_apply_ok removed, again]
  rfl

def emptyPackage (manifest : InstallManifest) : CheckedPackage := ⟨manifest, [], .ok .nil, none⟩

def unpacked (tree : Tree) (version : Route) : Tree :=
  (tree.put (version.place ++ ["plugin.json"]) (.file [])).withDirs
    (version.way ++ [version.place ++ ["payload"]])

theorem unpacked_of_directory {version : Route} {place : Location}
    (nothing : tree (version.place ++ ["plugin.json"]) = none)
    (there : tree place = some .directory) : unpacked tree version place = some .directory := by
  by_cases member : place ∈ version.way ++ [version.place ++ ["payload"]]
  · exact Tree.withDirs_of_mem member
  · rw [unpacked, Tree.withDirs_of_not_mem member, Tree.put_of_ne, there]
    rintro rfl
    rw [nothing] at there
    cases there

theorem unpacked_of_ne {version : Route} {place : Location} (only : tree.OnlyDirs)
    (elsewhere : place ≠ version.place ++ ["plugin.json"]) :
    unpacked tree version place = none ∨ unpacked tree version place = some .directory := by
  by_cases member : place ∈ version.way ++ [version.place ++ ["payload"]]
  · exact .inr (Tree.withDirs_of_mem member)
  · rw [unpacked, Tree.withDirs_of_not_mem member, Tree.put_of_ne elsewhere]
    exact only place

theorem copyPackage_of_onlyDirs (proper : route.nul = false) (only : tree.OnlyDirs)
    (nothing : tree (route.place ++ ["plugin.json"]) = none)
    (there : ∀ place ∈ route.way, tree place = some .directory)
    (above : tree route.place = some .directory) :
    ∃ log, copyPackage healthy (emptyPackage manifest) route tree =
      ⟨.ok (), unpacked tree route, .wrote (route.place ++ ["plugin.json"]) :: log⟩ := by
  have named : IsName "payload" := by decide
  have properEntry {text : String} (name : IsName text) (plain : ¬ HasNul text) :
      (route.join text).nul = false := by
    rw [Route.nul_join_of_isName name plain, proper]
  have place := @Route.place_join_of_isName route _ isName_manifest
  have copied : copyFile none [] (route.join "plugin.json") tree = _ :=
    copyFile_of_none (properEntry isName_manifest (by decide)) (by rwa [place])
      (by rwa [place, List.dropLast_concat]) []
  rw [place] at copied
  have ready : ∀ place ∈ (route.join "payload").way,
      tree.put (route.place ++ ["plugin.json"]) (.file []) place = none ∨
        tree.put (route.place ++ ["plugin.json"]) (.file []) place = some .directory := by
    intro place passed
    have elsewhere : place ≠ route.place ++ ["plugin.json"] := by
      rintro rfl
      rw [Route.way_join_of_isName named] at passed
      rcases List.mem_append.mp passed with earlier | latest
      · rw [there _ earlier] at nothing
        cases nothing
      · have same := List.append_cancel_left (List.mem_singleton.mp latest)
        exact absurd same (by decide)
    rw [Tree.put_of_ne elsewhere]
    exact only place
  obtain ⟨log, made, -⟩ := createDirAll_of_ready (properEntry named (by decide)) ready
  rw [Route.way_join_of_isName named] at made
  refine ⟨log, ?_⟩
  have payload : copyDirAll healthy (.ok .nil) (route.join "payload")
      (tree.put (route.place ++ ["plugin.json"]) (.file [])) =
        ⟨.ok (), unpacked tree route, log⟩ := by
    rw [copyDirAll, enterDir, Action.bind_assoc, bind_apply_ok made, raise, Action.pure_bind,
      ofExcept_ok, Action.pure_bind, copyEntries]
    exact congrArg _ (List.append_nil log)
  simp only [copyPackage, emptyPackage]
  rw [bind_apply_ok copied, bind_apply_ok payload, copySignature]
  exact congrArg _ (congrArg _ (List.append_nil log))

theorem removed_mem_updateCurrentLink (proper : route.nul = false)
    (there : tree route.place = some .directory) (target : String) :
    ∃ log, (updateCurrentLink healthy route target tree).journal = .removed route.place :: log := by
  have present : route.stat tree = some .directory := by
    rw [Route.stat, if_neg (by rw [proper]; exact nofun), Tree.stat_of_directory there]
  have plain : route.isSymlink tree = false := by
    rw [Route.isSymlink, there]
  have removed : removeCurrent healthy route tree =
      ⟨.ok (), tree.prune route.place, [.removed route.place]⟩ := by
    rw [removeCurrent, get_bind_apply, if_pos (.inl (by rw [Route.exists, present]; rfl)),
      if_pos (by rw [Route.isDir, present, plain]; simp)]
    exact removeDirAll_of_directory proper there
  rw [updateCurrentLink, bind_apply_ok removed]
  exact ⟨_, rfl⟩

theorem created_mem_updateCurrentLink (proper : route.nul = false)
    (nothing : tree route.place = none)
    (above : tree route.place.dropLast = some .directory) {target : String} (named : target ≠ "")
    (plain : ¬ HasNul target) :
    .created route.place ∈ (updateCurrentLink healthy route target tree).journal := by
  have absent : route.stat tree = none := by
    rw [Route.stat, if_neg (by rw [proper]; exact nofun), Tree.stat_of_none nothing]
  have kept : removeCurrent healthy route tree = ⟨.ok (), tree, []⟩ := by
    rw [removeCurrent, get_bind_apply, if_neg]
    · rfl
    · rw [Route.exists, absent, Route.isSymlink, nothing]
      simp
  have linked := symlink_of_none proper named plain nothing above
  rw [updateCurrentLink, bind_apply_ok kept, inContext, bind_apply_ok (attempt_apply _ _), linked]
  simp

theorem placePackage_of_forced (disk : Disk) (package : CheckedPackage) (tree : Tree) :
    placePackage disk true home package tree = (do
      makeVersionDir disk home package.manifest
      copyPackage disk package
        (versionDir home package.manifest.pluginId package.manifest.pluginVersion)
      updateCurrentLink disk (currentLink home package.manifest.pluginId)
        package.manifest.pluginVersion
      return InstallOutcome.installed package.manifest : FileAction InstallOutcome) tree := by
  rw [placePackage, get_bind_apply, if_neg (by simp)]

end Runs

/-! ### What a run shows -/

section Shown

variable {home : Location} {manifest : InstallManifest} {name entry : String}

theorem homeStands_downTo {places : List Location} (member : home ∈ places) :
    HomeStands home (Tree.downTo places) := by
  intro place above
  rw [Tree.downTo_of_above member above]
  exact nofun

theorem passes_of_above {place : Location} (above : place <+: home ++ [name] ++ [entry]) :
    place <+: home ∨ home ++ [name] <+: place := by
  rcases List.prefix_concat_iff.mp above with rfl | above
  · exact .inr (List.prefix_append _ _)
  · rcases List.prefix_concat_iff.mp above with rfl | above
    · exact .inr (List.prefix_refl _)
    · exact .inl above

theorem contained_of_stays_of_nul
    (proper : (pluginDir home manifest.pluginId).nul = false)
    (nul : (versionDir home manifest.pluginId manifest.pluginVersion).nul = true)
    (stays : Stays home (versionDir home manifest.pluginId manifest.pluginVersion).place
      (currentLink home manifest.pluginId).place
      (placePackage healthy true home (emptyPackage manifest) (Tree.downTo [home])).journal) :
    Contained home manifest.pluginId manifest.pluginVersion := by
  obtain ⟨name, isName, stays⟩ := stays
  obtain ⟨log, made, created⟩ :=
    journal_makeVersionDir_of_nul proper nul (Tree.onlyDirs_downTo [home])
  have journal : (placePackage healthy true home (emptyPackage manifest)
      (Tree.downTo [home])).journal = log := by
    rw [placePackage_of_forced]
    simp only [emptyPackage]
    rw [bind_apply_of_error (congrArg Outcome.result made), made]
  rw [journal] at stays
  refine .inr ⟨name, isName, fun place passed => ?_, .inl nul⟩
  by_cases there : Tree.downTo [home] place = none
  · exact .inr (stays.within _ (created place passed there))
  · obtain ⟨low, member, above⟩ := Tree.exists_of_downTo there
    rw [List.mem_singleton.mp member] at above
    exact .inl above

section Linked

variable {tree : Tree} {dir : Route} {text : String} {touches more : List Touch}

/-- Where the package is copied, the link is made or removed in the directory of the plugin, and
not above the version. -/
theorem link_of_stays (proper : dir.nul = false) (whole : dir.Whole)
    (properVersion : (dir.join text).nul = false)
    (isEntry : (dir.join text).place = home ++ [name] ++ [entry])
    (passes : PassesIn home (home ++ [name]) dir)
    (unpassed : (dir.join text).place ++ ["plugin.json"] ∉ (dir.join text).way)
    (wrote : .wrote ((dir.join text).place ++ ["plugin.json"]) ∈ touches)
    (stays : StaysIn (home ++ [name]) (dir.join text).place (dir.join "current").place
      (touches ++ ((updateCurrentLink healthy (dir.join "current") text
        (unpacked (remade (Tree.downTo [home, (dir.join text).place]) dir (dir.join text))
          (dir.join text))).journal ++ more))) :
    home ++ [name] <+: (dir.join "current").place ∧
      ¬ (dir.join "current").place <+: (dir.join text).place := by
  have isCurrent : IsName "current" := by decide
  have place : (dir.join "current").place = dir.place ++ ["current"] :=
    Route.place_join_of_isName isCurrent
  have properLink : (dir.join "current").nul = false := by
    rw [Route.nul_join_of_isName isCurrent (by decide), proper]
  have nothing : remade (Tree.downTo [home, (dir.join text).place]) dir (dir.join text)
      ((dir.join text).place ++ ["plugin.json"]) = none :=
    remade_of_below (List.prefix_append _ _) unpassed
  have stands {other : Location} (outside : ¬ (dir.join text).place <+: other)
      (above : ∃ low ∈ [home, (dir.join text).place], other <+: low) :
      unpacked (remade (Tree.downTo [home, (dir.join text).place]) dir (dir.join text))
        (dir.join text) other = some .directory :=
    unpacked_of_directory nothing (remade_of_outside outside (if_pos above))
  have apart : (dir.join "current").place ≠ (dir.join text).place ++ ["plugin.json"] := by
    rw [place]
    intro same
    exact absurd (List.append_inj' same rfl).2 (by decide)
  have only := onlyDirs_remade (Tree.onlyDirs_downTo [home, (dir.join text).place]) dir
    (dir.join text)
  rcases unpacked_of_ne only apart with free | taken
  · constructor
    · by_cases below : home ++ [name] <+: dir.place
      · rw [place]
        exact below.trans (List.prefix_append _ _)
      -- otherwise the directory of the plugin is the home or above it, and the link is made there
      have above : dir.place <+: home := by
        by_cases root : dir.place = []
        · rw [root]
          exact List.nil_prefix
        · exact (passes _ (whole _ (List.prefix_refl _) root)).resolve_right below
      have longer : ¬ (dir.join text).place <+: dir.place := by
        intro under
        have length := (under.trans above).length_le
        rw [isEntry, List.length_append, List.length_append] at length
        simp only [List.length_singleton] at length
        omega
      have named : text ≠ "" := by
        rintro rfl
        exact longer (by rw [Route.place_join]; exact List.prefix_refl _)
      have plain : ¬ HasNul text := by
        intro nul
        have refused : (dir.join text).nul = true := Route.nul_join.mpr (.inl nul)
        rw [properVersion] at refused
        cases refused
      have created := created_mem_updateCurrentLink properLink free
        (by
          rw [place, List.dropLast_concat]
          exact stands longer ⟨home, List.mem_cons_self, above⟩) named plain
      exact stays.within (.created _)
        (List.mem_append_right _ (List.mem_append_left _ created))
    · -- what is above the version is a directory
      intro under
      by_cases below : (dir.join text).place <+: (dir.join "current").place
      · have same := under.eq_of_length (le_antisymm under.length_le below.length_le)
        have onWay : (dir.join text).place ∈ (dir.join text).way :=
          whole.join text _ (List.prefix_refl _) (by rw [isEntry]; simp)
        rw [same, unpacked_of_directory nothing (remade_of_mem onWay)] at free
        cases free
      · rw [stands below ⟨_, List.mem_cons_of_mem _ List.mem_cons_self, under⟩] at free
        cases free
  · -- the link takes the place of a directory, after the manifest is written
    obtain ⟨log, removed⟩ := removed_mem_updateCurrentLink properLink taken text
    rw [removed] at stays
    have within := stays.within (.removed (dir.join "current").place) (by simp)
    rcases stays.removals touches (dir.join "current").place (log ++ more) (by simp) with
      ⟨_, apart⟩ | ⟨_, _, unwritten⟩
    · exact ⟨within, apart⟩
    · exact absurd wrote (unwritten _)

end Linked

theorem passes_of_downTo {place version : Location} (isEntry : version = home ++ [name] ++ [entry])
    (there : Tree.downTo [home, version] place ≠ none) :
    place <+: home ∨ home ++ [name] <+: place := by
  obtain ⟨low, member, above⟩ := Tree.exists_of_downTo there
  rcases List.mem_cons.mp member with rfl | member
  · exact .inl above
  · rw [List.mem_singleton.mp member, isEntry] at above
    exact passes_of_above above

theorem exists_journal_bind {α β : Type} (act : FileAction α) (next : α → FileAction β)
    (tree : Tree) : ∃ more, ((act >>= next) tree).journal = (act tree).journal ++ more := by
  cases ran : (act tree).result with
  | ok a =>
    rw [bind_apply_of_result ran]
    exact ⟨_, rfl⟩
  | error e =>
    rw [bind_apply_of_error ran]
    exact ⟨[], (List.append_nil _).symm⟩

/-- The paths for an id and a version stay in the directory of one plugin when an installation
over directories does. -/
theorem contained_of_stays (stays : ∀ tree, HomeStands home tree →
    Stays home (versionDir home manifest.pluginId manifest.pluginVersion).place
      (currentLink home manifest.pluginId).place
      (placePackage healthy true home (emptyPackage manifest) tree).journal) :
    Contained home manifest.pluginId manifest.pluginVersion := by
  by_cases nulDir : (pluginDir home manifest.pluginId).nul = true
  · exact .inl nulDir
  rw [Bool.not_eq_true] at nulDir
  by_cases nul : (versionDir home manifest.pluginId manifest.pluginVersion).nul = true
  · exact contained_of_stays_of_nul nulDir nul
      (stays _ (homeStands_downTo (List.mem_singleton_self home)))
  rw [Bool.not_eq_true] at nul
  generalize isVersion : versionDir home manifest.pluginId manifest.pluginVersion = version at nul
  obtain ⟨name, isName, stays⟩ := stays (Tree.downTo [home, version.place])
    (homeStands_downTo List.mem_cons_self)
  have only := Tree.onlyDirs_downTo [home, version.place]
  obtain ⟨log, log', made, created, recreated⟩ := makeVersionDir_of_onlyDirs nulDir isVersion nul
    only (Tree.downTo_of_above (List.mem_cons_of_mem _ List.mem_cons_self) (List.prefix_refl _))
  rw [placePackage_of_forced] at stays
  simp only [emptyPackage, isVersion] at stays
  rw [bind_apply_ok made] at stays
  simp only at stays
  -- the previous copy, which was removed, was an entry of the directory of the plugin
  obtain ⟨entry, isEntry⟩ : ∃ entry, version.place = home ++ [name] ++ [entry] := by
    rcases stays.removals log version.place (log' ++ _) (by
      rw [List.append_assoc, List.cons_append]) with ⟨same, apart⟩ | ⟨_, isEntry, _⟩
    · exact absurd (same ▸ List.prefix_refl _) apart
    · exact isEntry
  have passesDir : PassesIn home (home ++ [name]) (pluginDir home manifest.pluginId) := by
    intro place passed
    by_cases there : Tree.downTo [home, version.place] place = none
    · exact .inr (stays.within (.created place)
        (List.mem_append_left _ (List.mem_append_left _ (created place passed there))))
    · exact passes_of_downTo isEntry there
  have passesVersion : PassesIn home (home ++ [name]) version := by
    intro place passed
    by_cases member : place ∈ (pluginDir home manifest.pluginId).way
    · exact passesDir place member
    by_cases there : Tree.downTo [home, version.place] place = none
    · have missing : ((Tree.downTo [home, version.place]).withDirs
          (pluginDir home manifest.pluginId).way).prune version.place place = none := by
        by_cases below : version.place <+: place
        · exact Tree.prune_of_below below
        · rw [Tree.prune_of_outside below, Tree.withDirs_of_not_mem member, there]
      exact .inr (stays.within (.created place) (List.mem_append_left _
        (List.mem_append_right _ (List.mem_cons_of_mem _ (recreated place passed missing)))))
    · exact passes_of_downTo isEntry there
  subst isVersion
  refine .inr ⟨name, isName, passesDir, .inr ⟨⟨entry, isEntry⟩, passesVersion, ?_⟩⟩
  by_cases unpassed : (versionDir home manifest.pluginId manifest.pluginVersion).place ++
      ["plugin.json"] ∈ (versionDir home manifest.pluginId manifest.pluginVersion).way
  · exact .inl unpassed
  refine .inr ?_
  have whole : (pluginDir home manifest.pluginId).Whole :=
    (Route.whole_direct home).join manifest.pluginId
  have onWay : (versionDir home manifest.pluginId manifest.pluginVersion).place ∈
      (versionDir home manifest.pluginId manifest.pluginVersion).way :=
    whole.join _ _ (List.prefix_refl _) (by rw [isEntry]; simp)
  obtain ⟨log'', copied⟩ := @copyPackage_of_onlyDirs _ manifest _ nul
    (onlyDirs_remade only _ _) (remade_of_below (List.prefix_append _ _) unpassed)
    (fun _ => remade_of_mem) (remade_of_mem onWay)
  simp only [emptyPackage] at copied
  rw [bind_apply_ok copied] at stays
  obtain ⟨more, journal⟩ := exists_journal_bind (updateCurrentLink healthy
    (currentLink home manifest.pluginId) manifest.pluginVersion)
    (fun _ => (pure (InstallOutcome.installed manifest) : FileAction InstallOutcome))
    (unpacked (remade (Tree.downTo [home,
      (versionDir home manifest.pluginId manifest.pluginVersion).place])
      (pluginDir home manifest.pluginId) (versionDir home manifest.pluginId
        manifest.pluginVersion)) (versionDir home manifest.pluginId manifest.pluginVersion))
  simp only [journal] at stays
  rw [← List.append_assoc] at stays
  refine link_of_stays nulDir whole nul isEntry passesDir unpassed ?_ stays
  exact List.mem_append_right _ List.mem_cons_self

end Shown

/-! ### Packages of any content -/

def plainManifest (id version : String) : Value :=
  .obj [("id", .str id), ("version", .str version), ("entrypoint", .str "plugin.wasm"),
    ("capabilities", .arr [.str "tool_provider"])]

def plainPackage : Package where
  manifest := some (.ok [])
  payload := some (.ok .nil)
  entrypoint _ := some (.ok "")
  signature := none

def plainEnvironment (library : SignatureLibrary κ ς) (id version : String) :
    InstallEnvironment κ ς where
  library := library
  parseJson _ := .ok (plainManifest id version)
  trustPath := ""
  trust := .missing

theorem readPackage_plainPackage (library : SignatureLibrary κ ς) (id version : String) :
    readPackage (plainEnvironment library id version) false plainPackage =
      .ok (emptyPackage ⟨id, id, version, "unknown"⟩) := rfl

/-- Every installation of a package with this id and version stays in the directory of one
plugin. -/
def InstallStays (library : SignatureLibrary κ ς) (home : Location) (id version : String) : Prop :=
  ∀ parseJson trustPath trust disk force strict package tree,
    (∀ checked, readPackage ⟨library, parseJson, trustPath, trust⟩ strict package = .ok checked →
      checked.manifest.pluginId = id ∧ checked.manifest.pluginVersion = version) →
    HomeStands home tree →
      Stays home (versionDir home id version).place (currentLink home id).place
        (installFromExtractedDir ⟨library, parseJson, trustPath, trust⟩ disk force strict home
          package tree).journal

theorem installStays_iff {library : SignatureLibrary κ ς} {home : Location} {id version : String} :
    InstallStays library home id version ↔ Contained home id version := by
  constructor
  · intro stays
    refine @contained_of_stays home ⟨id, id, version, "unknown"⟩ fun tree stands => ?_
    have read := readPackage_plainPackage library id version
    have named : ∀ checked,
        readPackage (plainEnvironment library id version) false plainPackage = .ok checked →
          checked.manifest.pluginId = id ∧ checked.manifest.pluginVersion = version := by
      intro checked accepted
      cases read.symm.trans accepted
      exact ⟨rfl, rfl⟩
    have ran : Stays home (versionDir home id version).place (currentLink home id).place
        (installFromExtractedDir (plainEnvironment library id version) healthy true false home
          plainPackage tree).journal :=
      stays _ _ _ healthy true false plainPackage tree named stands
    rwa [installFromExtractedDir, read, ofExcept_ok, Action.pure_bind] at ran
  · intro contained parseJson trustPath trust disk force strict package tree named stands
    rw [installFromExtractedDir]
    cases accepted : readPackage ⟨library, parseJson, trustPath, trust⟩ strict package with
    | error e => exact stays_nil
    | ok checked =>
      obtain ⟨rfl, rfl⟩ := named checked accepted
      rw [ofExcept_ok, Action.pure_bind]
      exact (stays_placePackage disk force checked contained stands).2

/-! ### Removals -/

def InPlugins (home : Location) (touches : List Touch) : Prop :=
  ∀ touch ∈ touches, ∃ name, IsName name ∧ home ++ [name] <+: touch.place

def UninstallStays (home : Location) (id : String) : Prop :=
  ∀ fault confirmation tree,
    InPlugins home (uninstall fault confirmation home id tree).journal

theorem eq_of_mem_removeDirAll {fault : Option Fault} {route : Route} {tree : Tree} {touch : Touch}
    (member : touch ∈ (removeDirAll fault route tree).journal) :
    route.nul = false ∧ touch = .removed route.place := by
  rw [removeDirAll] at member
  split_ifs at member with nul
  · cases member
  refine ⟨Bool.not_eq_true _ ▸ nul, ?_⟩
  rw [get_bind_apply] at member
  cases held : tree route.place with
  | none =>
    simp only [held] at member
    cases member
  | some node =>
    simp only [held] at member
    -- a link and a directory are removed, and a directory in part when the removal fails
    cases node <;> cases fault <;> simp only at member
    · exact List.mem_singleton.mp member
    · exact List.mem_singleton.mp member
    · cases member
    · cases member
    · exact List.mem_singleton.mp member
    · cases member

theorem mem_journal_inContext {α : Type} (text : String) (act : FileAction α) (tree : Tree)
    {touch : Touch} :
    touch ∈ (inContext text act tree).journal ↔ touch ∈ (act tree).journal := by
  rw [inContext, mem_journal_bind]
  constructor
  · rintro (tried | ⟨result, _, after⟩)
    · exact tried
    · cases result <;> cases after
  · exact .inl

theorem eq_of_mem_uninstall {fault : Option Fault} {confirmation : Confirmation} {home : Location}
    {id : String} {tree : Tree} {touch : Touch}
    (member : touch ∈ (uninstall fault confirmation home id tree).journal) :
    (pluginDir home id).nul = false ∧ touch = .removed (pluginDir home id).place := by
  rw [uninstall, get_bind_apply] at member
  split_ifs at member
  · rw [mem_journal_bind, journal_ofExcept] at member
    obtain ⟨confirmed, -, member⟩ := member.resolve_left List.not_mem_nil
    dsimp only at member
    split_ifs at member
    · rcases mem_journal_bind.mp member with removed | ⟨_, _, returned⟩
      · exact eq_of_mem_removeDirAll ((mem_journal_inContext _ _ _).mp removed)
      · cases returned
    · cases member
  · cases member

theorem uninstall_of_directory {home : Location} {id : String} {tree : Tree}
    (proper : (pluginDir home id).nul = false)
    (there : tree (pluginDir home id).place = some .directory) :
    .removed (pluginDir home id).place ∈ (uninstall none .flag home id tree).journal := by
  have present : (pluginDir home id).exists tree = true := by
    rw [Route.exists, Route.stat, if_neg (by rw [proper]; exact nofun),
      Tree.stat_of_directory there]
    rfl
  have removed := removeDirAll_of_directory proper there
  rw [uninstall, get_bind_apply, if_neg (by simp [present]), confirm, ofExcept_ok,
    Action.pure_bind, if_pos rfl]
  refine mem_journal_bind.mpr (.inl ((mem_journal_inContext _ _ tree).mpr ?_))
  rw [removed]
  exact List.mem_singleton_self _

theorem uninstallStays_iff {home : Location} {id : String} : UninstallStays home id ↔
    (pluginDir home id).nul ∨
      ∃ name, IsName name ∧ home ++ [name] <+: (pluginDir home id).place := by
  constructor
  · intro stays
    rw [or_iff_not_imp_left, Bool.not_eq_true]
    intro proper
    have there := Tree.downTo_of_above (List.mem_singleton_self (pluginDir home id).place)
      (List.prefix_refl _)
    exact stays none .flag _ _ (uninstall_of_directory proper there)
  · intro proper fault confirmation tree touch member
    obtain ⟨isProper, rfl⟩ := eq_of_mem_uninstall member
    exact proper.resolve_left (by rw [isProper]; exact nofun)

/-! ### Installations from the index -/

/-- The home stands, and what is touched lies in the directories of plugins. -/
structure Managed (home : Location) (tree : Tree) (touches : List Touch) : Prop where
  stands : HomeStands home tree
  touched : InPlugins home touches

abbrev Manages {α : Type} (home : Location) (act : FileAction α) : Prop :=
  Keeps recordTouch (fun _ => True) (Managed home) act

def Offered (env : InstallEnvironment κ ς) (remote : Remote) (strict : Bool)
    (checked : CheckedPackage) : Prop :=
  ∃ packageUrl sha256 package, remote.download packageUrl sha256 = .ok package ∧
    readPackage env strict package = .ok checked

section Index

variable {α : Type} {home : Location} {env : InstallEnvironment κ ς} {remote : Remote}
  {strict : Bool}

theorem manages_pure (a : α) : Manages home (pure a : FileAction α) :=
  keeps_pure (fun _ _ _ => trivial) a

theorem manages_ofExcept {β : Type} {result : Except String α} {next : α → FileAction β}
    (goes : ∀ a, result = .ok a → Manages home (next a)) :
    Manages home (Action.ofExcept result >>= next) := by
  cases result with
  | error e => exact keeps_fail (fun _ _ _ => trivial) e
  | ok a => exact goes a rfl

theorem manages_placePackage (disk : Disk) (force : Bool) {package : CheckedPackage}
    (contained : Contained home package.manifest.pluginId package.manifest.pluginVersion) :
    Manages home (placePackage disk force home package) := by
  intro tree touches managed
  obtain ⟨stands, name, isName, stays⟩ :=
    stays_placePackage disk force package contained managed.stands
  refine ⟨fun _ => trivial, stands, ?_⟩
  rw [foldl_recordTouch]
  intro touch member
  rcases List.mem_append.mp member with before | now
  · exact managed.touched touch before
  · exact ⟨name, isName, stays.within touch now⟩

variable (contained : ∀ checked, Offered env remote strict checked →
  Contained home checked.manifest.pluginId checked.manifest.pluginVersion)
include contained

theorem manages_offered (disk : Disk) (force : Bool) {packageUrl sha256 : String}
    {package : Package} (downloaded : remote.download packageUrl sha256 = .ok package) :
    Manages home (installFromExtractedDir env disk force strict home package) :=
  manages_ofExcept fun checked accepted => manages_placePackage disk force
    (contained checked ⟨packageUrl, sha256, package, downloaded, accepted⟩)

theorem manages_installFromIndex (disk : Disk) (force : Bool) (id : String)
    (version : Option String) :
    Manages home (installFromIndex env remote disk force strict home id version) := by
  apply manages_ofExcept
  intro selected _
  apply keeps_get_bind fun _ _ _ => trivial
  intro tree touches managed
  split_ifs
  · exact manages_pure _ tree touches managed
  · exact manages_ofExcept (fun package downloaded =>
      manages_offered contained disk force downloaded) tree touches managed

theorem manages_updateAll (disk : Disk) (plan : String → String → Option IndexedPackage)
    (installed : List (String × String)) :
    Manages home (updateAll env remote disk strict home plan installed) := by
  induction installed with
  | nil => exact manages_pure _
  | cons plugin rest ih =>
    obtain ⟨id, currentVersion⟩ := plugin
    rw [updateAll]
    cases plan id currentVersion with
    | none => exact ih
    | some latest =>
      apply manages_ofExcept
      intro package downloaded
      apply keeps_bind (manages_offered contained disk true downloaded)
      intro outcome
      exact keeps_bind ih fun outcomes => manages_pure _

theorem manages_update (disk : Disk) (installed : CliResult (List (String × String)))
    (only : Option String) (dryRun : Bool) :
    Manages home (update env remote disk strict home installed only dryRun) := by
  apply manages_ofExcept
  intro index _
  apply manages_ofExcept
  intro plugins _
  apply manages_ofExcept
  intro installed _
  exact manages_updateAll contained disk _ installed

end Index

theorem Manages.inPlugins {α : Type} {home : Location} {act : FileAction α}
    (manages : Manages home act) {tree : Tree} (stands : HomeStands home tree) :
    InPlugins home (act tree).journal := by
  have atEnd := (manages tree [] ⟨stands, fun _ member => by cases member⟩).2
  rw [foldl_recordTouch, List.nil_append] at atEnd
  exact atEnd.touched

/-- Installations of an id and a version stay in the directory of one plugin exactly when the
paths for them are contained, removals of an id exactly when its path is refused or leads below
the home, and installations from the index and updates do where they are offered contained
packages. -/
theorem plugin_management_stays (library : SignatureLibrary κ ς) (home : Location) :
    (∀ id version, InstallStays library home id version ↔ Contained home id version) ∧
    (∀ id, UninstallStays home id ↔ (pluginDir home id).nul ∨
      ∃ name, IsName name ∧ home ++ [name] <+: (pluginDir home id).place) ∧
    ∀ parseJson trustPath trust remote strict,
      (∀ checked, Offered ⟨library, parseJson, trustPath, trust⟩ remote strict checked →
        Contained home checked.manifest.pluginId checked.manifest.pluginVersion) →
      ∀ disk tree, HomeStands home tree →
        (∀ force id version, InPlugins home (installFromIndex
          ⟨library, parseJson, trustPath, trust⟩ remote disk force strict home id version
            tree).journal) ∧
        ∀ installed only dryRun, InPlugins home (update
          ⟨library, parseJson, trustPath, trust⟩ remote disk strict home installed only dryRun
            tree).journal := by
  refine ⟨fun _ _ => installStays_iff, fun _ => uninstallStays_iff, ?_⟩
  intro parseJson trustPath trust remote strict contained disk tree stands
  constructor
  · intro force id version
    exact (manages_installFromIndex contained disk force id version).inPlugins stands
  · intro installed only dryRun
    exact (manages_update contained disk installed only dryRun).inPlugins stands

def plainRemote (id version : String) : Remote where
  index := .ok (.obj [("schema_version", .str "v1"), ("plugins", .arr [.obj [("id", .str id),
    ("version", .str version), ("package_url", .str "url"), ("sha256", .str "sha")]])])
  download _ _ := .ok plainPackage

/-- An installation from such an index and an update, for a version with a plain name. -/
theorem plain_package_stays :
    InPlugins ["home"] (installFromIndex (plainEnvironment tightLibrary "acme.echo" "1.0.0")
        (plainRemote "acme.echo" "1.0.0") healthy true false ["home"] "acme.echo" none
          (Tree.downTo [["home"]])).journal ∧
      InPlugins ["home"] (update (plainEnvironment tightLibrary "acme.echo" "1.0.0")
        (plainRemote "acme.echo" "1.0.0") healthy false ["home"] (.ok [("acme.echo", "0.9.0")])
          (some "acme.echo") false (Tree.downTo [["home"]])).journal := by
  have contained : ∀ checked, Offered (plainEnvironment tightLibrary "acme.echo" "1.0.0")
      (plainRemote "acme.echo" "1.0.0") false checked →
        Contained ["home"] checked.manifest.pluginId checked.manifest.pluginVersion := by
    rintro checked ⟨_, _, package, downloaded, accepted⟩
    obtain rfl := Except.ok.inj downloaded
    obtain rfl := Except.ok.inj
      ((readPackage_plainPackage tightLibrary "acme.echo" "1.0.0").symm.trans accepted)
    exact .inr ⟨"acme.echo", by decide, containedIn_of_names (by decide) (by decide) (by decide)⟩
  obtain ⟨-, -, stays⟩ := plugin_management_stays tightLibrary ["home"]
  obtain ⟨installs, updates⟩ := stays _ _ _ _ false contained healthy (Tree.downTo [["home"]])
    (homeStands_downTo List.mem_cons_self)
  exact ⟨installs true "acme.echo" none, updates (.ok [("acme.echo", "0.9.0")]) _ false⟩

/-! ### A version that is the plugin home -/

/-- A package with two dots for its version takes the place of the plugin home. -/
theorem version_of_dots_leaves :
    ¬ ∀ home id version, InstallStays tightLibrary home id version := by
  intro stays
  have contained := installStays_iff.mp (stays ["home", "plugins"] "acme.echo" "..")
  rcases contained with refused | ⟨name, _, _, refused | ⟨⟨entry, place⟩, _⟩⟩
  · exact absurd refused (by decide)
  · exact absurd refused (by decide)
  · -- the version is the plugin home itself, and no entry of the directory of a plugin
    have length : (versionDir ["home", "plugins"] "acme.echo" "..").place.length = 2 := by decide
    rw [place] at length
    exact absurd length (by simp)

end KelvinClaw.Cli
