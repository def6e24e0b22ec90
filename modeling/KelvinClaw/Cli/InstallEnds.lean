import KelvinClaw.Cli.InstallSteps

/-!
# How installations end

An installation makes the directory of the plugin, removes the version that was there, copies the
package and moves the link, and it ends at the first of these steps that fails. What it leaves is
nothing, the first entries of the package or all of them, with the old link, no link or the new one.
-/

namespace KelvinClaw.Cli

open KelvinClaw.Core KelvinClaw.Plugin Systems Systems.Action Systems.FileAction Systems.Route
  Systems.Tree CopyStep

variable {κ ς : Type}

/-! ### Plugin homes -/

def versionPlace (home : Location) (package : CheckedPackage) (version : String) : Location :=
  (versionDir home package.manifest.pluginId version).place

def packagePlace (home : Location) (package : CheckedPackage) : Location :=
  versionPlace home package package.manifest.pluginVersion

def currentPlace (home : Location) (package : CheckedPackage) : Location :=
  (currentLink home package.manifest.pluginId).place

/-- A package whose id and version name entries of directories, and whose payload can be listed. -/
structure Plain (package : CheckedPackage) (listing : Listing) : Prop where
  id : IsName package.manifest.pluginId ∧ ¬ HasNul package.manifest.pluginId
  version : IsName package.manifest.pluginVersion ∧ ¬ HasNul package.manifest.pluginVersion
  notCurrent : package.manifest.pluginVersion ≠ "current"
  payload : package.payload = .ok listing
  distinct : listing.Distinct

/-- The directory of the plugin may be made, the version is a directory or nothing, and the link, if
there is one, has the name of a version. -/
structure Ready (home : Location) (package : CheckedPackage) (tree : Tree) : Prop where
  way : ∀ place ∈ (pluginDir home package.manifest.pluginId).way,
    tree place = none ∨ tree place = some .directory
  version : tree (packagePlace home package) = none ∨
    tree (packagePlace home package) = some .directory
  nothing : tree (packagePlace home package) = none →
    ∀ other, packagePlace home package <+: other → tree other = none
  current : tree (currentPlace home package) = none ∨
    ∃ name, IsName name ∧ tree (currentPlace home package) = some (.link name)

def failing (step : InstallStep) (fault : Fault) : Disk :=
  fun other => if other = step then some fault else none

section Places

variable {home : Location} {package : CheckedPackage} {listing : Listing} {tree : Tree}
  {name : String}

theorem versionPlace_eq (plain : Plain package listing) (isName : IsName name) :
    versionPlace home package name = home ++ [package.manifest.pluginId] ++ [name] := by
  rw [versionPlace, versionDir, place_join_of_isName isName, pluginDir,
    place_join_of_isName plain.id.1]
  rfl

theorem packagePlace_eq (plain : Plain package listing) : packagePlace home package =
    home ++ [package.manifest.pluginId] ++ [package.manifest.pluginVersion] :=
  versionPlace_eq plain plain.version.1

theorem currentPlace_eq (plain : Plain package listing) :
    currentPlace home package = home ++ [package.manifest.pluginId] ++ ["current"] := by
  rw [currentPlace, currentLink, place_join_of_isName (by decide), pluginDir,
    place_join_of_isName plain.id.1]
  rfl

theorem inside_packagePlace (plain : Plain package listing) :
    home ++ [package.manifest.pluginId] ++ [package.manifest.pluginVersion] <+:
      packagePlace home package := ⟨[], (List.append_nil _).trans (packagePlace_eq plain).symm⟩

theorem inside_currentPlace (plain : Plain package listing) :
    home ++ [package.manifest.pluginId] ++ ["current"] <+: currentPlace home package :=
  ⟨[], (List.append_nil _).trans (currentPlace_eq plain).symm⟩

theorem eq_of_prefix_entries {base other : Location} {name name' : String}
    (above : base ++ [name] <+: other) (above' : base ++ [name'] <+: other) : name = name' := by
  have same := List.prefix_of_prefix_length_le above above' (by simp)
  have equal := same.eq_of_length (by simp)
  exact (List.cons.inj (List.append_cancel_left equal)).1

theorem way_pluginDir (plain : Plain package listing) :
    ∀ place ∈ (pluginDir home package.manifest.pluginId).way,
      place <+: home ++ [package.manifest.pluginId] := by
  rw [pluginDir, way_join_of_isName plain.id.1, List.forall_mem_append, List.forall_mem_singleton]
  refine ⟨fun place member => ?_, List.prefix_refl _⟩
  exact ((List.mem_inits place home).mp member).trans (List.prefix_append _ _)

theorem not_mem_way (plain : Plain package listing) {id : String} {other : Location}
    (inside : home ++ [id] ++ [name] <+: other) :
    other ∉ (pluginDir home package.manifest.pluginId).way := by
  intro member
  have shorter := (inside.trans (way_pluginDir plain other member)).length_le
  simp only [List.length_append, List.length_singleton] at shorter
  exact Nat.not_succ_le_self _ shorter

end Places

/-! ### How an installation ends -/

def prepared (home : Location) (package : CheckedPackage) (tree : Tree) : Tree :=
  tree.withDirs (pluginDir home package.manifest.pluginId).way

/-- Nothing but the version and the link is different. -/
def SameBeside (home : Location) (package : CheckedPackage) (before after : Tree) : Prop :=
  ∀ other, ¬ packagePlace home package <+: other → other ≠ currentPlace home package →
    after other = before other

/-- How an installation ends that does not skip its package. -/
inductive PlaceEnds (home : Location) (package : CheckedPackage) (listing : Listing) (disk : Disk)
    (tree : Tree) : Outcome Tree Touch String InstallOutcome → Prop
  | dirFails {fault : Fault} {e : String} {places : List Location} {log : List Touch}
      (fails : disk .createPluginDir = some fault)
      (made : places ⊆ (pluginDir home package.manifest.pluginId).way) :
      PlaceEnds home package listing disk tree ⟨.error e, tree.withDirs places, log⟩
  | removalFails {fault : Fault} {e : String} {log : List Touch}
      (there : tree (packagePlace home package) = some .directory)
      (fails : disk .removeVersionDir = some fault) :
      PlaceEnds home package listing disk tree
        ⟨.error e, (prepared home package tree).lose (packagePlace home package) fault.lost, log⟩
  | copyFails {left : List Entry} {e : String} {t : Tree} {log : List Touch}
      (fails : leftOf disk (packageSteps package listing) = some left)
      (stands : t.Stands (packagePlace home package) left)
      (outside : SameOutside (packagePlace home package) (prepared home package tree) t) :
      PlaceEnds home package listing disk tree ⟨.error e, t, log⟩
  | unlinkFails {fault : Fault} {e : String} {t : Tree} {log : List Touch}
      (fails : disk .removeCurrent = some fault)
      (stands : t.Stands (packagePlace home package) (entriesMade (packageSteps package listing)))
      (outside : SameOutside (packagePlace home package) (prepared home package tree) t) :
      PlaceEnds home package listing disk tree ⟨.error e, t, log⟩
  | linkFails {fault : Fault} {e : String} {t : Tree} {log : List Touch}
      (fails : disk .linkCurrent = some fault)
      (stands : t.Stands (packagePlace home package) (entriesMade (packageSteps package listing)))
      (unlinked : t (currentPlace home package) = none)
      (beside : SameBeside home package (prepared home package tree) t) :
      PlaceEnds home package listing disk tree ⟨.error e, t, log⟩
  | installed {t : Tree} {log : List Touch}
      (noDir : disk .createPluginDir = none)
      (noRemoval : tree (packagePlace home package) = some .directory →
        disk .removeVersionDir = none)
      (noCopy : leftOf disk (packageSteps package listing) = none)
      (noLink : disk .linkCurrent = none)
      (stands : t.Stands (packagePlace home package) (entriesMade (packageSteps package listing)))
      (linked : t (currentPlace home package) = some (.link package.manifest.pluginVersion))
      (beside : SameBeside home package (prepared home package tree) t) :
      PlaceEnds home package listing disk tree ⟨.ok (.installed package.manifest), t, log⟩

section Ends

variable {home : Location} {package : CheckedPackage} {listing : Listing} {disk : Disk}
  {tree : Tree} {force : Bool}

theorem placePackage_of_not_skipped (plain : Plain package listing) (tree : Tree)
    (wanted : ¬ ((versionDir home package.manifest.pluginId
      package.manifest.pluginVersion).exists tree = true ∧ ¬ force = true)) :
    placePackage disk force home package tree = (do
      createDirAll (disk .createPluginDir) (pluginDir home package.manifest.pluginId)
      removePrevious disk
        (versionDir home package.manifest.pluginId package.manifest.pluginVersion)
      runSteps disk (versionDir home package.manifest.pluginId package.manifest.pluginVersion)
        (packageSteps package listing)
      updateCurrentLink disk (currentLink home package.manifest.pluginId)
        package.manifest.pluginVersion
      return InstallOutcome.installed package.manifest : FileAction InstallOutcome) tree := by
  rw [placePackage, get_bind_apply, if_neg wanted, makeVersionDir, ← copyPackage_eq plain.payload]
  simp only [Action.bind_assoc]

theorem nul_pluginDir (plain : Plain package listing) :
    (pluginDir home package.manifest.pluginId).nul = false := by
  rw [pluginDir, nul_join_of_isName plain.id.1 plain.id.2]
  rfl

theorem nul_versionDir (plain : Plain package listing) :
    (versionDir home package.manifest.pluginId package.manifest.pluginVersion).nul = false := by
  rw [versionDir, nul_join_of_isName plain.version.1 plain.version.2, nul_pluginDir plain]

theorem nul_currentLink (plain : Plain package listing) :
    (currentLink home package.manifest.pluginId).nul = false := by
  rw [currentLink, nul_join_of_isName (by decide) (by decide), nul_pluginDir plain]

theorem exists_versionDir_iff (plain : Plain package listing)
    (version : tree (packagePlace home package) = none ∨
      tree (packagePlace home package) = some .directory) :
    (versionDir home package.manifest.pluginId package.manifest.pluginVersion).exists tree = true ↔
      tree (packagePlace home package) = some .directory := by
  have nul : ¬ (versionDir home package.manifest.pluginId
      package.manifest.pluginVersion).nul = true := by
    rw [nul_versionDir plain]
    exact nofun
  rw [Route.exists, Route.stat, if_neg nul]
  change (tree.stat (packagePlace home package)).isSome = true ↔ _
  rcases version with nothing | there
  · rw [stat_of_none nothing, nothing]
    exact iff_of_false nofun nofun
  · rw [stat_of_directory there, there]
    exact iff_of_true rfl rfl

theorem removePrevious_ends (plain : Plain package listing)
    (version : tree (packagePlace home package) = none ∨
      tree (packagePlace home package) = some .directory)
    (nothing : tree (packagePlace home package) = none →
      ∀ other, packagePlace home package <+: other → tree other = none) :
    (∃ t log, removePrevious disk
        (versionDir home package.manifest.pluginId package.manifest.pluginVersion) tree =
          ⟨.ok (), t, log⟩ ∧ SameOutside (packagePlace home package) tree t ∧
        t.Stands (packagePlace home package) [] ∧
        (tree (packagePlace home package) = some .directory → disk .removeVersionDir = none)) ∨
      ∃ fault e log, tree (packagePlace home package) = some .directory ∧
        disk .removeVersionDir = some fault ∧ removePrevious disk
          (versionDir home package.manifest.pluginId package.manifest.pluginVersion) tree =
            ⟨.error e, tree.lose (packagePlace home package) fault.lost, log⟩ := by
  have found := exists_versionDir_iff plain version
  rcases version with absent | there
  · refine .inl ⟨tree, [], ?_, fun _ _ => rfl, stands_nil (nothing absent), fun there => ?_⟩
    · rw [removePrevious, get_bind_apply, if_neg]
      · rfl
      · rw [found, absent]
        exact nofun
    · rw [absent] at there
      cases there
  · have runs : removePrevious disk
        (versionDir home package.manifest.pluginId package.manifest.pluginVersion) tree =
          removeDirAll (disk .removeVersionDir)
            (versionDir home package.manifest.pluginId package.manifest.pluginVersion) tree := by
      rw [removePrevious, get_bind_apply, if_pos (found.mpr there)]
    rw [runs]
    cases disk .removeVersionDir with
    | none =>
      refine .inl ⟨_, _, removeDirAll_of_directory (nul_versionDir plain) there, ?_, ?_, ?_⟩
      · exact fun other outside => prune_of_outside outside
      · exact stands_nil fun other inside => prune_of_below inside
      · exact fun _ => rfl
    | some fault =>
      exact .inr ⟨fault, _, _, there, rfl, removeDirAll_of_fault (nul_versionDir plain) fault there⟩

theorem removeCurrent_ends (plain : Plain package listing)
    (current : tree (currentPlace home package) = none ∨
      ∃ name, tree (currentPlace home package) = some (.link name)) :
    (∃ log, removeCurrent disk (currentLink home package.manifest.pluginId) tree =
        ⟨.ok (), tree.drop (currentPlace home package), log⟩) ∨
      ∃ fault e log, disk .removeCurrent = some fault ∧
        removeCurrent disk (currentLink home package.manifest.pluginId) tree =
          ⟨.error e, tree, log⟩ := by
  have nul := @nul_currentLink home package listing plain
  have place : (currentLink home package.manifest.pluginId).place = currentPlace home package := rfl
  rcases current with nothing | ⟨name, there⟩
  · refine .inl ⟨[], ?_⟩
    have absent : (currentLink home package.manifest.pluginId).exists tree = false := by
      rw [Route.exists, Route.stat, nul]
      exact congrArg Option.isSome (stat_of_none nothing)
    have plainPlace : (currentLink home package.manifest.pluginId).isSymlink tree = false := by
      rw [Route.isSymlink, place, nothing]
    have same : tree.drop (currentPlace home package) = tree := by
      rw [drop, ← nothing, Function.update_eq_self]
    rw [removeCurrent, get_bind_apply, absent, plainPlace, if_neg (by simp), same]
    rfl
  · have isLink : (currentLink home package.manifest.pluginId).isSymlink tree = true := by
      rw [Route.isSymlink, place, nul, there]
      rfl
    have runs : removeCurrent disk (currentLink home package.manifest.pluginId) tree =
        removeFile (disk .removeCurrent) (currentLink home package.manifest.pluginId) tree := by
      rw [removeCurrent, get_bind_apply, isLink, if_pos (.inr rfl), if_neg (by simp)]
    rw [runs]
    cases disk .removeCurrent with
    | none => exact .inl ⟨_, removeFile_of_link nul there⟩
    | some fault => exact .inr ⟨fault, _, _, rfl, removeFile_of_fault nul fault there⟩

theorem updateCurrentLink_ends (plain : Plain package listing)
    (base : tree (home ++ [package.manifest.pluginId]) = some .directory)
    (current : tree (currentPlace home package) = none ∨
      ∃ name, tree (currentPlace home package) = some (.link name)) :
    (∃ log, updateCurrentLink disk (currentLink home package.manifest.pluginId)
        package.manifest.pluginVersion tree =
          ⟨.ok (), (tree.drop (currentPlace home package)).put (currentPlace home package)
            (.link package.manifest.pluginVersion), log⟩ ∧ disk .linkCurrent = none) ∨
      (∃ fault e log, disk .removeCurrent = some fault ∧
        updateCurrentLink disk (currentLink home package.manifest.pluginId)
          package.manifest.pluginVersion tree = ⟨.error e, tree, log⟩) ∨
      ∃ fault e log, disk .linkCurrent = some fault ∧
        updateCurrentLink disk (currentLink home package.manifest.pluginId)
          package.manifest.pluginVersion tree =
            ⟨.error e, tree.drop (currentPlace home package), log⟩ := by
  rcases @removeCurrent_ends home package listing disk tree plain current with
    ⟨log, ran⟩ | ⟨fault, e, log, fails, ran⟩
  · have place := @currentPlace_eq home package listing plain
    have above : tree.drop (currentPlace home package)
        (currentLink home package.manifest.pluginId).place.dropLast = some .directory := by
      change tree.drop _ (currentPlace home package).dropLast = _
      rw [place, List.dropLast_concat, drop_of_ne, base]
      exact fun same => List.cons_ne_nil _ _ (List.self_eq_append_right.mp same)
    have linked : ∀ fault, symlink fault package.manifest.pluginVersion
        (currentLink home package.manifest.pluginId) (tree.drop (currentPlace home package)) = _ :=
      fun fault => symlink_eq_of_none (nul_currentLink plain) fault plain.version.1.nonempty
        plain.version.2 drop_self above
    cases fails : disk .linkCurrent with
    | none =>
      refine .inl ⟨log ++ [.created (currentPlace home package)], ?_, rfl⟩
      rw [updateCurrentLink, bind_apply_ok ran, fails, inContext_of_ok _ (linked none)]
      rfl
    | some fault =>
      refine .inr (.inr ⟨fault,
        s!"failed to create symlink {(currentLink home package.manifest.pluginId).text}", log ++ [],
        rfl, ?_⟩)
      rw [updateCurrentLink, bind_apply_ok ran, fails,
        inContext_of_error _ (linked (some fault))]
  · refine .inr (.inl ⟨fault, e, log, fails, ?_⟩)
    rw [updateCurrentLink, bind_apply_of_error (congrArg Outcome.result ran), ran]

theorem withDirs_of_inside (plain : Plain package listing) {places : List Location}
    (made : places ⊆ (pluginDir home package.manifest.pluginId).way) {id name : String}
    {other : Location} (inside : home ++ [id] ++ [name] <+: other) :
    tree.withDirs places other = tree other :=
  withDirs_of_not_mem fun member => not_mem_way plain inside (made member)

theorem prepared_of_inside (plain : Plain package listing) {id name : String} {other : Location}
    (inside : home ++ [id] ++ [name] <+: other) :
    prepared home package tree other = tree other :=
  withDirs_of_inside plain (List.Subset.refl _) inside

theorem site_versionDir (plain : Plain package listing) {t : Tree}
    (outside : SameOutside (packagePlace home package) (prepared home package tree) t) :
    Site (versionDir home package.manifest.pluginId package.manifest.pluginVersion) t where
  proper := nul_versionDir plain
  way := by
    have place := @packagePlace_eq home package listing plain
    refine ⟨(pluginDir home package.manifest.pluginId).way, ?_, fun other member => ?_⟩
    · change _ = _ ++ [packagePlace home package]
      rw [place, versionDir, way_join_of_isName plain.version.1, pluginDir,
        place_join_of_isName plain.id.1]
      rfl
    · have apart : ¬ packagePlace home package <+: other := fun inside =>
        not_mem_way plain (place ▸ inside) member
      exact ⟨(outside other apart).trans (withDirs_of_mem member), apart⟩

theorem currentPlace_outside (plain : Plain package listing) :
    ¬ packagePlace home package <+: currentPlace home package := by
  rw [packagePlace_eq plain, currentPlace_eq plain]
  exact fun inside => plain.notCurrent (eq_of_prefix_entries inside (List.prefix_refl _))

theorem base_outside (plain : Plain package listing) :
    ¬ packagePlace home package <+: home ++ [package.manifest.pluginId] := by
  rw [packagePlace_eq plain]
  intro inside
  have shorter := inside.length_le
  rw [List.length_append, List.length_singleton] at shorter
  exact Nat.not_succ_le_self _ shorter

theorem prepared_base (plain : Plain package listing) :
    prepared home package tree (home ++ [package.manifest.pluginId]) = some .directory := by
  refine withDirs_of_mem ?_
  rw [pluginDir, way_join_of_isName plain.id.1]
  exact List.mem_append_right _ (List.mem_singleton.mpr rfl)

/-- **Ends of an installation.** An installation that does not skip its package ends in one of these
ways. -/
theorem placeEnds (plain : Plain package listing) (ready : Ready home package tree)
    (wanted : tree (packagePlace home package) = some .directory → force = true) :
    PlaceEnds home package listing disk tree (placePackage disk force home package tree) := by
  have found := exists_versionDir_iff plain ready.version
  have versionAt := @packagePlace_eq home package listing plain
  have kept : ∀ other, packagePlace home package <+: other →
      prepared home package tree other = tree other := fun other inside =>
    prepared_of_inside plain (versionAt ▸ inside)
  have keptHere := kept _ (List.prefix_refl _)
  rw [placePackage_of_not_skipped plain tree
    fun skipped => skipped.2 (wanted (found.mp skipped.1))]
  -- the calls in the order of the source, each of which may be the one that fails
  cases noDir : disk .createPluginDir with
  | some fault =>
    obtain ⟨e, places, log, ran, made⟩ :=
      createDirAll_of_fault (nul_pluginDir plain) fault ready.way
    rw [bind_apply_of_error (congrArg Outcome.result ran), ran]
    exact .dirFails noDir made
  | none =>
    obtain ⟨log, made, -⟩ := createDirAll_of_ready (nul_pluginDir plain) ready.way
    have made : createDirAll none (pluginDir home package.manifest.pluginId) tree =
      ⟨.ok (), prepared home package tree, log⟩ := made
    have nothing : prepared home package tree (packagePlace home package) = none →
        ∀ other, packagePlace home package <+: other → prepared home package tree other = none :=
      fun absent other inside =>
        (kept other inside).trans (ready.nothing (keptHere ▸ absent) other inside)
    rcases @removePrevious_ends home package listing disk (prepared home package tree) plain
      (keptHere.symm ▸ ready.version) nothing with
        ⟨t, log', removed, outside, stands, noRemoval⟩ | ⟨fault, e, log', there, fails, removed⟩
    · obtain ⟨t', log'', outside', copied⟩ := @runSteps_of_nested disk _ t [] _
        (site_versionDir plain outside) stands (nested_packageSteps package plain.distinct)
        (noFile_packageSteps package listing)
      have outsideBoth := outside.trans outside'
      rw [bind_apply_ok made]
      cases noCopy : leftOf disk (packageSteps package listing) with
      | some left =>
        rw [noCopy] at copied
        obtain ⟨e, copied, there⟩ := copied
        rw [bind_apply_ok removed, bind_apply_of_error (congrArg Outcome.result copied), copied]
        exact .copyFails noCopy there outsideBoth
      | none =>
        rw [noCopy] at copied
        obtain ⟨copied, there⟩ := copied
        -- the copy has touched neither the link nor the directory that holds it
        have current : t' (currentPlace home package) = tree (currentPlace home package) :=
          (outsideBoth _ (currentPlace_outside plain)).trans
            (prepared_of_inside plain (inside_currentPlace plain))
        have base : t' (home ++ [package.manifest.pluginId]) = some .directory :=
          (outsideBoth _ (base_outside plain)).trans (prepared_base plain)
        have isLink : t' (currentPlace home package) = none ∨
            ∃ name, t' (currentPlace home package) = some (.link name) := by
          rw [current]
          rcases ready.current with absent | ⟨name, -, link⟩
          · exact .inl absent
          · exact .inr ⟨name, link⟩
        have elsewhere : ∀ {other}, packagePlace home package <+: other →
            other ≠ currentPlace home package := fun inside same =>
          currentPlace_outside plain (same ▸ inside)
        rcases @updateCurrentLink_ends home package listing disk t' plain base isLink with
          ⟨log₃, linked, noLink⟩ | ⟨fault, e, log₃, fails, linked⟩ | ⟨fault, e, log₃, fails, linked⟩
        · rw [bind_apply_ok removed, bind_apply_ok copied, bind_apply_ok linked]
          refine .installed noDir (keptHere ▸ noRemoval) noCopy noLink ?_ put_self ?_
          · exact there.of_same fun other inside =>
              (put_of_ne (elsewhere inside)).trans (drop_of_ne (elsewhere inside))
          · exact fun other apart notLink => (put_of_ne notLink).trans
              ((drop_of_ne notLink).trans (outsideBoth other apart))
        · rw [bind_apply_ok removed, bind_apply_ok copied,
            bind_apply_of_error (congrArg Outcome.result linked), linked]
          exact .unlinkFails fails there outsideBoth
        · rw [bind_apply_ok removed, bind_apply_ok copied,
            bind_apply_of_error (congrArg Outcome.result linked), linked]
          refine .linkFails fails (there.of_same fun other inside => drop_of_ne (elsewhere inside))
            drop_self fun other apart notLink => ?_
          exact (drop_of_ne notLink).trans (outsideBoth other apart)
    · rw [bind_apply_ok made, bind_apply_of_error (congrArg Outcome.result removed), removed]
      exact .removalFails (keptHere ▸ there) fails

/-- What an installation leaves. -/
structure Settled (home : Location) (package : CheckedPackage) (before after : Tree) : Prop where
  beside : ∃ places ⊆ (pluginDir home package.manifest.pluginId).way,
    SameBeside home package (before.withDirs places) after
  version : (∀ other, packagePlace home package <+: other → after other = none) ∨
    after (packagePlace home package) = some .directory
  current : after (currentPlace home package) = none ∨
    ∃ name, IsName name ∧ after (currentPlace home package) = some (.link name)

theorem version_of_stands {t : Tree} {left : List Entry}
    (stands : t.Stands (packagePlace home package) left)
    (top : left = [] ∨ ([], .directory) ∈ left) :
    (∀ other, packagePlace home package <+: other → t other = none) ∨
      t (packagePlace home package) = some .directory := by
  rcases top with rfl | top
  · refine .inl ?_
    rintro _ ⟨path, rfl⟩
    exact stands.eq_none fun _ => List.not_mem_nil
  · refine .inr ?_
    rw [← stands [] .directory, List.append_nil] at top
    exact top

theorem top_of_leftOf {left : List Entry}
    (fails : leftOf disk (packageSteps package listing) = some left) :
    left = [] ∨ ([], .directory) ∈ left := by
  rw [packageSteps, leftOf] at fails
  split at fails
  · obtain rfl := Option.some_inj.mp fails
    rw [part]
    split_ifs
    · exact .inl rfl
    · exact .inr List.mem_cons_self
  · obtain ⟨later, -, rfl⟩ := Option.map_eq_some_iff.mp fails
    exact .inr (List.mem_append_left _ List.mem_cons_self)

theorem top_of_entriesMade : ([], .directory) ∈ entriesMade (packageSteps package listing) :=
  entriesMade_packageSteps package listing ▸ List.mem_cons_self

/-- However an installation ends, the version is a directory or nothing, and the link has the name
of a version. -/
theorem settled_of_ends (plain : Plain package listing) (ready : Ready home package tree)
    {outcome : Outcome Tree Touch String InstallOutcome}
    (ends : PlaceEnds home package listing disk tree outcome) :
    Settled home package tree outcome.state := by
  have linkAt := @inside_currentPlace home package listing plain
  have whole := List.Subset.refl (pluginDir home package.manifest.pluginId).way
  have beside : ∀ {t : Tree}, SameOutside (packagePlace home package)
      (prepared home package tree) t → SameBeside home package (prepared home package tree) t :=
    fun outside other apart _ => outside other apart
  have link : ∀ {t : Tree}, SameOutside (packagePlace home package)
      (prepared home package tree) t → t (currentPlace home package) = none ∨
        ∃ name, IsName name ∧ t (currentPlace home package) = some (.link name) := by
    intro t outside
    rw [outside _ (currentPlace_outside plain), prepared_of_inside plain linkAt]
    exact ready.current
  -- only the removal and the copy touch the version, and only the last two calls the link
  cases ends with
  | dirFails fails made =>
    have same : ∀ {name : String} {other : Location},
        home ++ [package.manifest.pluginId] ++ [name] <+: other →
          tree.withDirs _ other = tree other := fun inside => withDirs_of_inside plain made inside
    have here : tree.withDirs _ (packagePlace home package) = tree (packagePlace home package) :=
      same (inside_packagePlace plain)
    refine ⟨⟨_, made, fun _ _ _ => rfl⟩, ?_, ?_⟩
    swap
    · change tree.withDirs _ _ = none ∨ ∃ name, _ ∧ tree.withDirs _ _ = _
      rw [same linkAt]
      exact ready.current
    rcases ready.version with absent | there
    · exact .inl fun other inside =>
        (same (packagePlace_eq plain ▸ inside)).trans (ready.nothing absent other inside)
    · exact .inr (here.trans there)
  | @removalFails fault _ _ there _ =>
    have outside : SameOutside (packagePlace home package) (prepared home package tree)
        ((prepared home package tree).lose (packagePlace home package) fault.lost) :=
      fun other apart => lose_of_outside apart
    refine ⟨⟨_, whole, beside outside⟩, .inr ?_, link outside⟩
    exact lose_self.trans ((prepared_of_inside plain (inside_packagePlace plain)).trans there)
  | copyFails fails stands outside =>
    exact ⟨⟨_, whole, beside outside⟩, version_of_stands stands (top_of_leftOf fails), link outside⟩
  | unlinkFails fails stands outside =>
    exact ⟨⟨_, whole, beside outside⟩, version_of_stands stands (.inr top_of_entriesMade),
      link outside⟩
  | linkFails fails stands unlinked sameBeside =>
    exact ⟨⟨_, whole, sameBeside⟩, version_of_stands stands (.inr top_of_entriesMade),
      .inl unlinked⟩
  | installed _ _ _ _ stands linked sameBeside =>
    exact ⟨⟨_, whole, sameBeside⟩, version_of_stands stands (.inr top_of_entriesMade),
      .inr ⟨_, plain.version.1, linked⟩⟩

theorem settled_placePackage (plain : Plain package listing) (ready : Ready home package tree) :
    Settled home package tree (placePackage disk force home package tree).state := by
  by_cases wanted : tree (packagePlace home package) = some .directory → force = true
  · exact settled_of_ends plain ready (placeEnds plain ready wanted)
  · obtain ⟨there, unforced⟩ := Classical.not_imp.mp wanted
    have skips : placePackage disk force home package tree = ⟨.ok .alreadyInstalled, tree, []⟩ := by
      rw [placePackage, get_bind_apply, if_pos
        ⟨(exists_versionDir_iff plain ready.version).mpr there, unforced⟩]
      rfl
    rw [skips]
    exact ⟨⟨[], List.nil_subset _, fun _ _ _ => by rw [withDirs_nil]⟩, .inr there, ready.current⟩

end Ends

/-! ### Homes after any installations -/

/-- A home with directories of plugins, and in those directories of versions and links to them. -/
structure Orderly (home : Location) (tree : Tree) : Prop where
  above : ∀ place, place <+: home → tree place = none ∨ tree place = some .directory
  plugin : ∀ id, tree (home ++ [id]) = none ∨ tree (home ++ [id]) = some .directory
  version : ∀ id name, name ≠ "current" →
    (∀ other, home ++ [id] ++ [name] <+: other → tree other = none) ∨
      tree (home ++ [id] ++ [name]) = some .directory
  current : ∀ id, tree (home ++ [id] ++ ["current"]) = none ∨
    ∃ name, IsName name ∧ tree (home ++ [id] ++ ["current"]) = some (.link name)

/-- What installations make of a home with nothing in it, those that fail and those that do not. -/
inductive Reached (home : Location) : Tree → Prop
  | fresh {tree : Tree}
      (above : ∀ place, place <+: home → tree place = none ∨ tree place = some .directory)
      (empty : ∀ other, home <+: other → other ≠ home → tree other = none) : Reached home tree
  | install {tree : Tree} {package : CheckedPackage} {listing : Listing} (disk : Disk)
      (force : Bool) (plain : Plain package listing) (before : Reached home tree) :
      Reached home (placePackage disk force home package tree).state

section Homes

variable {home : Location} {package : CheckedPackage} {listing : Listing} {tree t : Tree}

theorem ready_of_orderly (plain : Plain package listing) (orderly : Orderly home tree) :
    Ready home package tree := by
  have version := orderly.version package.manifest.pluginId _ plain.notCurrent
  rw [← packagePlace_eq plain] at version
  refine ⟨?_, ?_, fun absent => ?_, ?_⟩
  · rw [pluginDir, way_join_of_isName plain.id.1, List.forall_mem_append, List.forall_mem_singleton]
    exact ⟨fun place member => orderly.above place ((List.mem_inits place home).mp member),
      orderly.plugin _⟩
  · exact version.imp_left fun nothing => nothing _ (List.prefix_refl _)
  · rcases version with nothing | there
    · exact nothing
    · rw [absent] at there
      cases there
  · rw [currentPlace_eq plain]
    exact orderly.current _

theorem eq_of_prefix_places {id id' name name' : String} {other : Location}
    (above : home ++ [id] ++ [name] <+: other) (above' : home ++ [id'] ++ [name'] <+: other) :
    id = id' ∧ name = name' := by
  have same := List.prefix_of_prefix_length_le above above' (by simp)
  have equal := same.eq_of_length (by simp)
  simpa using equal

theorem orderly_of_settled (plain : Plain package listing) (orderly : Orderly home tree)
    (settled : Settled home package tree t) : Orderly home t := by
  obtain ⟨places, made, beside⟩ := settled.beside
  have versionAt := @packagePlace_eq home package listing plain
  have linkAt := @currentPlace_eq home package listing plain
  -- a directory on the way stays or is made
  have way : ∀ place, place.length ≤ home.length + 1 →
      tree place = none ∨ tree place = some .directory →
        t place = none ∨ t place = some .directory := by
    intro place short before
    have apart : ∀ {name : String}, ¬ home ++ [package.manifest.pluginId] ++ [name] <+: place := by
      intro name inside
      have longer := inside.length_le
      simp only [List.length_append, List.length_singleton] at longer
      exact Nat.not_succ_le_self _ (longer.trans short)
    have notLink : place ≠ currentPlace home package := by
      rw [linkAt]
      rintro rfl
      exact apart (List.prefix_refl _)
    rw [beside place (versionAt ▸ apart) notLink]
    by_cases isMade : place ∈ places
    · exact .inr (withDirs_of_mem isMade)
    · rw [withDirs_of_not_mem isMade]
      exact before
  -- another entry of a directory of a plugin stays
  have kept : ∀ {id name : String} {other : Location}, home ++ [id] ++ [name] <+: other →
      ¬ (id = package.manifest.pluginId ∧ name = package.manifest.pluginVersion) →
        ¬ (id = package.manifest.pluginId ∧ name = "current") → t other = tree other := by
    intro id name other inside notVersion notLink
    rw [beside other, withDirs_of_inside plain made inside]
    · rw [versionAt]
      exact fun inVersion => notVersion (eq_of_prefix_places inside inVersion)
    · rw [linkAt]
      exact fun same => notLink (eq_of_prefix_places inside (same ▸ List.prefix_refl _))
  refine ⟨fun place inHome => ?_, fun id => ?_, fun id name notLink => ?_, fun id => ?_⟩
  · exact way place (inHome.length_le.trans (Nat.le_succ _)) (orderly.above place inHome)
  · exact way _ (by simp) (orderly.plugin id)
  · by_cases isVersion : id = package.manifest.pluginId ∧ name = package.manifest.pluginVersion
    · obtain ⟨rfl, rfl⟩ := isVersion
      rw [← versionAt]
      exact settled.version
    · have same : ∀ {other : Location}, home ++ [id] ++ [name] <+: other → t other = tree other :=
        fun inside => kept inside isVersion fun isLink => notLink isLink.2
      exact (orderly.version id name notLink).imp
        (fun nothing other inside => (same inside).trans (nothing other inside))
        (same (List.prefix_refl _)).trans
  · by_cases isPlugin : id = package.manifest.pluginId
    · subst isPlugin
      rw [← linkAt]
      exact settled.current
    · rw [kept (List.prefix_refl _) (fun both => isPlugin both.1) fun both => isPlugin both.1]
      exact orderly.current id

theorem orderly_of_reached (reached : Reached home tree) : Orderly home tree := by
  induction reached with
  | fresh above empty =>
    have inEntry : ∀ {id name : String} {other : Location},
        home ++ [id] ++ [name] <+: other → _ = none := fun {id name other} inside =>
      empty other (((List.prefix_append _ _).trans (List.prefix_append _ _)).trans inside) (by
        rintro rfl
        have longer := inside.length_le
        simp only [List.length_append, List.length_singleton] at longer
        omega)
    refine ⟨above, fun id => .inl (empty _ (List.prefix_append _ _) (by simp)), ?_, ?_⟩
    · exact fun id name _ => .inl fun other inside => inEntry inside
    · exact fun id => .inl (inEntry (List.prefix_refl _))
  | install disk force plain before orderly =>
    exact orderly_of_settled plain orderly
      (settled_placePackage plain (ready_of_orderly plain orderly))

/-- **Homes after installations.** After any installations, also failed ones, a home is ready for
each package. -/
theorem ready_of_reached (plain : Plain package listing) (reached : Reached home tree) :
    Ready home package tree := ready_of_orderly plain (orderly_of_reached reached)

end Homes

end KelvinClaw.Cli
