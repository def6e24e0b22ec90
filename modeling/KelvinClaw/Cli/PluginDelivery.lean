import KelvinClaw.Cli.PluginEscape

/-!
# What an installation from the index delivers

An index is asked for a plugin, and selects a package by the version that it lists. Where the
package goes, and which plugin it becomes the current version of, its own manifest says, which is
not compared with the selection. An installation or an update delivers the plugin that was asked
for exactly if the manifest of the package has its id and the version of the index, or if nothing
is installed.
-/

namespace KelvinClaw.Cli

open KelvinClaw.Core KelvinClaw.Plugin Systems Systems.Action Systems.FileAction

variable {κ ς : Type}

/-! ### Links that are made -/

section Links

variable {tree : Tree} {route : Route} {fault : Option Fault} {target : String}

theorem state_symlink_of_ok (made : (symlink fault target route tree).result = .ok ()) :
    (symlink fault target route tree).state route.place = some (.link target) := by
  unfold symlink at made ⊢
  by_cases nul : route.nul ∨ HasNul target
  · rw [if_pos nul] at made
    cases made
  rw [if_neg nul, get_bind_apply] at made ⊢
  by_cases missing : target = "" ∨ tree.stat route.place.dropLast ≠ some .directory
  · rw [if_pos missing] at made
    cases made
  rw [if_neg missing] at made ⊢
  by_cases there : tree route.place ≠ none
  · rw [if_pos there] at made
    cases made
  rw [if_neg there] at made ⊢
  cases fault with
  | some failure => cases made
  | none => exact Tree.put_self

/-- A context changes the error of a computation, and nothing else. -/
theorem of_inContext {α : Type} {text : String} {act : FileAction α} {a : α}
    (ran : (inContext text act tree).result = .ok a) :
    (act tree).result = .ok a ∧ (inContext text act tree).state = (act tree).state := by
  rw [inContext, bind_apply_ok (attempt_apply act tree)] at ran ⊢
  cases ended : (act tree).result with
  | error e =>
    rw [ended] at ran
    cases ran
  | ok b =>
    rw [ended] at ran
    exact ⟨ran, rfl⟩

theorem state_updateCurrentLink_of_ok {disk : Disk}
    (made : (updateCurrentLink disk route target tree).result = .ok ()) :
    (updateCurrentLink disk route target tree).state route.place = some (.link target) := by
  obtain ⟨_, removed, made⟩ := result_bind_ok.mp made
  rw [updateCurrentLink, bind_apply_of_result removed]
  obtain ⟨linked, state⟩ := of_inContext made
  exact (congrFun state _).trans (state_symlink_of_ok linked)

end Links

/-! ### Deliveries -/

section Deliveries

variable {home : Location} {tree : Tree} {id version : String}

/-- There is a directory for a version, and an installation does not replace it. -/
abbrev Skips (force : Bool) (home : Location) (id version : String) (tree : Tree) : Prop :=
  (versionDir home id version).exists tree ∧ ¬ force

theorem placePackage_of_ok {disk : Disk} {force : Bool} {package : CheckedPackage}
    {outcome : InstallOutcome}
    (returns : (placePackage disk force home package tree).result = .ok outcome) :
    Skips force home package.manifest.pluginId package.manifest.pluginVersion tree ∧
        outcome = .alreadyInstalled ∧ (placePackage disk force home package tree).journal = [] ∨
      ¬ Skips force home package.manifest.pluginId package.manifest.pluginVersion tree ∧
        outcome = .installed package.manifest ∧
        (placePackage disk force home package tree).state
          (currentLink home package.manifest.pluginId).place =
            some (.link package.manifest.pluginVersion) := by
  rw [placePackage, get_bind_apply] at returns ⊢
  by_cases skips : Skips force home package.manifest.pluginId package.manifest.pluginVersion tree
  · rw [if_pos skips] at returns ⊢
    exact .inl ⟨skips, (Except.ok.inj returns).symm, rfl⟩
  rw [if_neg skips] at returns ⊢
  refine .inr ⟨skips, ?_⟩
  obtain ⟨_, made, returns⟩ := result_bind_ok.mp returns
  obtain ⟨_, copied, returns⟩ := result_bind_ok.mp returns
  obtain ⟨_, linked, returns⟩ := result_bind_ok.mp returns
  refine ⟨(Except.ok.inj returns).symm, ?_⟩
  rw [bind_apply_of_result made, bind_apply_of_result copied, bind_apply_of_result linked]
  exact state_updateCurrentLink_of_ok linked

/-- An installation delivers a version of a plugin: what it makes current has that id and that
version, and it touches the directory of that plugin only. -/
structure Delivers (home : Location) (id version : String)
    (ran : Outcome Tree Touch String InstallOutcome) : Prop where
  current : ∀ manifest, ran.result = .ok (.installed manifest) →
    manifest.pluginId = id ∧ manifest.pluginVersion = version ∧
      ran.state (currentLink home id).place = some (.link version)
  others : ∀ touch ∈ ran.journal, home ++ [id] <+: touch.place

theorem delivers_of_idle {ran : Outcome Tree Touch String InstallOutcome}
    (result : ran.result = .ok .alreadyInstalled) (journal : ran.journal = []) :
    Delivers home id version ran := by
  refine ⟨fun manifest installed => ?_, fun touch member => ?_⟩
  · cases result.symm.trans installed
  · rw [journal] at member
    cases member

variable {env : InstallEnvironment κ ς} {remote : Remote} {strict : Bool}

variable (env remote strict) in
def Chosen (selected : IndexedPackage) (checked : CheckedPackage) : Prop :=
  ∃ package, remote.download selected.packageUrl selected.sha256 = .ok package ∧
    readPackage env strict package = .ok checked

variable (env remote strict) in
def Matches (id : String) (selected : IndexedPackage) : Prop :=
  ∀ checked, Chosen env remote strict selected checked →
    checked.manifest.pluginId = id ∧ checked.manifest.pluginVersion = selected.version

theorem Chosen.unique {selected : IndexedPackage} {checked checked' : CheckedPackage}
    (chosen : Chosen env remote strict selected checked)
    (chosen' : Chosen env remote strict selected checked') : checked = checked' := by
  obtain ⟨package, downloaded, accepted⟩ := chosen
  obtain ⟨package', downloaded', accepted'⟩ := chosen'
  obtain rfl := Except.ok.inj (downloaded.symm.trans downloaded')
  exact Except.ok.inj (accepted.symm.trans accepted')

theorem delivers_placePackage {disk : Disk} {force : Bool} {package : CheckedPackage}
    {outcome : InstallOutcome} (sameId : package.manifest.pluginId = id)
    (sameVersion : package.manifest.pluginVersion = version)
    (contained : ContainedIn home id id version) (stands : HomeStands home tree)
    (returns : (placePackage disk force home package tree).result = .ok outcome) :
    Delivers home id version (placePackage disk force home package tree) := by
  subst sameId sameVersion
  refine ⟨fun manifest installed => ?_,
    (staysIn_placePackage disk force package contained stands).2.within⟩
  rcases placePackage_of_ok returns with ⟨-, rfl, -⟩ | ⟨-, rfl, linked⟩
  · cases returns.symm.trans installed
  · cases returns.symm.trans installed
    exact ⟨rfl, rfl, linked⟩

theorem exists_chosen_of_ok {disk : Disk} {force : Bool} {selected : IndexedPackage}
    {outcome : InstallOutcome}
    (returns : ((ofExcept (remote.download selected.packageUrl selected.sha256) >>=
      installFromExtractedDir env disk force strict home : FileAction InstallOutcome)
        tree).result = .ok outcome) :
    ∃ checked, Chosen env remote strict selected checked ∧
      (ofExcept (remote.download selected.packageUrl selected.sha256) >>=
        installFromExtractedDir env disk force strict home : FileAction InstallOutcome) tree =
          placePackage disk force home checked tree := by
  cases downloaded : remote.download selected.packageUrl selected.sha256 with
  | error e =>
    rw [downloaded] at returns
    cases returns
  | ok package =>
    rw [downloaded, ofExcept_ok, Action.pure_bind, installFromExtractedDir] at returns
    rw [ofExcept_ok, Action.pure_bind, installFromExtractedDir]
    cases accepted : readPackage env strict package with
    | error e =>
      rw [accepted] at returns
      cases returns
    | ok checked => exact ⟨checked, ⟨package, downloaded, accepted⟩, rfl⟩

variable (env remote strict) in
/-- Nothing is installed: there is a directory for the selected version, or for that of the
package. -/
def SkipsSelected (force : Bool) (home : Location) (id : String) (selected : IndexedPackage)
    (tree : Tree) : Prop :=
  Skips force home id selected.version tree ∨
    ∃ checked, Chosen env remote strict selected checked ∧
      Skips force home checked.manifest.pluginId checked.manifest.pluginVersion tree

theorem matches_of_delivers {disk : Disk} {force : Bool} {asked : Option String}
    {selected : IndexedPackage} {outcome : InstallOutcome}
    (selection : selectPackage remote id asked = .ok selected)
    (returns : (installFromIndex env remote disk force strict home id asked tree).result =
      .ok outcome)
    (delivers : Delivers home id selected.version
      (installFromIndex env remote disk force strict home id asked tree)) :
    SkipsSelected env remote strict force home id selected tree ∨
      Matches env remote strict id selected := by
  rw [installFromIndex, selection, ofExcept_ok, Action.pure_bind, get_bind_apply]
    at returns delivers
  by_cases skips : Skips force home id selected.version tree
  · exact .inl (.inl skips)
  rw [if_neg skips] at returns delivers
  obtain ⟨checked, chosen, ran⟩ := exists_chosen_of_ok returns
  rw [ran] at returns delivers
  rcases placePackage_of_ok returns with ⟨skipsPackage, -⟩ | ⟨-, rfl, -⟩
  · exact .inl (.inr ⟨checked, chosen, skipsPackage⟩)
  · obtain ⟨sameId, sameVersion, -⟩ := delivers.current _ returns
    refine .inr fun checked' chosen' => ?_
    rw [chosen'.unique chosen]
    exact ⟨sameId, sameVersion⟩

theorem delivers_of_matches {disk : Disk} {force : Bool} {asked : Option String}
    {selected : IndexedPackage} {outcome : InstallOutcome}
    (selection : selectPackage remote id asked = .ok selected)
    (returns : (installFromIndex env remote disk force strict home id asked tree).result =
      .ok outcome)
    (contained : ContainedIn home id id selected.version) (stands : HomeStands home tree)
    (delivered : SkipsSelected env remote strict force home id selected tree ∨
      Matches env remote strict id selected) :
    Delivers home id selected.version
      (installFromIndex env remote disk force strict home id asked tree) := by
  rw [installFromIndex, selection, ofExcept_ok, Action.pure_bind, get_bind_apply] at returns ⊢
  by_cases skips : Skips force home id selected.version tree
  · rw [if_pos skips]
    exact delivers_of_idle rfl rfl
  rw [if_neg skips] at returns ⊢
  obtain ⟨checked, chosen, ran⟩ := exists_chosen_of_ok returns
  rw [ran] at returns ⊢
  rcases placePackage_of_ok returns with ⟨-, rfl, journal⟩ | ⟨replaces, rfl, -⟩
  · exact delivers_of_idle returns journal
  rcases delivered with (skips' | ⟨checked', chosen', skipsPackage⟩) | matching
  · exact absurd skips' skips
  · exact absurd (chosen'.unique chosen ▸ skipsPackage) replaces
  · obtain ⟨sameId, sameVersion⟩ := matching checked chosen
    exact delivers_placePackage sameId sameVersion contained stands returns

/-! ### Updates -/

/-- An update delivers a version of a plugin: what it makes current, if anything, has that id and
that version, and it touches the directory of that plugin only. -/
structure DeliversUpdate (home : Location) (id version : String)
    (ran : Outcome Tree Touch String (List (String × InstallOutcome))) : Prop where
  current : ∀ outcomes, ran.result = .ok outcomes → ∀ updated manifest,
    (updated, .installed manifest) ∈ outcomes → manifest.pluginId = id ∧
      manifest.pluginVersion = version ∧
        ran.state (currentLink home id).place = some (.link version)
  others : ∀ touch ∈ ran.journal, home ++ [id] <+: touch.place

section Updates

variable {disk : Disk} {plan : String → String → Option IndexedPackage} {latest : IndexedPackage}
  {installed : List (String × String)} {outcomes : List (String × InstallOutcome)}

theorem updateAll_of_planned {plugin : String × String}
    (planned : plan plugin.1 plugin.2 = some latest)
    (returns : (updateAll env remote disk strict home plan (plugin :: installed) tree).result =
      .ok outcomes) :
    ∃ checked later, Chosen env remote strict latest checked ∧
      outcomes = (plugin.1, .installed checked.manifest) :: later ∧
      let placed := placePackage disk true home checked tree
      let rest := updateAll env remote disk strict home plan installed placed.state
      placed.result = .ok (.installed checked.manifest) ∧ rest.result = .ok later ∧
        updateAll env remote disk strict home plan (plugin :: installed) tree =
          ⟨.ok outcomes, rest.state, placed.journal ++ rest.journal⟩ := by
  have split : updateAll env remote disk strict home plan (plugin :: installed) =
      ((ofExcept (remote.download latest.packageUrl latest.sha256) >>=
          installFromExtractedDir env disk true strict home) >>= fun outcome => do
        let outcomes ← updateAll env remote disk strict home plan installed
        return (plugin.1, outcome) :: outcomes) := by
    rw [updateAll, planned]
    exact (Action.bind_assoc _ _ _).symm
  rw [split] at returns ⊢
  obtain ⟨outcome, first, returns⟩ := result_bind_ok.mp returns
  obtain ⟨checked, chosen, ran⟩ := exists_chosen_of_ok first
  obtain ⟨later, others, returned⟩ := result_bind_ok.mp returns
  rw [ran] at first others
  rcases placePackage_of_ok first with ⟨skips, -⟩ | ⟨-, rfl, -⟩
  · exact absurd rfl skips.2
  obtain rfl := Except.ok.inj returned
  refine ⟨checked, later, chosen, rfl, first, others, ?_⟩
  rw [bind_apply_of_result (ran ▸ first), ran, bind_apply_of_result others]
  exact congrArg _ (congrArg _ (List.append_nil _))

theorem mem_outcomes_of_planned
    (returns : (updateAll env remote disk strict home plan installed tree).result = .ok outcomes)
    {plugin : String × String} (member : plugin ∈ installed)
    (planned : plan plugin.1 plugin.2 = some latest) :
    ∃ checked, Chosen env remote strict latest checked ∧
      (plugin.1, .installed checked.manifest) ∈ outcomes := by
  induction installed generalizing tree outcomes with
  | nil => cases member
  | cons first rest ih =>
    rcases List.mem_cons.mp member with rfl | later
    · obtain ⟨checked, _, chosen, rfl, -⟩ := updateAll_of_planned planned returns
      exact ⟨checked, chosen, List.mem_cons_self⟩
    · cases here : plan first.1 first.2 with
      | none =>
        rw [updateAll, here] at returns
        exact ih returns later
      | some other =>
        obtain ⟨_, _, -, rfl, -, returned, -⟩ := updateAll_of_planned here returns
        obtain ⟨checked, chosen, listed⟩ := ih returned later
        exact ⟨checked, chosen, List.mem_cons_of_mem _ listed⟩

theorem updateAll_idle
    (returns : (updateAll env remote disk strict home plan installed tree).result = .ok []) :
    (updateAll env remote disk strict home plan installed tree).state = tree ∧
      (updateAll env remote disk strict home plan installed tree).journal = [] := by
  induction installed with
  | nil => exact ⟨rfl, rfl⟩
  | cons first rest ih =>
    cases here : plan first.1 first.2 with
    | none =>
      rw [updateAll, here] at returns ⊢
      exact ih returns
    | some latest =>
      obtain ⟨_, _, -, more, -⟩ := updateAll_of_planned here returns
      cases more

theorem updateAll_of_none (undue : ∀ plugin ∈ installed, plan plugin.1 plugin.2 = none) :
    updateAll env remote disk strict home plan installed tree = ⟨.ok [], tree, []⟩ := by
  induction installed with
  | nil => rfl
  | cons first rest ih =>
    obtain ⟨here, later⟩ := List.forall_mem_cons.mp undue
    rw [updateAll, here]
    exact ih later

theorem delivered_of_matches (matching : Matches env remote strict id latest)
    (contained : ContainedIn home id id latest.version)
    (planned : ∀ plugin ∈ installed, ∀ other, plan plugin.1 plugin.2 = some other → other = latest)
    (stands : HomeStands home tree)
    (returns : (updateAll env remote disk strict home plan installed tree).result = .ok outcomes) :
    (∀ updated manifest, (updated, .installed manifest) ∈ outcomes →
      manifest.pluginId = id ∧ manifest.pluginVersion = latest.version) ∧
      (outcomes ≠ [] → (updateAll env remote disk strict home plan installed tree).state
        (currentLink home id).place = some (.link latest.version)) ∧
      ∀ touch ∈ (updateAll env remote disk strict home plan installed tree).journal,
        home ++ [id] <+: touch.place := by
  -- the plugins are updated one after another, so the last one decides what is current
  induction installed generalizing tree outcomes with
  | nil =>
    obtain rfl := Except.ok.inj returns
    exact ⟨fun _ _ member => (List.not_mem_nil member).elim, fun some => absurd rfl some,
      fun _ member => (List.not_mem_nil member).elim⟩
  | cons first rest ih =>
    have ih := fun {tree outcomes} => @ih tree outcomes fun plugin member =>
      planned plugin (List.mem_cons_of_mem _ member)
    cases here : plan first.1 first.2 with
    | none =>
      rw [updateAll, here] at returns ⊢
      exact ih stands returns
    | some other =>
      obtain rfl := planned first List.mem_cons_self other here
      obtain ⟨checked, later, chosen, rfl, placed, others, ran⟩ :=
        updateAll_of_planned here returns
      obtain ⟨sameId, sameVersion⟩ := matching checked chosen
      subst sameId
      rw [← sameVersion] at contained
      obtain ⟨standsLater, stays⟩ := staysIn_placePackage disk true checked contained stands
      obtain ⟨manifests, current, touches⟩ := ih standsLater others
      rw [ran]
      refine ⟨?_, fun _ => ?_, ?_⟩
      · intro updated manifest member
        rcases List.mem_cons.mp member with here | later
        · obtain ⟨-, same⟩ := Prod.mk.inj here
          obtain rfl := InstallOutcome.installed.inj same
          exact ⟨rfl, sameVersion⟩
        · exact manifests updated manifest later
      · by_cases last : later = []
        · -- The last one that is placed is current.
          subst last
          rcases placePackage_of_ok placed with ⟨-, skipped, -⟩ | ⟨-, -, linked⟩
          · cases skipped
          · exact (congrFun (updateAll_idle others).1 _).trans (linked.trans (by rw [sameVersion]))
        · exact current last
      · intro touch member
        rcases List.mem_append.mp member with here | later
        · exact stays.within touch here
        · exact touches touch later

theorem matches_of_deliversUpdate
    (due : ∃ plugin ∈ installed, plan plugin.1 plugin.2 = some latest)
    (returns : (updateAll env remote disk strict home plan installed tree).result = .ok outcomes)
    (delivers : DeliversUpdate home id latest.version
      (updateAll env remote disk strict home plan installed tree)) :
    Matches env remote strict id latest := by
  intro checked chosen
  obtain ⟨plugin, member, here⟩ := due
  obtain ⟨placed, chosen', listed⟩ := mem_outcomes_of_planned returns member here
  obtain ⟨sameId, sameVersion, -⟩ := delivers.current _ returns _ _ listed
  rw [chosen.unique chosen']
  exact ⟨sameId, sameVersion⟩

theorem deliversUpdate_of_matches (matching : Matches env remote strict id latest)
    (contained : ContainedIn home id id latest.version)
    (planned : ∀ plugin ∈ installed, ∀ other, plan plugin.1 plugin.2 = some other → other = latest)
    (stands : HomeStands home tree)
    (returns : (updateAll env remote disk strict home plan installed tree).result = .ok outcomes) :
    DeliversUpdate home id latest.version
      (updateAll env remote disk strict home plan installed tree) := by
  obtain ⟨manifests, current, touches⟩ :=
    delivered_of_matches matching contained planned stands returns
  refine ⟨fun outcomes' returned updated manifest member => ?_, touches⟩
  obtain rfl := Except.ok.inj (returns.symm.trans returned)
  obtain ⟨sameId, sameVersion⟩ := manifests updated manifest member
  exact ⟨sameId, sameVersion, current (List.ne_nil_of_mem member)⟩

/-- The entries of the index decide what is planned for a plugin, whatever its version is. -/
theorem planUpdate_unique {plugins : List Value} {dryRun : Bool} {plugin plugin' : String × String}
    {other : IndexedPackage}
    (planned : planUpdate plugins (some id) dryRun plugin.1 plugin.2 = some latest)
    (planned' : planUpdate plugins (some id) dryRun plugin'.1 plugin'.2 = some other) :
    other = latest := by
  have reads : ∀ {plugin : String × String} {latest : IndexedPackage},
      planUpdate plugins (some id) dryRun plugin.1 plugin.2 = some latest →
        ∃ entry, latestEntry (entriesOf id plugins) = some entry ∧
          stringAt "version" entry = some latest.version ∧
          stringAt "package_url" entry = some latest.packageUrl ∧
          stringAt "sha256" entry = some latest.sha256 := by
    intro plugin latest planned
    unfold planUpdate at planned
    obtain ⟨_, asked, planned⟩ := Option.bind_eq_some_iff.mp planned
    obtain ⟨entry, best, planned⟩ := Option.bind_eq_some_iff.mp planned
    obtain ⟨version, hasVersion, planned⟩ := Option.bind_eq_some_iff.mp planned
    obtain ⟨_, -, planned⟩ := Option.bind_eq_some_iff.mp planned
    obtain ⟨packageUrl, hasUrl, planned⟩ := Option.bind_eq_some_iff.mp planned
    obtain ⟨sha256, hasSha, planned⟩ := Option.bind_eq_some_iff.mp planned
    obtain rfl := Option.some.inj planned
    have same : id = plugin.1 := by simpa [guard] using asked
    exact ⟨entry, same ▸ best, hasVersion, hasUrl, hasSha⟩
  obtain ⟨entry, best, hasVersion, hasUrl, hasSha⟩ := reads planned
  obtain ⟨entry', best', hasVersion', hasUrl', hasSha'⟩ := reads planned'
  obtain rfl := Option.some.inj (best.symm.trans best')
  cases other
  cases latest
  congr 1
  · exact Option.some.inj (hasVersion'.symm.trans hasVersion)
  · exact Option.some.inj (hasUrl'.symm.trans hasUrl)
  · exact Option.some.inj (hasSha'.symm.trans hasSha)

end Updates

theorem update_eq {disk : Disk} {index : Value} {plugins : List Value}
    {installed : List (String × String)} {only : Option String} {dryRun : Bool}
    (fetched : remote.index >>= checkIndex = .ok index)
    (listed : indexPlugins index = .ok plugins) :
    update env remote disk strict home (.ok installed) only dryRun =
      updateAll env remote disk strict home (planUpdate plugins only dryRun) installed := by
  rw [update, fetched, ofExcept_ok, Action.pure_bind, listed, ofExcept_ok, Action.pure_bind,
    ofExcept_ok, Action.pure_bind]

end Deliveries

/-- An installation from the index that returns delivers only if nothing is installed or the
manifest of the package has the id that was asked for and the version of the index, and then it
does, if the paths for these are contained. So does the update of a plugin, which touches nothing
where no other version is due. -/
theorem index_packages_delivered_iff (env : InstallEnvironment κ ς) (remote : Remote)
    (strict : Bool) (home : Location) (id : String) (disk : Disk) (tree : Tree)
    (stands : HomeStands home tree) :
    (∀ force asked selected outcome, selectPackage remote id asked = .ok selected →
      (installFromIndex env remote disk force strict home id asked tree).result = .ok outcome →
        (Delivers home id selected.version
            (installFromIndex env remote disk force strict home id asked tree) →
          SkipsSelected env remote strict force home id selected tree ∨
            Matches env remote strict id selected) ∧
        (ContainedIn home id id selected.version →
          SkipsSelected env remote strict force home id selected tree ∨
            Matches env remote strict id selected →
          Delivers home id selected.version
            (installFromIndex env remote disk force strict home id asked tree))) ∧
    ∀ index plugins installed dryRun, (remote.index >>= checkIndex) = .ok index →
      indexPlugins index = .ok plugins →
      ((∀ plugin ∈ installed, planUpdate plugins (some id) dryRun plugin.1 plugin.2 = none) →
        update env remote disk strict home (.ok installed) (some id) dryRun tree =
          ⟨.ok [], tree, []⟩) ∧
      ∀ latest outcomes,
        (∃ plugin ∈ installed, planUpdate plugins (some id) dryRun plugin.1 plugin.2 =
          some latest) →
        (update env remote disk strict home (.ok installed) (some id) dryRun tree).result =
          .ok outcomes →
          (DeliversUpdate home id latest.version
              (update env remote disk strict home (.ok installed) (some id) dryRun tree) →
            Matches env remote strict id latest) ∧
          (ContainedIn home id id latest.version → Matches env remote strict id latest →
            DeliversUpdate home id latest.version
              (update env remote disk strict home (.ok installed) (some id) dryRun tree)) := by
  constructor
  · intro force asked selected outcome selection returns
    exact ⟨matches_of_delivers selection returns,
      fun contained => delivers_of_matches selection returns contained stands⟩
  · intro index plugins installed dryRun fetched listed
    rw [update_eq fetched listed]
    refine ⟨updateAll_of_none, fun latest outcomes due returns => ?_⟩
    refine ⟨matches_of_deliversUpdate due returns, fun contained matching => ?_⟩
    obtain ⟨plugin, -, planned⟩ := due
    exact deliversUpdate_of_matches matching contained
      (fun _ _ _ planned' => planUpdate_unique planned planned') stands returns

/-! ### An index with one package -/

/-- An installation and an update of a package whose manifest has the id and the version of the
index. -/
theorem plain_package_delivered :
    Delivers ["home"] "acme.echo" "1.0.0"
        (installFromIndex (plainEnvironment tightLibrary "acme.echo" "1.0.0")
          (plainRemote "acme.echo" "1.0.0") healthy true false ["home"] "acme.echo" none
            (Tree.downTo [["home"]])) ∧
      DeliversUpdate ["home"] "acme.echo" "1.0.0"
        (update (plainEnvironment tightLibrary "acme.echo" "1.0.0")
          (plainRemote "acme.echo" "1.0.0") healthy false ["home"]
            (.ok [("acme.echo", "0.9.0")]) (some "acme.echo") false (Tree.downTo [["home"]])) := by
  have matching : Matches (plainEnvironment tightLibrary "acme.echo" "1.0.0")
      (plainRemote "acme.echo" "1.0.0") false "acme.echo" ⟨"1.0.0", "url", "sha"⟩ := by
    rintro checked ⟨package, downloaded, accepted⟩
    obtain rfl := Except.ok.inj downloaded
    obtain rfl := Except.ok.inj
      ((readPackage_plainPackage tightLibrary "acme.echo" "1.0.0").symm.trans accepted)
    exact ⟨rfl, rfl⟩
  have contained : ContainedIn ["home"] "acme.echo" "acme.echo" "1.0.0" :=
    containedIn_of_names (by decide) (by decide) (by decide)
  obtain ⟨installs, updates⟩ := index_packages_delivered_iff
    (plainEnvironment tightLibrary "acme.echo" "1.0.0") (plainRemote "acme.echo" "1.0.0") false
    ["home"] "acme.echo" healthy (Tree.downTo [["home"]])
    (homeStands_downTo List.mem_cons_self)
  have installed : (installFromIndex (plainEnvironment tightLibrary "acme.echo" "1.0.0")
      (plainRemote "acme.echo" "1.0.0") healthy true false ["home"] "acme.echo" none
        (Tree.downTo [["home"]])).result =
      .ok (.installed ⟨"acme.echo", "acme.echo", "1.0.0", "unknown"⟩) := by
    decide +kernel
  have updated : (update (plainEnvironment tightLibrary "acme.echo" "1.0.0")
      (plainRemote "acme.echo" "1.0.0") healthy false ["home"] (.ok [("acme.echo", "0.9.0")])
        (some "acme.echo") false (Tree.downTo [["home"]])).result =
      .ok [("acme.echo", .installed ⟨"acme.echo", "acme.echo", "1.0.0", "unknown"⟩)] := by
    decide +kernel
  constructor
  · exact (installs true none ⟨"1.0.0", "url", "sha"⟩ _ rfl installed).2 contained (.inr matching)
  · exact ((updates _ _ [("acme.echo", "0.9.0")] false rfl rfl).2 ⟨"1.0.0", "url", "sha"⟩ _
      ⟨_, List.mem_cons_self, rfl⟩ updated).2 contained matching

/-- A package whose manifest has another id is installed as that plugin. -/
theorem other_plugin_delivered :
    (installFromIndex (plainEnvironment tightLibrary "acme.other" "1.0.0")
        (plainRemote "acme.echo" "1.0.0") healthy true false ["home"] "acme.echo" none
          (Tree.downTo [["home"]])).result =
        .ok (.installed ⟨"acme.other", "acme.other", "1.0.0", "unknown"⟩) ∧
      ¬ Delivers ["home"] "acme.echo" "1.0.0"
        (installFromIndex (plainEnvironment tightLibrary "acme.other" "1.0.0")
          (plainRemote "acme.echo" "1.0.0") healthy true false ["home"] "acme.echo" none
            (Tree.downTo [["home"]])) := by
  have installed : (installFromIndex (plainEnvironment tightLibrary "acme.other" "1.0.0")
      (plainRemote "acme.echo" "1.0.0") healthy true false ["home"] "acme.echo" none
        (Tree.downTo [["home"]])).result =
      .ok (.installed ⟨"acme.other", "acme.other", "1.0.0", "unknown"⟩) := by
    decide +kernel
  refine ⟨installed, fun delivers => ?_⟩
  have same : "acme.other" = "acme.echo" := (delivers.current _ installed).1
  exact absurd same (by decide)

end KelvinClaw.Cli
