import KelvinClaw.Cli.InstallEnds
import KelvinClaw.Cli.PluginEscape

/-!
# Installations that fail

An installation that fails is all or nothing if the version that was current is complete and current
still, and the next installation of the package finds a complete version or completes it. An
installation removes and copies in the place of the version, and takes the link away before it makes
the next one, so that this depends on what is left there.
-/

namespace KelvinClaw.Cli

open KelvinClaw.Core KelvinClaw.Plugin Systems Systems.Action Systems.FileAction Systems.Route
  Systems.Tree CopyStep

variable {κ ς : Type}

/-! ### All or nothing -/

def Holds (tree : Tree) (place : Location) (entries : List Entry) : Prop :=
  ∀ entry ∈ entries, tree (place ++ entry.1) = some entry.2

def Complete (home : Location) (package : CheckedPackage) (listing : Listing)
    (before after : Tree) (name : String) : Prop :=
  (∀ other, versionPlace home package name <+: other → after other = before other) ∨
    name = package.manifest.pluginVersion ∧
      Holds after (packagePlace home package) (entriesMade (packageSteps package listing))

/-- The version that was current is complete and current still, and the next installation skips a
version that is complete, or completes it. -/
structure AllOrNothing (home : Location) (package : CheckedPackage) (listing : Listing)
    (before after : Tree) (later : Outcome Tree Touch String InstallOutcome) : Prop where
  current : ∀ name, before (currentPlace home package) = some (.link name) →
    after (currentPlace home package) = some (.link name) ∧
      Complete home package listing before after name
  later : later.result = .ok .alreadyInstalled ∧
      Complete home package listing before after package.manifest.pluginVersion ∨
    later.result = .ok (.installed package.manifest) ∧
      Holds later.state (packagePlace home package) (entriesMade (packageSteps package listing)) ∧
      later.state (currentPlace home package) = some (.link package.manifest.pluginVersion)

/-- What is left in the place of the version is what was there, or the whole package; or nothing is
left there, and the version was not current. -/
def Spared (home : Location) (package : CheckedPackage) (listing : Listing) (tree : Tree)
    (left : List Entry) : Prop :=
  tree.Stands (packagePlace home package) left ∨
    entriesMade (packageSteps package listing) ⊆ left ∨
    left = [] ∧ tree (currentPlace home package) ≠ some (.link package.manifest.pluginVersion)

/-- A failure leaves nothing behind. -/
structure Harmless (home : Location) (package : CheckedPackage) (listing : Listing) (tree : Tree)
    (step : InstallStep) (fault : Fault) : Prop where
  removal : step = .removeVersionDir → tree (packagePlace home package) = some .directory →
    (∀ other, packagePlace home package <+: other →
      tree.lose (packagePlace home package) fault.lost other = tree other) ∨
    Holds (tree.lose (packagePlace home package) fault.lost) (packagePlace home package)
      (entriesMade (packageSteps package listing))
  copying : ∀ left ∈ leftOf (failing step fault) (packageSteps package listing),
    Spared home package listing tree left
  link : step = .linkCurrent → tree (currentPlace home package) = none

section Failures

variable {home : Location} {package : CheckedPackage} {listing : Listing} {tree t : Tree}
  {step : InstallStep} {fault : Fault} {left : List Entry}

theorem leftOf_healthy (steps : List CopyStep) : leftOf healthy steps = none := by
  induction steps with
  | nil => rfl
  | cons step rest ih =>
    rw [leftOf, ih]
    rfl

theorem exists_of_leftOf {steps : List CopyStep}
    (fails : leftOf (failing step fault) steps = some left) :
    ∃ copyStep ∈ steps, copyStep.step = step := by
  induction steps generalizing left with
  | nil => cases fails
  | cons first rest ih =>
    by_cases same : first.step = step
    · exact ⟨first, List.mem_cons_self, same⟩
    · rw [leftOf, failing, if_neg same] at fails
      obtain ⟨later, isLater, -⟩ := Option.map_eq_some_iff.mp fails
      obtain ⟨copyStep, member, equal⟩ := ih isLater
      exact ⟨copyStep, List.mem_cons_of_mem _ member, equal⟩

theorem later_skips (plain : Plain package listing)
    (there : t (packagePlace home package) = some .directory) :
    placePackage healthy false home package t = ⟨.ok .alreadyInstalled, t, []⟩ := by
  rw [placePackage, get_bind_apply, if_pos
    ⟨(exists_versionDir_iff plain (.inr there)).mpr there, Bool.false_ne_true⟩]
  rfl

theorem holds_of_stands {place : Location} (stands : t.Stands place left) : Holds t place left :=
  fun entry member => (stands entry.1 entry.2).mpr member

theorem later_completes (plain : Plain package listing) (ready : Ready home package t)
    (absent : t (packagePlace home package) = none) :
    (placePackage healthy false home package t).result = .ok (.installed package.manifest) ∧
      Holds (placePackage healthy false home package t).state (packagePlace home package)
        (entriesMade (packageSteps package listing)) ∧
      (placePackage healthy false home package t).state (currentPlace home package) =
        some (.link package.manifest.pluginVersion) := by
  have wanted : t (packagePlace home package) = some .directory → false = true := by
    rw [absent]
    exact nofun
  have ends := @placeEnds home package listing healthy t false plain ready wanted
  generalize placePackage healthy false home package t = outcome at ends ⊢
  cases ends with
  | dirFails fails => cases fails
  | removalFails there fails => cases fails
  | copyFails fails =>
    rw [leftOf_healthy] at fails
    cases fails
  | unlinkFails fails => cases fails
  | linkFails fails => cases fails
  | installed _ _ _ _ stands linked => exact ⟨rfl, holds_of_stands stands, linked⟩

/-- Nothing else in the directory of the plugin is different. -/
def KeptBeside (home : Location) (package : CheckedPackage) (before after : Tree) : Prop :=
  ∀ name other, home ++ [package.manifest.pluginId] ++ [name] <+: other →
    ¬ packagePlace home package <+: other → after other = before other

theorem KeptBeside.current (plain : Plain package listing) (ready : Ready home package tree)
    (kept : KeptBeside home package tree t)
    (complete : tree (currentPlace home package) = some (.link package.manifest.pluginVersion) →
      Complete home package listing tree t package.manifest.pluginVersion) :
    ∀ name, tree (currentPlace home package) = some (.link name) →
      t (currentPlace home package) = some (.link name) ∧
        Complete home package listing tree t name := by
  intro name link
  have same := kept "current" _ (inside_currentPlace plain) (currentPlace_outside plain)
  refine ⟨same.trans link, ?_⟩
  by_cases isVersion : name = package.manifest.pluginVersion
  · subst isVersion
    exact complete link
  · have isName : IsName name := by
      rcases ready.current with absent | ⟨other, isName, link'⟩
      · rw [absent] at link
        cases link
      · rw [link] at link'
        cases link'
        exact isName
    refine .inl fun other inside => kept name other (versionPlace_eq plain isName ▸ inside) ?_
    rw [packagePlace_eq plain]
    exact fun inPackage => isVersion
      (eq_of_prefix_entries (versionPlace_eq plain isName ▸ inside) inPackage)

theorem allOrNothing_iff_of_directory (plain : Plain package listing)
    (ready : Ready home package tree) (kept : KeptBeside home package tree t)
    (there : t (packagePlace home package) = some .directory) :
    AllOrNothing home package listing tree t (placePackage healthy false home package t) ↔
      Complete home package listing tree t package.manifest.pluginVersion := by
  rw [later_skips plain there]
  constructor
  · intro all
    rcases all.later with ⟨-, complete⟩ | ⟨installed, -⟩
    · exact complete
    · cases installed
  · exact fun complete => ⟨kept.current plain ready fun _ => complete, .inl ⟨rfl, complete⟩⟩

/-- With nothing in the place of the version, the version may not have been current. -/
theorem allOrNothing_iff_of_absent (plain : Plain package listing)
    (ready : Ready home package tree) (kept : KeptBeside home package tree t)
    (readyAfter : Ready home package t) (absent : t (packagePlace home package) = none) :
    AllOrNothing home package listing tree t (placePackage healthy false home package t) ↔
      (tree (currentPlace home package) = some (.link package.manifest.pluginVersion) →
        Complete home package listing tree t package.manifest.pluginVersion) := by
  constructor
  · exact fun all link => (all.current _ link).2
  · exact fun complete => ⟨kept.current plain ready complete,
      .inr (later_completes plain readyAfter absent)⟩

theorem complete_iff_of_stands (stands : t.Stands (packagePlace home package) left) :
    Complete home package listing tree t package.manifest.pluginVersion ↔
      tree.Stands (packagePlace home package) left ∨
        entriesMade (packageSteps package listing) ⊆ left := by
  refine or_congr stands.iff_same.symm ?_
  rw [eq_self_iff_true, true_and]
  constructor
  · exact fun holds entry member => (stands entry.1 entry.2).mp (holds entry member)
  · exact fun subset entry member => (stands entry.1 entry.2).mpr (subset member)

theorem top_of_stands
    (stands : t.Stands (packagePlace home package) (entriesMade (packageSteps package listing))) :
    t (packagePlace home package) = some .directory := by
  have top := (stands [] .directory).mpr top_of_entriesMade
  rw [List.append_nil] at top
  exact top

theorem allOrNothing_iff_spared (plain : Plain package listing) (ready : Ready home package tree)
    {disk : Disk} (fails : leftOf disk (packageSteps package listing) = some left)
    (stands : t.Stands (packagePlace home package) left)
    (outside : SameOutside (packagePlace home package) (prepared home package tree) t) :
    AllOrNothing home package listing tree t (placePackage healthy false home package t) ↔
      Spared home package listing tree left := by
  have kept : KeptBeside home package tree t := fun name other inside apart =>
    (outside other apart).trans (prepared_of_inside plain inside)
  have complete := @complete_iff_of_stands home package listing tree t left stands
  have top : (t (packagePlace home package) = some .directory) ↔ ([], .directory) ∈ left := by
    rw [← stands [] .directory, List.append_nil]
  rcases top_of_leftOf fails with rfl | there
  · have nothing : ∀ other, packagePlace home package <+: other → t other = none := by
      rintro _ ⟨path, rfl⟩
      exact stands.eq_none fun _ => List.not_mem_nil
    have absent := nothing _ (List.prefix_refl _)
    have readyAfter : Ready home package t := by
      refine ⟨fun place member => .inr ?_, .inl absent, fun _ => nothing, ?_⟩
      · have apart : ¬ packagePlace home package <+: place := fun inside =>
          not_mem_way plain (packagePlace_eq plain ▸ inside) member
        exact (outside place apart).trans (withDirs_of_mem member)
      · rw [kept "current" _ (inside_currentPlace plain) (currentPlace_outside plain)]
        exact ready.current
    rw [allOrNothing_iff_of_absent plain ready kept readyAfter absent, complete, Spared]
    simp only [true_and]
    constructor
    · intro safe
      by_cases link : tree (currentPlace home package) =
          some (.link package.manifest.pluginVersion)
      · exact (safe link).imp_right .inl
      · exact .inr (.inr link)
    · exact fun spared link => spared.imp_right fun either =>
        either.resolve_right fun other => other link
  · rw [allOrNothing_iff_of_directory plain ready kept (top.mpr there), complete, Spared]
    have nonempty : left ≠ [] := List.ne_nil_of_mem there
    simp only [nonempty, false_and, or_false]

theorem allOrNothing_of_dirs (plain : Plain package listing) (ready : Ready home package tree)
    {places : List Location} (made : places ⊆ (pluginDir home package.manifest.pluginId).way) :
    AllOrNothing home package listing tree (tree.withDirs places)
      (placePackage healthy false home package (tree.withDirs places)) := by
  have same : ∀ {name : String} {other : Location},
      home ++ [package.manifest.pluginId] ++ [name] <+: other →
        tree.withDirs places other = tree other :=
    fun inside => withDirs_of_inside plain made inside
  have inPackage : ∀ other, packagePlace home package <+: other →
      tree.withDirs places other = tree other := fun other inside =>
    same (packagePlace_eq plain ▸ inside)
  have kept : KeptBeside home package tree (tree.withDirs places) :=
    fun name other inside _ => same inside
  have complete : Complete home package listing tree (tree.withDirs places)
    package.manifest.pluginVersion := .inl inPackage
  have here := inPackage _ (List.prefix_refl _)
  rcases ready.version with absent | there
  · have readyAfter : Ready home package (tree.withDirs places) := by
      refine ⟨fun place member => ?_, .inl (here.trans absent), fun _ other inside => ?_, ?_⟩
      · by_cases isMade : place ∈ places
        · exact .inr (withDirs_of_mem isMade)
        · rw [withDirs_of_not_mem isMade]
          exact ready.way place member
      · exact (inPackage other inside).trans (ready.nothing absent other inside)
      · rw [same (inside_currentPlace plain)]
        exact ready.current
    exact (allOrNothing_iff_of_absent plain ready kept readyAfter (here.trans absent)).mpr
      fun _ => complete
  · exact (allOrNothing_iff_of_directory plain ready kept (here.trans there)).mpr complete

theorem allOrNothing_iff_lost (plain : Plain package listing) (ready : Ready home package tree)
    (there : tree (packagePlace home package) = some .directory) (lost : Location → Bool) :
    AllOrNothing home package listing tree
        ((prepared home package tree).lose (packagePlace home package) lost)
        (placePackage healthy false home package
          ((prepared home package tree).lose (packagePlace home package) lost)) ↔
      (∀ other, packagePlace home package <+: other →
        tree.lose (packagePlace home package) lost other = tree other) ∨
      Holds (tree.lose (packagePlace home package) lost) (packagePlace home package)
        (entriesMade (packageSteps package listing)) := by
  have same : ∀ other, packagePlace home package <+: other →
      (prepared home package tree).lose (packagePlace home package) lost other =
        tree.lose (packagePlace home package) lost other := by
    intro other inside
    rw [lose, lose, prepared_of_inside plain (packagePlace_eq plain ▸ inside)]
  have kept : KeptBeside home package tree
      ((prepared home package tree).lose (packagePlace home package) lost) :=
    fun name other inside apart => (lose_of_outside apart).trans (prepared_of_inside plain inside)
  have isDir : (prepared home package tree).lose (packagePlace home package) lost
      (packagePlace home package) = some .directory := by
    rw [same _ (List.prefix_refl _), lose_self, there]
  rw [allOrNothing_iff_of_directory plain ready kept isDir]
  refine or_congr (forall₂_congr fun other inside => ?_) ?_
  · rw [same other inside]
  · rw [eq_self_iff_true, true_and]
    exact forall₂_congr fun entry _ => by rw [same _ (List.prefix_append _ _)]

def InstallStep.isCopying : InstallStep → Bool
  | .createPluginDir | .removeVersionDir | .removeCurrent | .linkCurrent => false
  | _ => true

theorem isCopying_of_mem_listing {path : List String} {copyStep : CopyStep}
    (member : copyStep ∈ listingSteps path listing) : copyStep.step.isCopying = true := by
  induction listing generalizing path with
  | nil => cases member
  | file name content rest ih =>
    rcases List.mem_cons.mp member with rfl | later
    · rfl
    · exact ih later
  | directory name entries rest ihEntries ihRest =>
    rcases List.mem_cons.mp member with rfl | member
    · rfl
    rcases List.mem_cons.mp member with rfl | member
    · rfl
    exact (List.mem_append.mp member).elim ihEntries ihRest

theorem isCopying_of_mem {copyStep : CopyStep} (member : copyStep ∈ packageSteps package listing) :
    copyStep.step.isCopying = true := by
  rcases List.mem_cons.mp member with rfl | member
  · rfl
  rcases List.mem_cons.mp member with rfl | member
  · rfl
  rcases List.mem_cons.mp member with rfl | member
  · rfl
  rcases List.mem_cons.mp member with rfl | member
  · rfl
  rcases List.mem_append.mp member with inPayload | signature
  · exact isCopying_of_mem_listing inPayload
  · cases isSigned : package.signature with
    | none =>
      rw [isSigned] at signature
      cases signature
    | some bytes =>
      rw [isSigned] at signature
      rw [List.mem_singleton.mp signature]
      rfl

theorem leftOf_of_not_copying (other : step.isCopying = false) :
    leftOf (failing step fault) (packageSteps package listing) = none := by
  cases left : leftOf (failing step fault) (packageSteps package listing) with
  | none => rfl
  | some _ =>
    obtain ⟨copyStep, member, rfl⟩ := exists_of_leftOf left
    rw [isCopying_of_mem member] at other
    cases other

theorem of_failing {here : InstallStep} {fault' : Fault}
    (fails : failing step fault here = some fault') : here = step ∧ fault = fault' := by
  rw [failing] at fails
  split_ifs at fails with same
  exact ⟨same, Option.some_inj.mp fails⟩

theorem failing_self : failing step fault step = some fault := if_pos rfl

theorem harmless_iff_of_not_copying (other : step.isCopying = false) :
    Harmless home package listing tree step fault ↔
      (step = .removeVersionDir → tree (packagePlace home package) = some .directory →
        (∀ other, packagePlace home package <+: other →
          tree.lose (packagePlace home package) fault.lost other = tree other) ∨
        Holds (tree.lose (packagePlace home package) fault.lost) (packagePlace home package)
          (entriesMade (packageSteps package listing))) ∧
      (step = .linkCurrent → tree (currentPlace home package) = none) := by
  refine ⟨fun harmless => ⟨harmless.removal, harmless.link⟩, fun both => ⟨both.1, ?_, both.2⟩⟩
  rw [leftOf_of_not_copying other]
  exact nofun

theorem allOrNothing_iff_of_ends (plain : Plain package listing) (ready : Ready home package tree)
    {outcome : Outcome Tree Touch String InstallOutcome}
    (ends : PlaceEnds home package listing (failing step fault) tree outcome) :
    (∀ e, outcome.result = .error e → AllOrNothing home package listing tree outcome.state
        (placePackage healthy false home package outcome.state)) ↔
      Harmless home package listing tree step fault := by
  have failed : ∀ {e : String} {all : Prop},
      (∀ e', (.error e : Except String InstallOutcome) = .error e' → all) ↔ all :=
    ⟨fun holds => holds _ rfl, fun holds _ _ => holds⟩
  -- a failure before the removal loses nothing, one after it is judged by what it leaves
  cases ends with
  | dirFails fails made =>
    obtain ⟨rfl, rfl⟩ := of_failing fails
    rw [failed, harmless_iff_of_not_copying rfl]
    exact iff_of_true (allOrNothing_of_dirs plain ready made) ⟨nofun, nofun⟩
  | removalFails there fails =>
    obtain ⟨rfl, rfl⟩ := of_failing fails
    rw [failed, harmless_iff_of_not_copying rfl, allOrNothing_iff_lost plain ready there]
    exact ⟨fun kept => ⟨fun _ _ => kept, nofun⟩, fun harmless => harmless.1 rfl there⟩
  | copyFails fails stands outside =>
    obtain ⟨copyStep, member, same⟩ := exists_of_leftOf fails
    have copies := same ▸ isCopying_of_mem member
    rw [failed, allOrNothing_iff_spared plain ready fails stands outside]
    constructor
    · intro spared
      refine ⟨?_, fun left isLeft => ?_, ?_⟩
      · rintro rfl
        cases copies
      · obtain rfl := Option.some_inj.mp (fails.symm.trans isLeft)
        exact spared
      · rintro rfl
        cases copies
    · exact fun harmless => harmless.copying _ fails
  | unlinkFails fails stands outside =>
    obtain ⟨rfl, rfl⟩ := of_failing fails
    rw [failed, harmless_iff_of_not_copying rfl]
    have there := top_of_stands stands
    have kept : KeptBeside home package tree _ := fun name other inside apart =>
      (outside other apart).trans (prepared_of_inside plain inside)
    refine iff_of_true ?_ ⟨nofun, nofun⟩
    refine (allOrNothing_iff_of_directory plain ready kept there).mpr ?_
    exact (complete_iff_of_stands stands).mpr (.inr (List.Subset.refl _))
  | linkFails fails stands unlinked =>
    obtain ⟨rfl, rfl⟩ := of_failing fails
    rw [failed, harmless_iff_of_not_copying rfl]
    have there := top_of_stands stands
    constructor
    · intro all
      refine ⟨nofun, fun _ => ?_⟩
      rcases ready.current with absent | ⟨name, -, link⟩
      · exact absent
      · have still := unlinked.symm.trans (all.current name link).1
        cases still
    · intro harmless
      refine ⟨fun name link => ?_, .inl ⟨?_, ?_⟩⟩
      · rw [harmless.2 rfl] at link
        cases link
      · rw [later_skips plain there]
      · exact (complete_iff_of_stands stands).mpr (.inr (List.Subset.refl _))
  | installed noDir noRemoval noCopy noLink stands linked =>
    refine iff_of_true (fun _ same => by cases same) ⟨?_, ?_, ?_⟩
    · rintro rfl there
      rw [failing_self] at noRemoval
      cases noRemoval there
    · rw [noCopy]
      exact nofun
    · rintro rfl
      rw [failing_self] at noLink
      cases noLink

/-- **Failures of installations.** When a step of an installation fails, the version that was
current is complete and current still and the next installation completes the package, exactly if
the version is there and skipped, or the failure is harmless. -/
theorem install_all_or_nothing_iff (env : InstallEnvironment κ ς) (strict force : Bool)
    (home : Location) (package : Package) (checked : CheckedPackage) (listing : Listing)
    (tree : Tree) (step : InstallStep) (fault : Fault)
    (read : readPackage env strict package = .ok checked) (plain : Plain checked listing)
    (ready : Ready home checked tree) :
    (∀ e, (installFromExtractedDir env (failing step fault) force strict home package tree).result =
        .error e →
      AllOrNothing home checked listing tree
        (installFromExtractedDir env (failing step fault) force strict home package tree).state
        (installFromExtractedDir env healthy false strict home package
          (installFromExtractedDir env (failing step fault) force strict home package
            tree).state)) ↔
      tree (packagePlace home checked) = some .directory ∧ force = false ∨
        Harmless home checked listing tree step fault := by
  have runs : ∀ disk force, installFromExtractedDir env disk force strict home package =
      placePackage disk force home checked := by
    intro disk force
    rw [installFromExtractedDir, read, ofExcept_ok, Action.pure_bind]
  simp only [runs]
  by_cases skipped : tree (packagePlace home checked) = some .directory ∧ force = false
  · have found := (exists_versionDir_iff plain ready.version).mpr skipped.1
    have skips : placePackage (failing step fault) force home checked tree =
        ⟨.ok .alreadyInstalled, tree, []⟩ := by
      rw [placePackage, get_bind_apply, if_pos ⟨found, by rw [skipped.2]; exact Bool.false_ne_true⟩]
      rfl
    rw [skips]
    exact iff_of_true (fun _ failed => by cases failed) (.inl skipped)
  · rw [or_iff_right skipped]
    have wanted : tree (packagePlace home checked) = some .directory → force = true :=
      fun there => Bool.of_not_eq_false fun unforced => skipped ⟨there, unforced⟩
    exact allOrNothing_iff_of_ends plain ready (placeEnds plain ready wanted)

theorem installFromExtractedDir_of_read {env : InstallEnvironment κ ς} {disk : Disk}
    {force strict : Bool} {extracted : Package}
    (read : readPackage env strict extracted = .ok package) :
    installFromExtractedDir env disk force strict home extracted =
      placePackage disk force home package := by
  rw [installFromExtractedDir, read, ofExcept_ok, Action.pure_bind]

end Failures

/-! ### A disk that is full -/

/-- The installation of a package without a payload, when the disk is full at one step. -/
def fillDisk (step : InstallStep) (force : Bool) (tree : Tree) :
    Outcome Tree Touch String InstallOutcome :=
  installFromExtractedDir (plainEnvironment tightLibrary "acme.echo" "1.0.0")
    (failing step ⟨"No space left on device (os error 28)", 0, fun _ => false, none⟩) force false
    ["plugins"] plainPackage tree

def installEcho (tree : Tree) : Outcome Tree Touch String InstallOutcome :=
  installFromExtractedDir (plainEnvironment tightLibrary "acme.echo" "1.0.0") healthy false false
    ["plugins"] plainPackage tree

def echoPackage : CheckedPackage := emptyPackage ⟨"acme.echo", "acme.echo", "1.0.0", "unknown"⟩

def newHome : Tree := fun _ => none

theorem plain_echoPackage : Plain echoPackage .nil where
  id := by decide +kernel
  version := by decide +kernel
  notCurrent := by decide
  payload := rfl
  distinct := trivial

theorem packagePlace_echoPackage :
    packagePlace ["plugins"] echoPackage = ["plugins", "acme.echo", "1.0.0"] := by
  decide +kernel

theorem reached_newHome : Reached ["plugins"] newHome :=
  .fresh (fun _ _ => .inl rfl) fun _ _ _ => rfl

def echoHome : Tree := (installEcho newHome).state

theorem install_echoPackage (disk : Disk) (force : Bool) :
    installFromExtractedDir (plainEnvironment tightLibrary "acme.echo" "1.0.0") disk force false
      ["plugins"] plainPackage = placePackage disk force ["plugins"] echoPackage :=
  installFromExtractedDir_of_read rfl

theorem reached_echoHome : Reached ["plugins"] echoHome := by
  rw [echoHome, installEcho, install_echoPackage]
  exact .install healthy false plain_echoPackage reached_newHome

/-- The version is installed again, and the disk fails when the link to it is taken away: the
version is complete and current still. -/
theorem reinstalled_version_is_spared :
    echoHome ["plugins", "acme.echo", "current"] = some (.link "1.0.0") ∧
      (fillDisk .removeCurrent true echoHome).result =
        .error "No space left on device (os error 28)" ∧
      AllOrNothing ["plugins"] echoPackage .nil echoHome
        (fillDisk .removeCurrent true echoHome).state
        (installEcho (fillDisk .removeCurrent true echoHome).state) := by
  have full : (fillDisk .removeCurrent true echoHome).result =
      .error "No space left on device (os error 28)" := by
    decide +kernel
  refine ⟨by decide +kernel, full, (install_all_or_nothing_iff
    (plainEnvironment tightLibrary "acme.echo" "1.0.0") false true ["plugins"] plainPackage
    echoPackage .nil echoHome .removeCurrent _ rfl plain_echoPackage
    (ready_of_reached plain_echoPackage reached_echoHome)).mpr (.inr ?_) _ full⟩
  exact (harmless_iff_of_not_copying rfl).mpr ⟨nofun, nofun⟩

def emptiedHome : Tree := (fillDisk .copyManifest true echoHome).state

/-- The manifest of the version is gone, the version is current still, and the next installation
skips it. -/
theorem half_copied_version_is_skipped :
    (fillDisk .copyManifest true echoHome).result =
        .error "No space left on device (os error 28)" ∧
      echoHome ["plugins", "acme.echo", "1.0.0", "plugin.json"] = some (.file []) ∧
      echoHome ["plugins", "acme.echo", "current"] = some (.link "1.0.0") ∧
      emptiedHome ["plugins", "acme.echo", "1.0.0", "plugin.json"] = none ∧
      emptiedHome ["plugins", "acme.echo", "current"] = some (.link "1.0.0") ∧
      (installEcho emptiedHome).result = .ok .alreadyInstalled ∧
      ¬ AllOrNothing ["plugins"] echoPackage .nil echoHome emptiedHome
        (installEcho emptiedHome) := by
  have manifest : echoHome ["plugins", "acme.echo", "1.0.0", "plugin.json"] = some (.file []) := by
    decide +kernel
  have gone : emptiedHome ["plugins", "acme.echo", "1.0.0", "plugin.json"] = none := by
    decide +kernel
  have skipped : (installEcho emptiedHome).result = .ok .alreadyInstalled := by
    decide +kernel
  refine ⟨by decide +kernel, manifest, by decide +kernel, gone, by decide +kernel, skipped, ?_⟩
  intro all
  rcases all.later with ⟨-, same | ⟨-, whole⟩⟩ | ⟨installed, -⟩
  · change ∀ other, packagePlace ["plugins"] echoPackage <+: other → _ at same
    rw [packagePlace_echoPackage] at same
    have kept := gone.symm.trans ((same _ ⟨["plugin.json"], rfl⟩).trans manifest)
    cases kept
  · have there := whole (["plugin.json"], .file []) (by decide +kernel)
    rw [packagePlace_echoPackage] at there
    cases gone.symm.trans there
  · cases skipped.symm.trans installed

end KelvinClaw.Cli
