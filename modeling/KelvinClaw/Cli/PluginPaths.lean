import KelvinClaw.Cli.PluginInstall

/-!
# Where plugins are installed

The id and the version of a package become parts of paths as they are. An installation stays in
the directory of one plugin when the paths for them pass through that directory: the version is an
entry of it, and the link is in it and not above the version.
-/

namespace KelvinClaw.Cli

open KelvinClaw.Core KelvinClaw.Plugin Systems Systems.Action Systems.FileAction

variable {κ ς : Type}

/-! ### Staying in the directory of a plugin -/

def HomeStands (home : Location) (tree : Tree) : Prop :=
  ∀ place, place <+: home → tree place ≠ none

/-- What may be removed after some touches: the link, when it does not lead to the version that is
installed or above, and a previous copy of the version, before anything is copied. -/
def MayRemove (base version current : Location) (before : List Touch) (place : Location) : Prop :=
  place = current ∧ ¬ current <+: version ∨
    place = version ∧ (∃ name, version = base ++ [name]) ∧ ∀ file, .wrote file ∉ before

/-- The touches stay at a place and below it, and nothing but a previous copy and the link is
removed. -/
structure StaysIn (base version current : Location) (touches : List Touch) : Prop where
  within : ∀ touch ∈ touches, base <+: touch.place
  removals : ∀ before place after, touches = before ++ .removed place :: after →
    MayRemove base version current before place

/-- An installation stays in the directory of one plugin. -/
def Stays (home version current : Location) (touches : List Touch) : Prop :=
  ∃ name, IsName name ∧ StaysIn (home ++ [name]) version current touches

section Touches

variable {base version current : Location} {touches : List Touch} {touch : Touch}

theorem staysIn_nil : StaysIn base version current [] := by
  constructor
  · intro touch member
    cases member
  · intro before place after split
    cases before with
    | nil => cases split
    | cons touch rest => cases split

theorem StaysIn.snoc (stays : StaysIn base version current touches) (within : base <+: touch.place)
    (removal : ∀ place, touch = .removed place → MayRemove base version current touches place) :
    StaysIn base version current (touches ++ [touch]) := by
  constructor
  · intro other member
    rcases List.mem_append.mp member with earlier | latest
    · exact stays.within other earlier
    · rwa [List.mem_singleton.mp latest]
  · intro before place after split
    rcases List.eq_nil_or_concat after with rfl | ⟨after, last, rfl⟩
    · obtain ⟨rfl, same⟩ := List.append_inj' split rfl
      exact removal place (List.cons.inj same).1
    · rw [List.concat_eq_append, ← List.cons_append, ← List.append_assoc] at split
      exact stays.removals before place after (List.append_inj' split rfl).1

end Touches

/-! ### Ids and versions that stay -/

/-- What a path passes through is there already, or lies below a place. -/
def PassesIn (home base : Location) (route : Route) : Prop :=
  ∀ place ∈ route.way, place <+: home ∨ base <+: place

/-- The paths for an id and a version stay in one directory: the version is an entry of it, and the
link is in it and not above the version. A path with a NUL is refused, and so is the manifest where
the path of the version has made a directory in its place. -/
def ContainedIn (home : Location) (name id version : String) : Prop :=
  let dir := pluginDir home id
  let installDir := versionDir home id version
  let current := currentLink home id
  PassesIn home (home ++ [name]) dir ∧
    (installDir.nul ∨
      (∃ entry, installDir.place = home ++ [name] ++ [entry]) ∧
      PassesIn home (home ++ [name]) installDir ∧
      (installDir.place ++ ["plugin.json"] ∈ installDir.way ∨
        home ++ [name] <+: current.place ∧ ¬ current.place <+: installDir.place))

def Contained (home : Location) (id version : String) : Prop :=
  (pluginDir home id).nul ∨ ∃ name, IsName name ∧ ContainedIn home name id version

/-! ### Keeping to it -/

def recordTouch (touches : List Touch) (touch : Touch) : List Touch := touches ++ [touch]

theorem foldl_recordTouch (journal past : List Touch) :
    journal.foldl recordTouch past = past ++ journal := by
  induction journal generalizing past with
  | nil => exact (List.append_nil past).symm
  | cons touch rest ih =>
    rw [List.foldl_cons, ih, recordTouch, List.append_assoc, List.singleton_append]

section Keeping

variable {home base version current : Location}

/-- The home stands, and the touches stay in a place below it; before the package is copied, no
file is written. -/
structure Keeping (home base version current : Location) (copying : Bool) (tree : Tree)
    (touches : List Touch) : Prop where
  home : HomeStands home tree
  stays : StaysIn base version current touches
  uncopied : copying = false → ∀ file, .wrote file ∉ touches

variable (home base version current) in
abbrev KeepsIn {α : Type} (copying : Bool) (act : FileAction α) : Prop :=
  Keeps recordTouch (fun _ => True) (Keeping home base version current copying) act

variable {copying : Bool} {tree : Tree} {touches : List Touch} {route : Route}

theorem Keeping.record (keeping : Keeping home base version current copying tree touches)
    {after : Tree} {touch : Touch} (stands : HomeStands home after) (within : base <+: touch.place)
    (removal : ∀ place, touch = .removed place → MayRemove base version current touches place)
    (copied : ∀ file, touch = .wrote file → copying = true) :
    Keeping home base version current copying after (recordTouch touches touch) := by
  refine ⟨stands, keeping.stays.snoc within removal, fun uncopied file member => ?_⟩
  rcases List.mem_append.mp member with earlier | latest
  · exact keeping.uncopied uncopied file earlier
  · rw [copied file (List.mem_singleton.mp latest).symm] at uncopied
    cases uncopied

theorem HomeStands.put (stands : HomeStands home tree) (place : Location) (node : Node) :
    HomeStands home (tree.put place node) := by
  intro other above
  by_cases here : other = place
  · rw [here, Tree.put_self]
    exact nofun
  · rw [Tree.put_of_ne here]
    exact stands other above

theorem not_prefix_home {name : String} {place : Location} (below : home ++ [name] <+: place) :
    ¬ place <+: home := by
  intro above
  have length := (below.trans above).length_le
  rw [List.length_append, List.length_singleton] at length
  omega

theorem keepsIn_createDirAll (passes : PassesIn home base route) (fault : Option Fault) :
    KeepsIn home base version current copying (createDirAll fault route) := by
  apply keeps_createDirAll fun _ _ _ => trivial
  intro tree touches place passed nothing keeping
  have within : base <+: place :=
    (passes place passed).resolve_left fun above => keeping.home place above nothing
  refine keeping.record (keeping.home.put place .directory) within ?_ ?_
  · intro _ same
    cases same
  · intro _ same
    cases same

theorem keepsIn_copyFile (within : base <+: route.place) (fault : Option Fault)
    (content : List UInt8) :
    KeepsIn home base version current true (copyFile fault content route) := by
  apply keeps_copyFile fun _ _ _ => trivial
  intro tree touches place content _ keeping
  refine keeping.record (keeping.home.put place _) within ?_ ?_
  · intro _ same
    cases same
  · exact fun _ _ => rfl

theorem keepsIn_symlink (within : base <+: route.place) (fault : Option Fault) (target : String) :
    KeepsIn home base version current copying (symlink fault target route) := by
  apply keeps_symlink fun _ _ _ => trivial
  intro tree touches _ keeping
  refine keeping.record (keeping.home.put _ _) within ?_ ?_
  · intro _ same
    cases same
  · intro _ same
    cases same

/-! A removal leaves the home where it is. -/

section Removals

variable {name : String} (within : home ++ [name] <+: route.place)
include within

theorem HomeStands.drop (stands : HomeStands home tree) :
    HomeStands home (tree.drop route.place) := by
  intro other above
  have elsewhere : other ≠ route.place := by
    rintro rfl
    exact not_prefix_home within above
  rw [Tree.drop_of_ne elsewhere]
  exact stands other above

theorem HomeStands.prune (stands : HomeStands home tree) :
    HomeStands home (tree.prune route.place) := by
  intro other above
  rw [Tree.prune_of_outside fun below => not_prefix_home within (below.trans above)]
  exact stands other above

theorem HomeStands.lose (stands : HomeStands home tree) (lost : Location → Bool) :
    HomeStands home (tree.lose route.place lost) := by
  intro other above
  rw [Tree.lose_of_outside fun below => not_prefix_home within (below.trans above)]
  exact stands other above

variable (may : ∀ touches, (copying = false → ∀ file, .wrote file ∉ touches) →
  MayRemove (home ++ [name]) version current touches route.place)
include may

theorem Keeping.removed {after : Tree} (stands : HomeStands home after)
    (keeping : Keeping home (home ++ [name]) version current copying tree touches) :
    Keeping home (home ++ [name]) version current copying after
      (recordTouch touches (.removed route.place)) := by
  refine keeping.record stands within ?_ ?_
  · intro place same
    obtain rfl := Touch.removed.inj same
    exact may touches keeping.uncopied
  · intro _ same
    cases same

theorem keepsIn_removeDirAll (fault : Option Fault) :
    KeepsIn home (home ++ [name]) version current copying (removeDirAll fault route) := by
  apply keeps_removeDirAll fun _ _ _ => trivial
  · exact fun tree touches keeping => keeping.removed within may (keeping.home.drop within)
  · exact fun tree touches keeping => keeping.removed within may (keeping.home.prune within)
  · exact fun tree touches lost keeping =>
      keeping.removed within may (keeping.home.lose within lost)

theorem keepsIn_removeFile (fault : Option Fault) :
    KeepsIn home (home ++ [name]) version current copying (removeFile fault route) := by
  apply keeps_removeFile fun _ _ _ => trivial
  exact fun tree touches keeping => keeping.removed within may (keeping.home.drop within)

end Removals

/-! ### The steps of an installation -/

theorem passesIn_join {text : String} (name : IsName text) (passes : PassesIn home base route)
    (within : base <+: route.place) : PassesIn home base (route.join text) := by
  intro place passed
  rw [Route.way_join_of_isName name] at passed
  rcases List.mem_append.mp passed with earlier | latest
  · exact passes place earlier
  · rw [List.mem_singleton.mp latest]
    exact .inr (within.trans (List.prefix_append _ _))

/-- With plain names the paths stay in the directory of the plugin, unless the version would take
the place of the link. -/
theorem containedIn_of_names {id version : String} (idName : IsName id)
    (versionName : IsName version) (apart : version ≠ "current") :
    ContainedIn home id id version := by
  have dir : (pluginDir home id).place = home ++ [id] := Route.place_join_of_isName idName
  have within : home ++ [id] <+: (pluginDir home id).place := dir ▸ List.prefix_refl _
  have dirPasses : PassesIn home (home ++ [id]) (pluginDir home id) := by
    intro place passed
    rw [pluginDir, Route.way_join_of_isName idName] at passed
    rcases List.mem_append.mp passed with earlier | latest
    · exact .inl ((List.mem_inits _ _).mp earlier)
    · rw [List.mem_singleton.mp latest]
      exact .inr (List.prefix_refl _)
  have placed : (versionDir home id version).place = home ++ [id] ++ [version] := by
    rw [versionDir, Route.place_join_of_isName versionName, dir]
  have linked : (currentLink home id).place = home ++ [id] ++ ["current"] := by
    rw [currentLink, Route.place_join_of_isName (by decide), dir]
  refine ⟨dirPasses, .inr ⟨⟨version, placed⟩, passesIn_join versionName dirPasses within, .inr ?_⟩⟩
  rw [linked, placed]
  refine ⟨List.prefix_append _ _, fun above => apart ?_⟩
  have same := above.eq_of_length (by simp)
  exact (List.singleton_inj.mp (List.append_cancel_left same)).symm

theorem within_join {text : String} (name : IsName text) (within : base <+: route.place) :
    base <+: (route.join text).place := by
  rw [Route.place_join_of_isName name]
  exact within.trans (List.prefix_append _ _)

theorem keepsIn_enterDir (disk : Disk) (path : List String) (passes : PassesIn home base route) :
    KeepsIn home base version current true (enterDir disk path route) := by
  apply keeps_bind (keepsIn_createDirAll passes _)
  exact fun _ => keeps_raise (fun _ _ _ => trivial) _

theorem keepsIn_copyEntries (disk : Disk) (path : List String) (passes : PassesIn home base route)
    (within : base <+: route.place) (entries : Listing) :
    KeepsIn home base version current true (copyEntries disk path route entries) := by
  induction entries generalizing path route with
  | nil => exact keeps_pure (fun _ _ _ => trivial) ()
  | file name content rest ih =>
    apply keeps_bind (keepsIn_copyFile (within_join name.2.1 within) _ _)
    exact fun _ => ih path passes within
  | directory name entries rest below beside =>
    have passesBelow := passesIn_join name.2.1 passes within
    apply keeps_bind (keepsIn_enterDir disk _ passesBelow)
    intro _
    apply keeps_bind (below _ passesBelow (within_join name.2.1 within))
    exact fun _ => beside path passes within

theorem keepsIn_copyDirAll (disk : Disk) (payload : Except String Listing)
    (passes : PassesIn home base route) (within : base <+: route.place) :
    KeepsIn home base version current true (copyDirAll disk payload route) := by
  apply keeps_bind (keepsIn_enterDir disk [] passes)
  intro _
  cases payload with
  | error e => exact keeps_fail (fun _ _ _ => trivial) e
  | ok entries => exact keepsIn_copyEntries disk [] passes within entries

theorem keepsIn_copySignature (disk : Disk) (signature : Option (List UInt8))
    (within : base <+: route.place) :
    KeepsIn home base version current true (copySignature disk signature route) := by
  cases signature with
  | none => exact keeps_pure (fun _ _ _ => trivial) ()
  | some bytes => exact keepsIn_copyFile within _ _

theorem isName_manifest : IsName "plugin.json" := by decide

theorem keepsIn_copyPackage (disk : Disk) (package : CheckedPackage)
    (passes : PassesIn home base route) (within : base <+: route.place) :
    KeepsIn home base version current true (copyPackage disk package route) := by
  have payload : IsName "payload" := by decide
  apply keeps_bind (keepsIn_copyFile (within_join isName_manifest within) _ _)
  intro _
  apply keeps_bind (keepsIn_copyDirAll disk _ (passesIn_join payload passes within)
    (within_join payload within))
  exact fun _ => keepsIn_copySignature disk _ (within_join (by decide) within)

section Version

variable {name : String} {manifest : InstallManifest}

theorem keepsIn_makeVersionDir (disk : Disk)
    (dirPasses : PassesIn home (home ++ [name]) (pluginDir home manifest.pluginId))
    (route_eq : versionDir home manifest.pluginId manifest.pluginVersion = route)
    (passes : route.nul ∨ (∃ entry, route.place = home ++ [name] ++ [entry]) ∧
      PassesIn home (home ++ [name]) route) :
    KeepsIn home (home ++ [name]) route.place current false
      (makeVersionDir disk home manifest) := by
  have safe : ∀ tree touches, Keeping home (home ++ [name]) route.place current false tree touches →
      True := fun _ _ _ => trivial
  have removes : KeepsIn home (home ++ [name]) route.place current false
      (removeDirAll (disk .removeVersionDir) route) := by
    rcases passes with nul | ⟨⟨entry, place⟩, _⟩
    · rw [removeDirAll, if_pos nul]
      exact keeps_fail safe _
    · refine keepsIn_removeDirAll (place ▸ List.prefix_append _ _) (fun touches uncopied => ?_) _
      exact .inr ⟨rfl, ⟨entry, place⟩, uncopied rfl⟩
  have creates : KeepsIn home (home ++ [name]) route.place current false
      (createDirAll (disk .createVersionDir) route) := by
    rcases passes with nul | ⟨_, passes⟩
    · rw [createDirAll, if_pos nul]
      exact keeps_fail safe _
    · exact keepsIn_createDirAll passes _
  unfold makeVersionDir
  rw [route_eq]
  apply keeps_bind (keepsIn_createDirAll dirPasses _)
  intro _
  apply keeps_bind
  · apply keeps_get_bind safe
    intro tree touches keeping
    split
    · exact removes tree touches keeping
    · exact keeps_pure safe () tree touches keeping
  · exact fun _ => creates

theorem of_makeVersionDir {disk : Disk}
    (made : (makeVersionDir disk home manifest tree).result = .ok ()) :
    let installDir := versionDir home manifest.pluginId manifest.pluginVersion
    installDir.nul = false ∧ ∀ place ∈ installDir.way,
      (makeVersionDir disk home manifest tree).state.stat place = some .directory := by
  intro installDir
  obtain ⟨_, first, made⟩ := result_bind_ok.mp made
  obtain ⟨_, second, made⟩ := result_bind_ok.mp made
  unfold makeVersionDir
  rw [bind_apply_of_result first, bind_apply_of_result second]
  exact of_createDirAll made

end Version

theorem keepsIn_updateCurrentLink (disk : Disk) {name target : String}
    (within : home ++ [name] <+: route.place) (apart : ¬ route.place <+: version) :
    KeepsIn home (home ++ [name]) version route.place true
      (updateCurrentLink disk route target) := by
  have safe : ∀ tree touches, Keeping home (home ++ [name]) version route.place true tree touches →
      True := fun _ _ _ => trivial
  have may : ∀ touches : List Touch, (true = false → ∀ file, .wrote file ∉ touches) →
      MayRemove (home ++ [name]) version route.place touches route.place :=
    fun _ _ => .inl ⟨rfl, apart⟩
  apply keeps_bind
  · apply keeps_get_bind safe
    intro tree touches keeping
    split_ifs
    · exact keepsIn_removeDirAll within may _ tree touches keeping
    · exact keepsIn_removeFile within may _ tree touches keeping
    · exact keeps_pure safe () tree touches keeping
  · intro _
    apply keeps_bind (keeps_attempt (keepsIn_symlink within _ _))
    intro result
    cases result with
    | ok a => exact keeps_pure safe a
    | error e => exact keeps_fail safe _

/-! ### The installation -/

theorem staysIn_of_wp {α : Type} {act : FileAction α}
    (holds : wp recordTouch (fun _ => True) act
      (fun _ t touches => HomeStands home t ∧ StaysIn base version current touches) tree []) :
    HomeStands home (act tree).state ∧ StaysIn base version current (act tree).journal := by
  have atEnd := holds.2
  rwa [foldl_recordTouch, List.nil_append] at atEnd

theorem Keeping.start (stands : HomeStands home tree) :
    Keeping home base version current false tree [] :=
  ⟨stands, staysIn_nil, fun _ _ member => by cases member⟩

theorem Keeping.toCopying (keeping : Keeping home base version current copying tree touches) :
    Keeping home base version current true tree touches :=
  ⟨keeping.home, keeping.stays, nofun⟩

theorem isName_a : IsName "a" := by decide

theorem stays_nil : Stays home version current [] := ⟨"a", isName_a, staysIn_nil⟩

/-- Where the path of the version has made a directory in the place of the manifest, the manifest
is not copied, and nothing is. -/
theorem copyPackage_of_directory (disk : Disk) (package : CheckedPackage)
    (there : tree.stat (route.place ++ ["plugin.json"]) = some .directory) :
    ∃ e, copyPackage disk package route tree = ⟨.error e, tree, []⟩ := by
  rw [← Route.place_join_of_isName isName_manifest] at there
  obtain ⟨e, ran⟩ := copyFile_of_directory there (disk .copyManifest) package.manifestBytes
  refine ⟨e, ?_⟩
  rw [copyPackage, bind_apply_of_error (congrArg Outcome.result ran), ran]

theorem staysIn_placePackage (disk : Disk) (force : Bool) (package : CheckedPackage)
    (contained : ContainedIn home name package.manifest.pluginId package.manifest.pluginVersion)
    (stands : HomeStands home tree) :
    HomeStands home (placePackage disk force home package tree).state ∧ StaysIn (home ++ [name])
      (versionDir home package.manifest.pluginId package.manifest.pluginVersion).place
      (currentLink home package.manifest.pluginId).place
      (placePackage disk force home package tree).journal := by
  obtain ⟨dirPasses, passes⟩ := contained
  rw [placePackage, get_bind_apply]
  split_ifs
  · -- a package that is installed already is skipped
    exact ⟨stands, staysIn_nil⟩
  apply staysIn_of_wp
  have made := @keepsIn_makeVersionDir home (currentLink home package.manifest.pluginId).place
    _ name _ disk dirPasses rfl (passes.imp_right fun passes => ⟨passes.1, passes.2.1⟩) tree []
    (.start stands)
  refine wp_bind.mpr ⟨made.1, ?_⟩
  have kept := made.2
  cases ended : (makeVersionDir disk home package.manifest tree).result with
  | error e => exact ⟨kept.home, kept.stays⟩
  | ok _ =>
    obtain ⟨proper, dirs⟩ := of_makeVersionDir ended
    obtain ⟨⟨entry, place⟩, versionPasses, linked⟩ :=
      passes.resolve_left (by rw [proper]; exact Bool.false_ne_true)
    rcases linked with onWay | ⟨within, apart⟩
    · -- the manifest finds a directory in its place, and the link is never reached
      obtain ⟨e, ran⟩ := copyPackage_of_directory disk package (dirs _ onWay)
      refine ⟨fun _ => trivial, ?_⟩
      rw [bind_apply_of_error (congrArg Outcome.result ran), ran]
      exact ⟨kept.home, kept.stays⟩
    · have inside : home ++ [name] <+:
          (versionDir home package.manifest.pluginId package.manifest.pluginVersion).place :=
        place ▸ List.prefix_append _ _
      -- from here on files are written, and no version is removed any more
      apply wp_bind.mpr
      apply (keepsIn_copyPackage disk package versionPasses inside _ _ kept.toCopying).mono
      intro result t after _ keeping
      cases result with
      | error e => exact ⟨keeping.home, keeping.stays⟩
      | ok _ =>
        apply wp_bind.mpr
        apply (keepsIn_updateCurrentLink disk within apart _ _ keeping).mono
        intro result t after _ keeping
        cases result with
        | error e => exact ⟨keeping.home, keeping.stays⟩
        | ok _ => exact wp_pure.mpr ⟨trivial, keeping.home, keeping.stays⟩

theorem stays_placePackage (disk : Disk) (force : Bool) (package : CheckedPackage)
    (contained : Contained home package.manifest.pluginId package.manifest.pluginVersion)
    (stands : HomeStands home tree) :
    HomeStands home (placePackage disk force home package tree).state ∧ Stays home
      (versionDir home package.manifest.pluginId package.manifest.pluginVersion).place
      (currentLink home package.manifest.pluginId).place
      (placePackage disk force home package tree).journal := by
  rcases contained with nul | ⟨name, isName, contained⟩
  · have refused : (makeVersionDir disk home package.manifest tree) =
        ⟨.error nulByte, tree, []⟩ := by
      rw [makeVersionDir, createDirAll, if_pos nul]
      rfl
    rw [placePackage, get_bind_apply]
    split_ifs
    · -- a package that is installed already is skipped
      exact ⟨stands, stays_nil⟩
    · rw [bind_apply_of_error (congrArg Outcome.result refused), refused]
      exact ⟨stands, stays_nil⟩
  · exact (staysIn_placePackage disk force package contained stands).imp_right
      fun stays => ⟨name, isName, stays⟩

end Keeping

end KelvinClaw.Cli
