import KelvinClaw.Cli.PluginInstall

/-!
# The steps of an installation

An installation copies a package in steps: it makes a directory, reads one, or writes a file. A step
puts at most one thing below the directory of the version. When a step fails, what stands there is
what the steps before it have put and what is left of the step itself.
-/

namespace KelvinClaw.Cli

open KelvinClaw.Core KelvinClaw.Plugin Systems Systems.Action Systems.FileAction Systems.Route
  Systems.Tree

/-! ### Steps -/

abbrev Entry := Location × Node

inductive CopyStep where
  | make (step : InstallStep) (path : Location)
  | read (step : InstallStep)
  | copy (step : InstallStep) (path : Location) (content : List UInt8)

namespace CopyStep

def step : CopyStep → InstallStep
  | make step _ => step
  | read step => step
  | copy step _ _ => step

def entries : CopyStep → List Entry
  | make _ path => [(path, .directory)]
  | read _ => []
  | copy _ path content => [(path, .file content)]

def part (fault : Fault) : CopyStep → List Entry
  | make _ path => if fault.made = 0 then [] else [(path, .directory)]
  | read _ => []
  | copy _ path _ => (fault.left.map fun part => (path, .file part)).toList

def below (dir : Route) (path : Location) : Route := path.foldl Route.join dir

def run (disk : Disk) (dir : Route) : CopyStep → FileAction Unit
  | make step path => createDirAll (disk step) (below dir path)
  | read step => raise (disk step)
  | copy step path content => copyFile (disk step) content (below dir path)

end CopyStep

open CopyStep

def runSteps (disk : Disk) (dir : Route) : List CopyStep → FileAction Unit
  | [] => return ()
  | step :: rest => do
    step.run disk dir
    runSteps disk dir rest

def entriesMade (steps : List CopyStep) : List Entry := steps.flatMap CopyStep.entries

/-- What stands there when one of the steps fails, if one does. -/
def leftOf (disk : Disk) : List CopyStep → Option (List Entry)
  | [] => none
  | step :: rest =>
    match disk step.step with
    | some fault => some (step.part fault)
    | none => (leftOf disk rest).map (step.entries ++ ·)

def payloadPath (path : List String) : Location := "payload" :: path

def listingSteps (path : List String) : Listing → List CopyStep
  | .nil => []
  | .file name content rest =>
    .copy (.copyPayloadFile (path ++ [name.val])) (payloadPath (path ++ [name.val])) content ::
      listingSteps path rest
  | .directory name entries rest =>
    .make (.createPayloadDir (path ++ [name.val])) (payloadPath (path ++ [name.val])) ::
      .read (.readPayloadDir (path ++ [name.val])) ::
        (listingSteps (path ++ [name.val]) entries ++ listingSteps path rest)

def signatureSteps (signature : Option (List UInt8)) : List CopyStep :=
  (signature.map fun bytes => .copy .copySignature ["plugin.sig"] bytes).toList

def packageSteps (package : CheckedPackage) (listing : Listing) : List CopyStep :=
  .make .createVersionDir [] :: .copy .copyManifest ["plugin.json"] package.manifestBytes ::
    .make (.createPayloadDir []) (payloadPath []) :: .read (.readPayloadDir []) ::
      (listingSteps [] listing ++ signatureSteps package.signature)

/-! ### The copying in steps -/

section Steps

variable {disk : Disk} {dir : Route} {path : Location} {name : String}

theorem below_concat : below dir (path ++ [name]) = (below dir path).join name :=
  List.foldl_append

theorem bind_unit (act : FileAction Unit) : (do
    act
    return ()) = act := by
  funext tree
  change Action.bind act _ tree = act tree
  unfold Action.bind
  match act tree with
  | ⟨.ok (), t, log⟩ => exact congrArg (Outcome.mk _ t) (List.append_nil log)
  | ⟨.error e, t, log⟩ => rfl

theorem runSteps_append (first later : List CopyStep) :
    runSteps disk dir (first ++ later) = (do
      runSteps disk dir first
      runSteps disk dir later) := by
  induction first with
  | nil => rfl
  | cons step rest ih =>
    rw [List.cons_append, runSteps, ih, runSteps, Action.bind_assoc]

theorem copyEntries_eq (path : List String) (listing : Listing) :
    copyEntries disk path (below dir (payloadPath path)) listing =
      runSteps disk dir (listingSteps path listing) := by
  have inside : ∀ name : String, (below dir (payloadPath path)).join name =
      below dir (payloadPath (path ++ [name])) := fun _ => below_concat.symm
  induction listing generalizing path with
  | nil => rfl
  | file name content rest ih =>
    rw [copyEntries, inside, ih path inside]
    rfl
  | directory name entries rest ihEntries ihRest =>
    rw [copyEntries, inside, ihEntries _ fun _ => below_concat.symm, ihRest path inside,
      listingSteps, runSteps, runSteps, runSteps_append, enterDir, Action.bind_assoc]
    rfl

theorem copyPackage_eq {package : CheckedPackage} {listing : Listing}
    (payload : package.payload = .ok listing) :
    (do
      createDirAll (disk .createVersionDir) dir
      copyPackage disk package dir) = runSteps disk dir (packageSteps package listing) := by
  have signature : copySignature disk package.signature (dir.join "plugin.sig") =
      runSteps disk dir (signatureSteps package.signature) := by
    cases package.signature with
    | none => rfl
    | some bytes => exact (bind_unit _).symm
  have entries : copyEntries disk [] (dir.join "payload") listing =
      runSteps disk dir (listingSteps [] listing) := copyEntries_eq [] listing
  rw [copyPackage, copyDirAll, payload, ofExcept_ok, enterDir, packageSteps, runSteps, runSteps,
    runSteps, runSteps, runSteps_append, signature]
  simp only [Action.bind_assoc, Action.pure_bind]
  rw [entries]
  rfl

end Steps

/-! ### Things that are put into each other -/

/-- A thing may be put there: nothing is there, and all that is above it is a directory. -/
structure FitsIn (before : List Entry) (path : Location) : Prop where
  fresh : ∀ node, (path, node) ∉ before
  above : ∀ higher, higher <+: path → higher ≠ path → (higher, .directory) ∈ before
  names : ∀ name ∈ path, IsName name ∧ ¬ HasNul name

def Nested : List Entry → List Entry → Prop
  | _, [] => True
  | before, entry :: rest => FitsIn before entry.1 ∧ Nested (before ++ [entry]) rest

def Listing.names : Listing → List String
  | nil => []
  | file name _ rest => name.val :: rest.names
  | directory name _ rest => name.val :: rest.names

def Listing.Distinct : Listing → Prop
  | nil => True
  | file name _ rest => name.val ∉ rest.names ∧ rest.Distinct
  | directory name entries rest => name.val ∉ rest.names ∧ entries.Distinct ∧ rest.Distinct

section Nested

variable {before entries later : List Entry} {path : Location} {name : String}

theorem nested_append : Nested before (entries ++ later) ↔
    Nested before entries ∧ Nested (before ++ entries) later := by
  induction entries generalizing before with
  | nil => rw [List.nil_append, List.append_nil, Nested, true_and]
  | cons entry rest ih =>
    rw [List.cons_append, Nested, ih, Nested, and_assoc, List.append_assoc]
    rfl

theorem fitsIn_concat (fresh : ∀ node, (path ++ [name], node) ∉ before)
    (above : ∀ higher, higher <+: path → (higher, .directory) ∈ before)
    (names : ∀ name ∈ path, IsName name ∧ ¬ HasNul name)
    (isName : IsName name ∧ ¬ HasNul name) : FitsIn before (path ++ [name]) where
  fresh := fresh
  above higher isAbove other := by
    rcases List.prefix_concat_iff.mp isAbove with same | inside
    · exact absurd same other
    · exact above higher inside
  names := List.forall_mem_append.mpr ⟨names, List.forall_mem_singleton.mpr isName⟩

theorem cons_inj_of_append {front rest rest' : Location} {name name' : String}
    (same : front ++ name :: rest = front ++ name' :: rest') : name = name' ∧ rest = rest' :=
  List.cons.inj (List.append_cancel_left same)

theorem exists_of_mem_listing {path : List String} {listing : Listing} {entry : Entry}
    (member : entry ∈ entriesMade (listingSteps path listing)) :
    ∃ name ∈ listing.names, ∃ rest, entry.1 = payloadPath path ++ name :: rest := by
  induction listing generalizing path with
  | nil => cases member
  | file name content rest ih =>
    rcases List.mem_cons.mp member with rfl | later
    · exact ⟨name.val, List.mem_cons_self, [], rfl⟩
    · obtain ⟨other, listed, inside⟩ := ih later
      exact ⟨other, List.mem_cons_of_mem _ listed, inside⟩
  | directory name entries rest ihEntries ihRest =>
    rcases List.mem_cons.mp member with rfl | later
    · exact ⟨name.val, List.mem_cons_self, [], rfl⟩
    · change entry ∈ entriesMade (listingSteps _ entries ++ listingSteps path rest) at later
      rw [entriesMade, List.flatMap_append, List.mem_append] at later
      rcases later with inEntries | inRest
      · obtain ⟨other, -, more, same⟩ := ihEntries inEntries
        refine ⟨name.val, List.mem_cons_self, other :: more, ?_⟩
        rw [same, payloadPath, payloadPath, List.cons_append, List.append_assoc]
        rfl
      · obtain ⟨other, listed, inside⟩ := ihRest inRest
        exact ⟨other, List.mem_cons_of_mem _ listed, inside⟩

theorem nested_listingSteps {path : List String} {listing : Listing}
    (distinct : listing.Distinct)
    (names : ∀ name ∈ payloadPath path, IsName name ∧ ¬ HasNul name)
    (above : ∀ higher, higher <+: payloadPath path → (higher, .directory) ∈ before)
    (fresh : ∀ name ∈ listing.names, ∀ rest node,
      (payloadPath path ++ name :: rest, node) ∉ before) :
    Nested before (entriesMade (listingSteps path listing)) := by
  induction listing generalizing path before with
  | nil => trivial
  | file name content rest ih =>
    obtain ⟨other, distinct⟩ := distinct
    refine ⟨fitsIn_concat (fresh name.val List.mem_cons_self []) above names name.2, ?_⟩
    refine ih distinct names (fun higher inside => List.mem_append_left _ (above higher inside)) ?_
    intro later listed more node member
    rcases List.mem_append.mp member with inBefore | same
    · exact fresh later (List.mem_cons_of_mem _ listed) more node inBefore
    · have paths := congrArg Prod.fst (List.mem_singleton.mp same)
      exact other ((cons_inj_of_append paths).1 ▸ listed)
  | directory name entries rest ihEntries ihRest =>
    obtain ⟨other, distinctEntries, distinctRest⟩ := distinct
    have inside : payloadPath (path ++ [name.val]) = payloadPath path ++ [name.val] := rfl
    have split : entriesMade (listingSteps path (.directory name entries rest)) =
        (payloadPath (path ++ [name.val]), .directory) ::
          (entriesMade (listingSteps (path ++ [name.val]) entries) ++
            entriesMade (listingSteps path rest)) := by
      rw [entriesMade, entriesMade, entriesMade, ← List.flatMap_append]
      rfl
    have properNames : ∀ part ∈ payloadPath (path ++ [name.val]), IsName part ∧ ¬ HasNul part :=
      inside ▸ List.forall_mem_append.mpr ⟨names, List.forall_mem_singleton.mpr name.2⟩
    rw [split]
    refine ⟨fitsIn_concat (fresh name.val List.mem_cons_self []) above names name.2,
      nested_append.mpr
        ⟨ihEntries distinctEntries properNames ?_ ?_, ihRest distinctRest names ?_ ?_⟩⟩
    · -- the directory itself is above its entries
      intro higher isAbove
      rcases List.prefix_concat_iff.mp (inside ▸ isAbove) with rfl | before
      · exact List.mem_append_right _ List.mem_cons_self
      · exact List.mem_append_left _ (above higher before)
    · intro later _ more node member
      rw [inside, List.append_assoc, List.singleton_append] at member
      rcases List.mem_append.mp member with inBefore | same
      · exact fresh name.val List.mem_cons_self _ node inBefore
      · have paths := congrArg Prod.fst (List.mem_singleton.mp same)
        cases (cons_inj_of_append paths).2
    · exact fun higher isAbove =>
        List.mem_append_left _ (List.mem_append_left _ (above higher isAbove))
    · intro later listed more node member
      rcases List.mem_append.mp member with inBefore | inEntries
      · rcases List.mem_append.mp inBefore with inBefore | same
        · exact fresh later (List.mem_cons_of_mem _ listed) more node inBefore
        · have paths := congrArg Prod.fst (List.mem_singleton.mp same)
          exact other ((cons_inj_of_append paths).1 ▸ listed)
      · obtain ⟨_, -, more', paths⟩ := exists_of_mem_listing inEntries
        rw [inside, List.append_assoc, List.singleton_append] at paths
        exact other ((cons_inj_of_append paths).1 ▸ listed)

theorem entriesMade_packageSteps (package : CheckedPackage) (listing : Listing) :
    entriesMade (packageSteps package listing) =
      ([], .directory) :: (["plugin.json"], .file package.manifestBytes) ::
        (["payload"], .directory) :: (entriesMade (listingSteps [] listing) ++
          entriesMade (signatureSteps package.signature)) := by
  rw [entriesMade, entriesMade, entriesMade, ← List.flatMap_append]
  rfl

theorem noFile_packageSteps (package : CheckedPackage) (listing : Listing) (content : List UInt8) :
    ([], .file content) ∉ entriesMade (packageSteps package listing) := by
  intro member
  rw [entriesMade_packageSteps] at member
  rcases List.mem_cons.mp member with first | member
  · cases first
  rcases List.mem_cons.mp member with second | member
  · cases second
  rcases List.mem_cons.mp member with third | member
  · cases third
  rcases List.mem_append.mp member with inPayload | signature
  · obtain ⟨_, -, _, same⟩ := exists_of_mem_listing inPayload
    cases same
  · cases isSigned : package.signature with
    | none =>
      rw [isSigned] at signature
      cases signature
    | some bytes =>
      rw [isSigned] at signature
      cases List.mem_singleton.mp signature

theorem nested_packageSteps (package : CheckedPackage) {listing : Listing}
    (distinct : listing.Distinct) : Nested [] (entriesMade (packageSteps package listing)) := by
  have top : ∀ {before : List Entry} {name : String}, ([], .directory) ∈ before →
      (∀ node, ([name], node) ∉ before) → IsName name ∧ ¬ HasNul name → FitsIn before [name] := by
    intro before name there fresh isName
    refine @fitsIn_concat before [] name fresh (fun higher isAbove => ?_) (List.forall_mem_nil _)
      isName
    rw [List.prefix_nil.mp isAbove]
    exact there
  rw [entriesMade_packageSteps]
  refine ⟨⟨fun _ => List.not_mem_nil, fun higher isAbove other => ?_, List.forall_mem_nil _⟩,
    top List.mem_cons_self (fun node => ?_) (by decide),
    top List.mem_cons_self (fun node => ?_) (by decide), nested_append.mpr ⟨?_, ?_⟩⟩
  · exact absurd (List.prefix_nil.mp isAbove) other
  · simp
  · simp
  · refine nested_listingSteps distinct (by decide) (fun higher isAbove => ?_) ?_
    · rcases List.prefix_concat_iff.mp (show higher <+: [] ++ ["payload"] from isAbove) with
        rfl | none
      · simp
      · rw [List.prefix_nil.mp none]
        simp
    · intro name _ rest node member
      simp [payloadPath] at member
  · cases package.signature with
    | none => trivial
    | some bytes =>
      refine ⟨top (by simp) (fun node member => ?_) (by decide), trivial⟩
      rcases List.mem_append.mp member with first | inPayload
      · simp at first
      · obtain ⟨_, -, _, same⟩ := exists_of_mem_listing inPayload
        exact absurd (List.cons.inj same).1 (by decide)

end Nested

/-! ### What the steps do -/

section Runs

variable {disk : Disk} {dir : Route} {tree : Tree} {before : List Entry} {path : Location}

/-- The directory of a version, with directories above it. -/
structure Site (dir : Route) (tree : Tree) : Prop where
  proper : dir.nul = false
  way : ∃ front, dir.way = front ++ [dir.place] ∧
    ∀ place ∈ front, tree place = some .directory ∧ ¬ dir.place <+: place

theorem Site.of_sameOutside {after : Tree} (site : Site dir tree)
    (same : SameOutside dir.place tree after) : Site dir after := by
  obtain ⟨front, way, there⟩ := site.way
  refine ⟨site.proper, front, way, fun place member => ⟨?_, (there place member).2⟩⟩
  rw [same place (there place member).2]
  exact (there place member).1

theorem below_of_names (names : ∀ name ∈ path, IsName name ∧ ¬ HasNul name) :
    (below dir path).place = dir.place ++ path ∧ (below dir path).nul = dir.nul := by
  induction path using List.reverseRecOn with
  | nil => exact ⟨(List.append_nil _).symm, rfl⟩
  | append_singleton path name ih =>
    rw [List.forall_mem_append, List.forall_mem_singleton] at names
    obtain ⟨place, nul⟩ := ih names.1
    rw [below_concat, place_join_of_isName names.2.1, nul_join_of_isName names.2.1 names.2.2,
      place, nul, List.append_assoc]
    exact ⟨rfl, rfl⟩

theorem isDir_of_mem_way (site : Site dir tree) (stands : tree.Stands dir.place before)
    (above : ∀ higher, higher <+: path → (higher, .directory) ∈ before)
    (names : ∀ name ∈ path, IsName name ∧ ¬ HasNul name) :
    ∀ place ∈ (below dir path).way, tree place = some .directory := by
  induction path using List.reverseRecOn with
  | nil =>
    obtain ⟨front, way, there⟩ := site.way
    have last := (stands [] .directory).mpr (above [] List.nil_prefix)
    rw [List.append_nil] at last
    change ∀ place ∈ dir.way, _
    rw [way, List.forall_mem_append, List.forall_mem_singleton]
    exact ⟨fun place member => (there place member).1, last⟩
  | append_singleton path name ih =>
    rw [List.forall_mem_append, List.forall_mem_singleton] at names
    have higher : ∀ higher, higher <+: path → (higher, .directory) ∈ before :=
      fun other isAbove => above other (isAbove.trans (List.prefix_append path [name]))
    have last := (stands (path ++ [name]) .directory).mpr (above _ (List.prefix_refl _))
    rw [below_concat, way_join_of_isName names.2.1, List.forall_mem_append,
      List.forall_mem_singleton, (below_of_names names.1).1, List.append_assoc]
    exact ⟨ih higher names.1, last⟩

/-- Where a step puts something, only the last of the way is missing. -/
theorem way_of_fitsIn (site : Site dir tree) (stands : tree.Stands dir.place before)
    (fits : FitsIn before path) :
    ∃ front, (below dir path).way = front ++ [(below dir path).place] ∧
      ∀ place ∈ front, tree place = some .directory := by
  obtain ⟨-, above, names⟩ := fits
  cases path using List.reverseRecOn with
  | nil =>
    obtain ⟨front, way, there⟩ := site.way
    exact ⟨front, way, fun place member => (there place member).1⟩
  | append_singleton path name =>
    have isName := (List.forall_mem_append.mp names).2 name List.mem_cons_self
    have higher : ∀ higher, higher <+: path → (higher, .directory) ∈ before := by
      intro other isAbove
      refine above other (isAbove.trans (List.prefix_append path [name])) fun same => ?_
      have longer := isAbove.length_le
      rw [same, List.length_append, List.length_singleton] at longer
      exact Nat.not_succ_le_self _ longer
    refine ⟨(below dir path).way, ?_, isDir_of_mem_way site stands higher
      (List.forall_mem_append.mp names).1⟩
    rw [below_concat, way_join_of_isName isName.1, place_join_of_isName isName.1]

theorem run_of_fits (step : CopyStep) (site : Site dir tree)
    (stands : tree.Stands dir.place before) (nested : Nested before step.entries)
    (noFile : ∀ content, ([], .file content) ∉ step.entries) :
    ∃ t log, SameOutside dir.place tree t ∧
      match disk step.step with
      | none => step.run disk dir tree = ⟨.ok (), t, log⟩ ∧
          t.Stands dir.place (before ++ step.entries)
      | some fault => ∃ e, step.run disk dir tree = ⟨.error e, t, log⟩ ∧
          t.Stands dir.place (before ++ step.part fault) := by
  cases step with
  | read id =>
    refine ⟨tree, [], fun _ _ => rfl, ?_⟩
    simp only [CopyStep.step, CopyStep.run, CopyStep.entries, CopyStep.part, List.append_nil]
    cases disk id with
    | none => exact ⟨rfl, stands⟩
    | some fault => exact ⟨fault.error, rfl, stands⟩
  | make id path =>
    have fits : FitsIn before path := nested.1
    obtain ⟨place, nul⟩ := @below_of_names dir path fits.names
    obtain ⟨front, way, there⟩ := way_of_fitsIn site stands fits
    have nothing : tree (below dir path).place = none := place ▸ stands.eq_none fits.fresh
    have inside : dir.place <+: (below dir path).place := place ▸ List.prefix_append _ _
    have put : (tree.put (below dir path).place .directory).Stands dir.place
        (before ++ [(path, .directory)]) := place ▸ stands.put fits.fresh .directory
    simp only [CopyStep.step, CopyStep.run, CopyStep.entries, CopyStep.part]
    cases disk id with
    | none =>
      exact ⟨_, _, sameOutside_put inside,
        createDirAll_of_last (nul.trans site.proper) way there nothing, put⟩
    | some fault =>
      obtain ⟨log, ran⟩ :=
        createDirAll_of_last_fault (nul.trans site.proper) fault way there nothing
      refine ⟨_, log, ?_, fault.error, ran, ?_⟩
      · split_ifs
        · exact fun _ _ => rfl
        · exact sameOutside_put inside
      · split_ifs
        · rw [List.append_nil]
          exact stands
        · exact put
  | copy id path content =>
    have fits : FitsIn before path := nested.1
    obtain ⟨place, nul⟩ := @below_of_names dir path fits.names
    have nothing : tree (below dir path).place = none := place ▸ stands.eq_none fits.fresh
    have inside : dir.place <+: (below dir path).place := place ▸ List.prefix_append _ _
    have nonempty : path ≠ [] := fun empty =>
      noFile content (empty ▸ List.mem_cons_self)
    -- the file goes into a directory that an earlier step has made
    have parent : tree (below dir path).place.dropLast = some .directory := by
      rw [place, List.dropLast_append_of_ne_nil nonempty]
      refine (stands _ _).mpr (fits.above _ (List.dropLast_prefix path) fun same => ?_)
      have shorter := congrArg List.length same
      rw [List.length_dropLast] at shorter
      have positive := List.length_pos_of_ne_nil nonempty
      omega
    have put : ∀ bytes, (tree.put (below dir path).place (.file bytes)).Stands dir.place
        (before ++ [(path, .file bytes)]) := fun bytes => place ▸ stands.put fits.fresh _
    have ran := fun fault =>
      copyFile_eq_write (nul.trans site.proper) nothing parent fault content
    simp only [CopyStep.step, CopyStep.run, CopyStep.entries, CopyStep.part, ran]
    cases disk id with
    | none => exact ⟨_, _, sameOutside_put inside, rfl, put content⟩
    | some fault =>
      obtain ⟨error, made, lost, left⟩ := fault
      cases left with
      | none => exact ⟨tree, [], fun _ _ => rfl, error, rfl, (List.append_nil before).symm ▸ stands⟩
      | some bytes => exact ⟨_, _, sameOutside_put inside, error, rfl, put bytes⟩

theorem runSteps_of_nested {steps : List CopyStep} (site : Site dir tree)
    (stands : tree.Stands dir.place before) (nested : Nested before (entriesMade steps))
    (noFile : ∀ content, ([], .file content) ∉ entriesMade steps) :
    ∃ t log, SameOutside dir.place tree t ∧
      match leftOf disk steps with
      | none => runSteps disk dir steps tree = ⟨.ok (), t, log⟩ ∧
          t.Stands dir.place (before ++ entriesMade steps)
      | some left => ∃ e, runSteps disk dir steps tree = ⟨.error e, t, log⟩ ∧
          t.Stands dir.place (before ++ left) := by
  induction steps generalizing tree before with
  | nil => exact ⟨tree, [], fun _ _ => rfl, rfl, (List.append_nil before).symm ▸ stands⟩
  | cons step rest ih =>
    have split : entriesMade (step :: rest) = step.entries ++ entriesMade rest := rfl
    rw [split, nested_append] at nested
    have noFileFirst : ∀ content, ([], .file content) ∉ step.entries := fun content member =>
      noFile content (split ▸ List.mem_append_left _ member)
    have noFileLater : ∀ content, ([], .file content) ∉ entriesMade rest := fun content member =>
      noFile content (split ▸ List.mem_append_right _ member)
    obtain ⟨t, log, outside, ran⟩ :=
      @run_of_fits disk dir tree before step site stands nested.1 noFileFirst
    rw [leftOf, runSteps, split]
    cases fails : disk step.step with
    | some fault =>
      rw [fails] at ran
      obtain ⟨e, ran, left⟩ := ran
      refine ⟨t, log, outside, e, ?_, left⟩
      rw [bind_apply_of_error (congrArg Outcome.result ran), ran]
    | none =>
      rw [fails] at ran
      obtain ⟨ran, there⟩ := ran
      obtain ⟨t', log', outside', later⟩ :=
        ih (site.of_sameOutside outside) there nested.2 noFileLater
      refine ⟨t', log ++ log', outside.trans outside', ?_⟩
      rw [List.append_assoc] at later
      cases left : leftOf disk rest with
      | none =>
        rw [left] at later
        refine ⟨?_, later.2⟩
        rw [bind_apply_ok ran, later.1]
      | some left' =>
        rw [left] at later
        obtain ⟨e, ran', there'⟩ := later
        refine ⟨e, ?_, (List.append_assoc _ _ _).symm ▸ there'⟩
        rw [bind_apply_ok ran, ran']

end Runs

end KelvinClaw.Cli
