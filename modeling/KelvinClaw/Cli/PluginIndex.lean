import KelvinClaw.Cli.PluginInstall

/-!
# Plugins from the index

An index lists the packages that can be downloaded, with an id, a version and a checksum each.
An installation by id selects the entry of the greatest version, or of the version that is asked
for. An update does so for all installed plugins whose version differs.
-/

namespace KelvinClaw.Cli

open KelvinClaw.Core KelvinClaw.Plugin Systems Systems.Action Systems.FileAction

variable {κ ς : Type}

/-! ### Versions -/

def upTo (separator : Char) (chars : List Char) : List Char := chars.takeWhile (· ≠ separator)

/-- The numbers of a version, without a pre-release and a build. What is no number is zero. -/
def versionParts (version : String) : List ℕ :=
  ((upTo '-' (upTo '+' version.toList)).splitOn '.').map fun part => (parseUsize part).getD 0

/-- `compare_semver`. -/
def compareSemver (a b : String) : Ordering := compare (versionParts a) (versionParts b)

/-- `max_by`: of several greatest items, the last one. -/
def maxBy {α : Type} (cmp : α → α → Ordering) : List α → Option α
  | [] => none
  | item :: rest =>
    some (rest.foldl (fun best item => if cmp best item = .gt then best else item) item)

def entryVersion (entry : Value) : String := (stringAt "version" entry).getD "0.0.0"

def latestEntry (entries : List Value) : Option Value :=
  maxBy (fun a b => compareSemver (entryVersion a) (entryVersion b)) entries

/-! ### Selection -/

/-- `fetch_index` of a body that is JSON. -/
def checkIndex (index : Value) : CliResult Value := do
  bailIf (stringAt "schema_version" index ≠ some "v1") "invalid index: expected schema_version=v1"
  .ok index

def indexPlugins (index : Value) : CliResult (List Value) :=
  orBail "index missing 'plugins' array" ((index.get "plugins").bind Value.asArray)

def entriesOf (id : String) (plugins : List Value) : List Value :=
  plugins.filter fun entry => stringAt "id" entry = some id

def selectPluginEntry (index : Value) (id : String) (version : Option String) :
    CliResult Value := do
  let plugins ← indexPlugins index
  let candidates := (entriesOf id plugins).filter fun entry =>
    version.all fun asked => stringAt "version" entry = some asked
  orBail
    (match version with
      | some asked => s!"plugin not found in index: id={id} version={asked}"
      | none => s!"plugin not found in index: id={id}")
    (latestEntry candidates)

/-- What an entry of the index offers. -/
structure IndexedPackage where
  version : String
  packageUrl : String
  sha256 : String
  deriving DecidableEq, Repr

def indexedPackage (entry : Value) : CliResult IndexedPackage := do
  let packageUrl ← orBail "index entry missing 'package_url'" (stringAt "package_url" entry)
  let sha256 ← orBail "index entry missing 'sha256'" (stringAt "sha256" entry)
  let version ← orBail "index entry missing 'version'" (stringAt "version" entry)
  .ok { version, packageUrl, sha256 }

/-! ### Installation and update -/

/-- The servers of the index and of the packages. A package is extracted when it has the checksum
that is asked for. -/
structure Remote where
  index : CliResult Value
  download : (packageUrl expectedSha : String) → CliResult Package

def selectPackage (remote : Remote) (id : String) (version : Option String) :
    CliResult IndexedPackage := do
  let index ← remote.index >>= checkIndex
  let entry ← selectPluginEntry index id version
  indexedPackage entry

/-- `install_from_index`, up to the trust policy. -/
def installFromIndex (env : InstallEnvironment κ ς) (remote : Remote) (disk : Disk)
    (force strict : Bool) (home : Location) (id : String) (version : Option String) :
    FileAction InstallOutcome := do
  let selected ← ofExcept (selectPackage remote id version)
  let tree ← get
  if (versionDir home id selected.version).exists tree ∧ ¬ force then return .alreadyInstalled
  else
    let package ← ofExcept (remote.download selected.packageUrl selected.sha256)
    installFromExtractedDir env disk force strict home package

/-- What `cmd_update` does with one installed plugin: the package of the greatest version, if the
plugin has another one. -/
def planUpdate (plugins : List Value) (only : Option String) (dryRun : Bool)
    (id currentVersion : String) : Option IndexedPackage := do
  guard (only.all (· = id))
  let entry ← latestEntry (entriesOf id plugins)
  let version ← stringAt "version" entry
  guard (version ≠ currentVersion ∧ ¬ dryRun)
  let packageUrl ← stringAt "package_url" entry
  let sha256 ← stringAt "sha256" entry
  return { version, packageUrl, sha256 }

/-- The loop of `cmd_update` over the installed plugins. -/
def updateAll (env : InstallEnvironment κ ς) (remote : Remote) (disk : Disk) (strict : Bool)
    (home : Location) (plan : String → String → Option IndexedPackage) :
    List (String × String) → FileAction (List (String × InstallOutcome))
  | [] => return []
  | (id, currentVersion) :: rest =>
    match plan id currentVersion with
    | none => updateAll env remote disk strict home plan rest
    | some latest => do
      let package ← ofExcept (remote.download latest.packageUrl latest.sha256)
      let outcome ← installFromExtractedDir env disk true strict home package
      let outcomes ← updateAll env remote disk strict home plan rest
      return (id, outcome) :: outcomes

/-- `cmd_update`, with the installed plugins and their versions. -/
def update (env : InstallEnvironment κ ς) (remote : Remote) (disk : Disk) (strict : Bool)
    (home : Location) (installed : CliResult (List (String × String))) (only : Option String)
    (dryRun : Bool) : FileAction (List (String × InstallOutcome)) := do
  let index ← ofExcept (remote.index >>= checkIndex)
  let plugins ← ofExcept (indexPlugins index)
  let installed ← ofExcept installed
  updateAll env remote disk strict home (planUpdate plugins only dryRun) installed

end KelvinClaw.Cli
