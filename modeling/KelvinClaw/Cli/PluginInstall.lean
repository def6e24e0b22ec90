import Mathlib.Data.List.Infix
import KelvinClaw.Cli.StrictSignature
import KelvinClaw.Library.FileTree

/-!
# Installation of plugins

A package is a directory with a manifest, a payload and perhaps a signature. It is installed under
the plugin home, in a directory for the id and the version of its manifest, and becomes the current
version by a link. An installation that finds a directory for the version skips the package, unless
it is forced.

Paths are followed by their texts, and any step on the file system may fail.
-/

namespace KelvinClaw.Cli

open KelvinClaw.Core KelvinClaw.Plugin Systems Systems.Action Systems.FileAction

variable {κ ς : Type}

/-! ### Packages -/

abbrev EntryName := {name : String // IsName name ∧ ¬ HasNul name}

/-- The entries of a directory, in the order in which they are read. What is no directory is
copied with the content that it leads to. -/
inductive Listing where
  | nil
  | file (name : EntryName) (content : List UInt8) (rest : Listing)
  | directory (name : EntryName) (entries rest : Listing)

/-- The directory of a package. -/
structure Package where
  /-- `plugin.json`, if it is there, as it is read. -/
  manifest : Option (Except String (List UInt8))
  /-- `payload`, if it is there, as it is listed. -/
  payload : Option (Except String Listing)
  /-- The digest of what is at a path below `payload`, if something is there. -/
  entrypoint : String → Option (Except String String)
  /-- `plugin.sig`, if it is there. -/
  signature : Option (List UInt8)

def Package.signatureFile (package : Package) : SignatureFile :=
  match package.signature with
  | none => .missing
  | some bytes =>
    match String.fromUTF8? ⟨bytes.toArray⟩ with
    | some text => .present text
    | none => .unreadable "stream did not contain valid UTF-8"

/-- What an installation uses of the manifest. -/
structure InstallManifest where
  pluginId : String
  pluginName : String
  pluginVersion : String
  apiVersion : String
  deriving DecidableEq, Repr

/-- A package whose checks have passed. -/
structure CheckedPackage where
  manifest : InstallManifest
  manifestBytes : List UInt8
  payload : Except String Listing
  signature : Option (List UInt8)

structure InstallEnvironment (κ ς : Type) where
  library : SignatureLibrary κ ς
  parseJson : List UInt8 → Except String Value
  trustPath : String
  trust : TrustFile

def installManifestOfValue (manifest : Value) : CliResult InstallManifest := do
  let pluginId ← orBail "plugin.json missing 'id'" (stringAt "id" manifest)
  let pluginVersion ← orBail "plugin.json missing 'version'" (stringAt "version" manifest)
  .ok
    { pluginId
      pluginName := (stringAt "name" manifest).getD pluginId
      pluginVersion
      apiVersion := (stringAt "api_version" manifest).getD "unknown" }

/-- The capabilities and the entrypoint, which may not leave the payload. -/
def checkEntrypoint (package : Package) (manifest : Value) : CliResult Unit := do
  let entrypointRel ← orBail "plugin.json missing 'entrypoint'" (stringAt "entrypoint" manifest)
  let capabilities ← orBail "plugin.json missing 'capabilities'"
    ((manifest.get "capabilities").bind Value.asArray)
  bailIf (capabilities = [])
    "invalid plugin.json: capabilities must contain at least one entry"
  bailIf (IsAbsolute entrypointRel ∨ ['.', '.'] <:+: entrypointRel.toList)
    "invalid plugin.json: entrypoint must be a safe relative path"
  let digest ← orBail
    s!"invalid package: entrypoint file not found: payload/{entrypointRel}"
    (package.entrypoint entrypointRel)
  match (stringAt "entrypoint_sha256" manifest).filter (· ≠ "") with
  | none => .ok ()
  | some expectedSha => do
    let actualSha ← digest
    bailIf (actualSha ≠ expectedSha)
      s!"checksum mismatch for entrypoint. expected={expectedSha} actual={actualSha}"

/-- The checks of `install_from_extracted_dir`, before it touches the plugin home. -/
def readPackage (env : InstallEnvironment κ ς) (strict : Bool) (package : Package) :
    CliResult CheckedPackage := do
  let manifestFile ← orBail "invalid package: missing plugin.json" package.manifest
  let payload ← orBail "invalid package: missing payload/ directory" package.payload
  let manifestBytes ← withContext "failed to read plugin.json" manifestFile
  let value ← withContext "failed to parse plugin.json" (env.parseJson manifestBytes)
  let manifest ← installManifestOfValue value
  checkEntrypoint package value
  if strict then
    verifyStrictSignature env.library env.parseJson env.trustPath env.trust package.signatureFile
      manifestBytes manifest.pluginId manifest.pluginVersion
  .ok ⟨manifest, manifestBytes, payload, package.signature⟩

/-! ### The steps on the file system -/

/-- The steps of an installation. Those of the payload are for a path below it. -/
inductive InstallStep where
  | createPluginDir
  | removeVersionDir
  | createVersionDir
  | copyManifest
  | createPayloadDir (path : List String)
  | readPayloadDir (path : List String)
  | copyPayloadFile (path : List String)
  | copySignature
  | removeCurrent
  | linkCurrent
  deriving DecidableEq, Repr

abbrev Disk := InstallStep → Option Fault

abbrev healthy : Disk := fun _ => none

def enterDir (disk : Disk) (path : List String) (dest : Route) : FileAction Unit := do
  createDirAll (disk (.createPayloadDir path)) dest
  raise (disk (.readPayloadDir path))

/-- The loop of `copy_dir_all`. -/
def copyEntries (disk : Disk) (path : List String) (dest : Route) : Listing → FileAction Unit
  | .nil => return ()
  | .file name content rest => do
    copyFile (disk (.copyPayloadFile (path ++ [name.val]))) content (dest.join name.val)
    copyEntries disk path dest rest
  | .directory name entries rest => do
    enterDir disk (path ++ [name.val]) (dest.join name.val)
    copyEntries disk (path ++ [name.val]) (dest.join name.val) entries
    copyEntries disk path dest rest

def copyDirAll (disk : Disk) (payload : Except String Listing) (dest : Route) :
    FileAction Unit := do
  enterDir disk [] dest
  let entries ← ofExcept payload
  copyEntries disk [] dest entries

def copySignature (disk : Disk) (signature : Option (List UInt8)) (dest : Route) :
    FileAction Unit :=
  match signature with
  | some bytes => copyFile (disk .copySignature) bytes dest
  | none => return ()

def removeCurrent (disk : Disk) (currentLink : Route) : FileAction Unit := do
  let tree ← get
  if currentLink.exists tree ∨ currentLink.isSymlink tree then
    if currentLink.isDir tree ∧ ¬ currentLink.isSymlink tree then
      removeDirAll (disk .removeCurrent) currentLink
    else removeFile (disk .removeCurrent) currentLink

def updateCurrentLink (disk : Disk) (currentLink : Route) (version : String) :
    FileAction Unit := do
  removeCurrent disk currentLink
  inContext s!"failed to create symlink {currentLink.text}"
    (symlink (disk .linkCurrent) version currentLink)

/-! ### The installation -/

def pluginDir (home : Location) (pluginId : String) : Route := (Route.direct home).join pluginId

def versionDir (home : Location) (pluginId version : String) : Route :=
  (pluginDir home pluginId).join version

def currentLink (home : Location) (pluginId : String) : Route :=
  (pluginDir home pluginId).join "current"

inductive InstallOutcome where
  | alreadyInstalled
  | installed (manifest : InstallManifest)
  deriving DecidableEq, Repr

def removePrevious (disk : Disk) (installDir : Route) : FileAction Unit := do
  let tree ← get
  if installDir.exists tree then removeDirAll (disk .removeVersionDir) installDir

/-- The directory of the version, without what was there before. -/
def makeVersionDir (disk : Disk) (home : Location) (manifest : InstallManifest) :
    FileAction Unit := do
  let installDir := versionDir home manifest.pluginId manifest.pluginVersion
  createDirAll (disk .createPluginDir) (pluginDir home manifest.pluginId)
  removePrevious disk installDir
  createDirAll (disk .createVersionDir) installDir

/-- Everything of the package, to the directory of its version. -/
def copyPackage (disk : Disk) (package : CheckedPackage) (installDir : Route) :
    FileAction Unit := do
  copyFile (disk .copyManifest) package.manifestBytes (installDir.join "plugin.json")
  copyDirAll disk package.payload (installDir.join "payload")
  copySignature disk package.signature (installDir.join "plugin.sig")

/-- `install_from_extracted_dir` after its checks. -/
def placePackage (disk : Disk) (force : Bool) (home : Location) (package : CheckedPackage) :
    FileAction InstallOutcome := do
  let manifest := package.manifest
  let installDir := versionDir home manifest.pluginId manifest.pluginVersion
  let tree ← get
  if installDir.exists tree ∧ ¬ force then return .alreadyInstalled
  else
    makeVersionDir disk home manifest
    copyPackage disk package installDir
    updateCurrentLink disk (currentLink home manifest.pluginId) manifest.pluginVersion
    return .installed manifest

def installFromExtractedDir (env : InstallEnvironment κ ς) (disk : Disk) (force strict : Bool)
    (home : Location) (package : Package) : FileAction InstallOutcome := do
  let package ← ofExcept (readPackage env strict package)
  placePackage disk force home package

/-! ### The removal -/

/-- How a removal is confirmed: by a flag, or at a prompt, which fails or is answered. -/
inductive Confirmation where
  | flag
  | notInteractive
  | prompt (answer : Except String Bool)
  deriving Repr

def confirm : Confirmation → CliResult Bool
  | .flag => .ok true
  | .notInteractive => .error "pass --yes to confirm uninstall in non-interactive mode"
  | .prompt answer => withContext "prompt failed" answer

/-- `cmd_uninstall`. Says whether the plugin is removed. -/
def uninstall (fault : Option Fault) (confirmation : Confirmation) (home : Location)
    (id : String) : FileAction Bool := do
  let dir := pluginDir home id
  let tree ← get
  if ¬ dir.exists tree then fail s!"plugin not installed: {id}"
  else
    let confirmed ← ofExcept (confirm confirmation)
    if confirmed then inContext s!"failed to remove {dir.text}" (removeDirAll fault dir)
    return confirmed

end KelvinClaw.Cli
