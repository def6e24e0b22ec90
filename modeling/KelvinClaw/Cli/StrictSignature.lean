import KelvinClaw.Core.Tool
import KelvinClaw.Library.ReadLists
import KelvinClaw.Plugin.TrustPolicy

/-!
# Strict installation and the loader

`kelvin plugin install --strict` checks the signature of a package with its own reading of the
trust policy file: the first entry of the publisher in the raw JSON. The loader reads the whole
file into a policy, in which the last entry of a publisher counts, and checks the pins and the
revocations too.
-/

namespace KelvinClaw.Cli

open KelvinClaw.Core KelvinClaw.Plugin Systems

variable {κ ς : Type}

/-! ### The installer -/

abbrev CliResult (α : Type) := Except String α

/-- `with_context`: the text in front of an error. -/
def withContext {α : Type} (text : String) : Except String α → CliResult α
  | .ok a => .ok a
  | .error _ => .error text

@[simp] theorem withContext_eq_ok {α : Type} {text : String} {result : Except String α} {a : α} :
    withContext text result = .ok a ↔ result = .ok a := by
  cases result <;> simp [withContext]

/-- `bail!` under a condition. -/
def bailIf (condition : Prop) [Decidable condition] (text : String) : CliResult Unit :=
  if condition then .error text else .ok ()

@[simp] theorem bailIf_eq_ok {condition : Prop} [Decidable condition] {text : String} {u : Unit} :
    bailIf condition text = .ok u ↔ ¬ condition := by
  unfold bailIf
  split <;> simp_all

/-- `ok_or_else`. -/
def orBail {α : Type} (text : String) : Option α → CliResult α
  | some a => .ok a
  | none => .error text

@[simp] theorem orBail_eq_ok {α : Type} {text : String} {value : Option α} {a : α} :
    orBail text value = .ok a ↔ value = some a := by
  cases value <;> simp [orBail]

/-- The trust policy file. -/
inductive TrustFile where
  | missing
  | unreadable (error : String)
  | present (bytes : List UInt8)
  deriving DecidableEq, Repr

def stringAt (key : String) (value : Value) : Option String := (value.get key).bind Value.asStr

def publisherKey (publisher : String) (publishers : List Value) : Option String :=
  (publishers.find? fun p => stringAt "id" p = some publisher).bind
    (stringAt "ed25519_public_key")

section Installer

variable (library : SignatureLibrary κ ς) (parseJson : List UInt8 → Except String Value)

def readStrictSignature (signatureFile : SignatureFile) (pluginId : String) : CliResult ς :=
  match signatureFile with
  | .missing => .error s!"strict install rejected: plugin '{pluginId}' is missing plugin.sig"
  | .unreadable _ => .error s!"failed to read plugin.sig for {pluginId}"
  | .present text => do
    bailIf (trim text = "") s!"strict install rejected: plugin '{pluginId}' has empty plugin.sig"
    let signatureBytes ← withContext s!"invalid plugin.sig base64 for {pluginId}"
      (library.decodeBase64 (trim text))
    withContext s!"invalid ed25519 signature for {pluginId}"
      (library.signatureFromSlice signatureBytes)

def readTrustPolicy (trustPath : String) : TrustFile → CliResult Value
  | .missing =>
    .error (s!"strict install rejected: no trust policy found at {trustPath}. " ++
      "Run 'kelvin init' or add the publisher's key manually.")
  | .unreadable _ => .error s!"failed to read trust policy {trustPath}"
  | .present bytes => withContext s!"failed to parse trust policy {trustPath}" (parseJson bytes)

def strictKey (trustPolicy : Value) (publisher : String) : CliResult κ := do
  let publishers ← orBail "trust policy missing 'publishers' array"
    ((trustPolicy.get "publishers").bind Value.asArray)
  let keyBase64 ← orBail
    (s!"strict install rejected: publisher '{publisher}' is not in the trust policy. " ++
      s!"Add the key with 'kelvin plugin trust add {publisher} --key <path>'.")
    (publisherKey publisher publishers)
  let bytes ← withContext s!"invalid base64 public key for publisher {publisher}"
    (library.decodeBase64 keyBase64)
  bailIf (bytes.length ≠ 32)
    s!"invalid ed25519 public key length for publisher {publisher} (expected 32 bytes)"
  withContext s!"invalid ed25519 public key for publisher {publisher}"
    (library.keyFromBytes bytes)

def verifyStrictSignature (trustPath : String) (trust : TrustFile) (signatureFile : SignatureFile)
    (manifestBytes : List UInt8) (pluginId pluginVersion : String) : CliResult Unit := do
  let signature ← readStrictSignature library signatureFile pluginId
  let trustPolicy ← readTrustPolicy parseJson trustPath trust
  let manifest ← withContext "failed to re-parse plugin.json for signature verification"
    (parseJson manifestBytes)
  let publisher ← orBail
    s!"strict install rejected: plugin '{pluginId}' missing 'publisher' field in manifest"
    (stringAt "publisher" manifest)
  let key ← strictKey library trustPolicy publisher
  withContext
    (s!"strict install rejected: signature verification failed for {pluginId}@{pluginVersion} " ++
      s!"from publisher '{publisher}'")
    (library.verify key manifestBytes signature)

end Installer

/-! ### The loader -/

/-- An entry of the publishers, as an object or as the array of its fields. -/
def entryOfValue : Value → Option TrustedPublisherEntry
  | .arr [.str id, .str key] => some ⟨id, key⟩
  | value =>
    match stringAt "id" value, stringAt "ed25519_public_key" value with
    | some id, some key => some ⟨id, key⟩
    | _, _ => none

/-- JSON texts read as values, and read into the structures of the loader. Where both readings
succeed, they agree on the publishers of the file and on the publisher of a manifest. -/
structure TypedReading where
  json : List UInt8 → Except String Value
  policyFile : List UInt8 → Except String PublisherTrustPolicyFile
  manifest : List UInt8 → Except String InstalledPluginPackageManifest
  publishers_agree : ∀ bytes value file items, json bytes = .ok value →
    policyFile bytes = .ok file → (value.get "publishers").bind Value.asArray = some items →
      items.mapM entryOfValue = some file.publishers
  publisher_agrees : ∀ bytes value parsed publisher, json bytes = .ok value →
    manifest bytes = .ok parsed → stringAt "publisher" value = some publisher →
      parsed.publisher = some publisher

/-- `PublisherTrustPolicy::from_json_file`. -/
def fromJsonFile (library : SignatureLibrary κ ς) (reading : TypedReading) :
    TrustFile → KelvinResult (PublisherTrustPolicy κ)
  | .missing => .error (.io "No such file or directory (os error 2)")
  | .unreadable err => .error (.io err)
  | .present bytes => do
    let file ← mapInvalid "invalid publisher trust policy JSON: " (reading.policyFile bytes)
    PublisherTrustPolicy.ofFile library file

section Agreement

variable (library : SignatureLibrary κ ς) (reading : TypedReading) (trust : TrustFile)
  (signatureFile : SignatureFile) (manifestBytes : List UInt8)

/-- What the installer accepts under a policy that requires signatures, the loader accepts. -/
def StrictAgrees : Prop :=
  ∀ trustPath pluginId pluginVersion,
    verifyStrictSignature library reading.json trustPath trust signatureFile manifestBytes pluginId
        pluginVersion = .ok () →
      ∃ policy manifest, fromJsonFile library reading trust = .ok policy ∧
        reading.manifest manifestBytes = .ok manifest ∧
        policy.verifyManifestSignature library manifest manifestBytes signatureFile = .ok ()

def OneKey (publisher : String) : Prop :=
  ∀ bytes file, trust = .present bytes → reading.policyFile bytes = .ok file →
    ∀ entry ∈ file.publishers, ∀ other ∈ file.publishers,
      entry.id = publisher → other.id = publisher →
        parsePublicKey library entry.ed25519PublicKey =
          parsePublicKey library other.ed25519PublicKey

end Agreement

/-! ### The key of the loader -/

section Keys

variable {library : SignatureLibrary κ ς} {policy : PublisherTrustPolicy κ} {publisher : String}
  {key : κ}

theorem trusted_revokeEntry (revoked : String) :
    (policy.revokeEntry revoked).trustedPublishers = policy.trustedPublishers := by
  unfold PublisherTrustPolicy.revokeEntry
  split
  · rfl
  · rfl

theorem trusted_pinEntry (pin : String × String) :
    (policy.pinEntry pin).trustedPublishers = policy.trustedPublishers := by
  unfold PublisherTrustPolicy.pinEntry
  by_cases blank : trim pin.1 = "" ∨ trim pin.2 = ""
  · rw [if_pos blank]
  · rw [if_neg blank, PublisherTrustPolicy.trustedPublishers_withPinnedPluginPublisher]

theorem trusted_foldl {β : Type} {step : PublisherTrustPolicy κ → β → PublisherTrustPolicy κ}
    (keeps : ∀ policy entry, (step policy entry).trustedPublishers = policy.trustedPublishers)
    (entries : List β) :
    (entries.foldl step policy).trustedPublishers = policy.trustedPublishers := by
  induction entries generalizing policy with
  | nil => rfl
  | cons entry rest ih => exact ih.trans (keeps policy entry)

theorem trusted_withPublisherKey {next : PublisherTrustPolicy κ} {entry : TrustedPublisherEntry}
    (parsed : policy.withPublisherKey library entry.id entry.ed25519PublicKey = .ok next) :
    ∃ key, parsePublicKey library entry.ed25519PublicKey = .ok key ∧
      next.trustedPublishers = Function.update policy.trustedPublishers entry.id (some key) := by
  unfold PublisherTrustPolicy.withPublisherKey at parsed
  cases parses : parsePublicKey library entry.ed25519PublicKey with
  | error err =>
    rw [parses] at parsed
    cases parsed
  | ok key =>
    rw [parses] at parsed
    cases parsed
    exact ⟨key, rfl, rfl⟩

theorem trusted_of_foldlM {entries : List TrustedPublisherEntry} {read : PublisherTrustPolicy κ}
    (reads : entries.foldlM
      (fun policy entry => policy.withPublisherKey library entry.id entry.ed25519PublicKey) policy =
        .ok read)
    (keys : ∀ entry ∈ entries, entry.id = publisher →
      parsePublicKey library entry.ed25519PublicKey = .ok key)
    (named : policy.trustedPublishers publisher = some key ∨
      ∃ entry ∈ entries, entry.id = publisher) :
    read.trustedPublishers publisher = some key := by
  induction entries generalizing policy with
  | nil =>
    cases reads
    rcases named with trusted | ⟨entry, member, _⟩
    · exact trusted
    · cases member
  | cons entry rest ih =>
    rw [List.foldlM_cons] at reads
    obtain ⟨next, parsed, reads⟩ := bind_eq_ok.mp reads
    obtain ⟨found, parses, trusted⟩ := trusted_withPublisherKey parsed
    refine ih reads (fun other member => keys other (List.mem_cons_of_mem _ member)) ?_
    by_cases here : entry.id = publisher
    · have same := Except.ok.inj (parses.symm.trans (keys entry List.mem_cons_self here))
      exact .inl (by rw [trusted, here, Function.update_self, same])
    · rcases named with before | ⟨other, member, names⟩
      · exact .inl (by rw [trusted, Function.update_of_ne (Ne.symm here), before])
      · rcases List.mem_cons.mp member with rfl | later
        · exact absurd names here
        · exact .inr ⟨other, later, names⟩

theorem trusted_of_ofFile {file : PublisherTrustPolicyFile} {entry : TrustedPublisherEntry}
    (read : PublisherTrustPolicy.ofFile library file = .ok policy)
    (member : entry ∈ file.publishers) (names : entry.id = publisher)
    (keys : ∀ entry ∈ file.publishers, entry.id = publisher →
      parsePublicKey library entry.ed25519PublicKey = .ok key) :
    policy.trustedPublishers publisher = some key := by
  obtain ⟨keyed, reads, rest⟩ := bind_eq_ok.mp read
  obtain rfl := pure_eq_ok.mp rest
  rw [trusted_foldl fun _ => trusted_pinEntry, trusted_foldl fun _ => trusted_revokeEntry]
  exact trusted_of_foldlM reads keys (.inr ⟨entry, member, names⟩)

end Keys

/-! ### What the installer accepts -/

section Installed

variable {library : SignatureLibrary κ ς} {parseJson : List UInt8 → Except String Value}
  {publisher keyBase64 : String} {publishers : List Value}

theorem mem_of_publisherKey (found : publisherKey publisher publishers = some keyBase64) :
    ∃ p ∈ publishers, stringAt "id" p = some publisher ∧
      stringAt "ed25519_public_key" p = some keyBase64 := by
  obtain ⟨p, first, key⟩ := Option.bind_eq_some_iff.mp found
  have names := List.find?_some first
  exact ⟨p, List.mem_of_find?_eq_some first, of_decide_eq_true names, key⟩

theorem entryOfValue_of_strings {p : Value} (id : stringAt "id" p = some publisher)
    (key : stringAt "ed25519_public_key" p = some keyBase64) :
    entryOfValue p = some ⟨publisher, keyBase64⟩ := by
  cases p with
  | obj members => simp only [entryOfValue, id, key]
  | null | bool _ | num _ | str _ | arr _ => cases id

theorem strictKey_eq_ok {trustPolicy : Value} {key : κ}
    (found : strictKey library trustPolicy publisher = .ok key) :
    ∃ publishers keyBase64 bytes,
      (trustPolicy.get "publishers").bind Value.asArray = some publishers ∧
      publisherKey publisher publishers = some keyBase64 ∧
      library.decodeBase64 keyBase64 = .ok bytes ∧ bytes.length = 32 ∧
      library.keyFromBytes bytes = .ok key := by
  obtain ⟨publishers, listed, found⟩ := bind_eq_ok.mp found
  obtain ⟨keyBase64, entry, found⟩ := bind_eq_ok.mp found
  obtain ⟨bytes, decoded, found⟩ := bind_eq_ok.mp found
  obtain ⟨_, length, found⟩ := bind_eq_ok.mp found
  exact ⟨publishers, keyBase64, bytes, orBail_eq_ok.mp listed, orBail_eq_ok.mp entry,
    withContext_eq_ok.mp decoded, not_not.mp (bailIf_eq_ok.mp length), withContext_eq_ok.mp found⟩

theorem readStrictSignature_eq_ok {signatureFile : SignatureFile} {pluginId : String}
    {signature : ς} (read : readStrictSignature library signatureFile pluginId = .ok signature) :
    ∃ text signatureBytes, signatureFile = .present text ∧ trim text ≠ "" ∧
      library.decodeBase64 (trim text) = .ok signatureBytes ∧
      library.signatureFromSlice signatureBytes = .ok signature := by
  cases signatureFile with
  | missing => cases read
  | unreadable err => cases read
  | present text =>
    obtain ⟨_, blank, read⟩ := bind_eq_ok.mp read
    obtain ⟨signatureBytes, decoded, read⟩ := bind_eq_ok.mp read
    exact ⟨text, signatureBytes, rfl, bailIf_eq_ok.mp blank, withContext_eq_ok.mp decoded,
      withContext_eq_ok.mp read⟩

theorem readTrustPolicy_eq_ok {trustPath : String} {trust : TrustFile} {trustPolicy : Value}
    (read : readTrustPolicy parseJson trustPath trust = .ok trustPolicy) :
    ∃ bytes, trust = .present bytes ∧ parseJson bytes = .ok trustPolicy := by
  cases trust with
  | missing => cases read
  | unreadable err => cases read
  | present bytes => exact ⟨bytes, rfl, withContext_eq_ok.mp read⟩

end Installed

/-- With a signature file, the loader accepts what its pins and revocations allow and what the
trusted key of the publisher has signed. -/
theorem verifyManifestSignature_present {library : SignatureLibrary κ ς}
    {policy : PublisherTrustPolicy κ} {manifest : InstalledPluginPackageManifest}
    {manifestBytes : List UInt8} {text : String} :
    policy.verifyManifestSignature library manifest manifestBytes (.present text) = .ok () ↔
      PublisherTrustPolicy.PinHolds policy manifest ∧
        PublisherTrustPolicy.NotRevoked policy manifest ∧
        PublisherTrustPolicy.Signed library policy manifest manifestBytes (.present text) := by
  simp only [PublisherTrustPolicy.verifyManifestSignature, bind_unit_eq_ok,
    PublisherTrustPolicy.checkPinned_eq_ok, PublisherTrustPolicy.checkRevoked_eq_ok, reduceCtorEq,
    and_false, if_false, PublisherTrustPolicy.checkSigned_eq_ok]

/-- **Strict installation and the loader.** Let the installer accept a package, and the loader read
the policy file and the manifest. If all entries of the publisher in the file have one key, this
is the key that both verify with, and the loader accepts the package exactly if its pins and
revocations allow it. The base64 library accepts no white space around a text. -/
theorem verify_of_strict (library : SignatureLibrary κ ς) (reading : TypedReading)
    (trust : TrustFile) (signatureFile : SignatureFile) (manifestBytes : List UInt8)
    (trustPath pluginId pluginVersion : String) (policy : PublisherTrustPolicy κ)
    (manifest : InstalledPluginPackageManifest)
    (rejectsBlanks : ∀ text bytes, library.decodeBase64 text = .ok bytes → trim text = text)
    (accepts : verifyStrictSignature library reading.json trustPath trust signatureFile
      manifestBytes pluginId pluginVersion = .ok ())
    (reads : fromJsonFile library reading trust = .ok policy)
    (parses : reading.manifest manifestBytes = .ok manifest) :
    ∃ publisher trustPolicy key, manifest.publisher = some publisher ∧
      readTrustPolicy reading.json trustPath trust = .ok trustPolicy ∧
      strictKey library trustPolicy publisher = .ok key ∧
      (OneKey library reading trust publisher →
        policy.trustedPublishers publisher = some key ∧
        (policy.verifyManifestSignature library manifest manifestBytes signatureFile = .ok () ↔
          PublisherTrustPolicy.PinHolds policy manifest ∧
            PublisherTrustPolicy.NotRevoked policy manifest)) := by
  obtain ⟨signature, signed, accepts⟩ := bind_eq_ok.mp accepts
  obtain ⟨trustPolicy, trusts, accepts⟩ := bind_eq_ok.mp accepts
  obtain ⟨value, reparsed, accepts⟩ := bind_eq_ok.mp accepts
  obtain ⟨publisher, names, accepts⟩ := bind_eq_ok.mp accepts
  obtain ⟨key, keyed, verified⟩ := bind_eq_ok.mp accepts
  have publisherNamed := reading.publisher_agrees manifestBytes value manifest publisher
    (withContext_eq_ok.mp reparsed) parses (orBail_eq_ok.mp names)
  refine ⟨publisher, trustPolicy, key, publisherNamed, trusts, keyed, fun oneKey => ?_⟩
  obtain ⟨bytes, rfl, json⟩ := readTrustPolicy_eq_ok trusts
  obtain ⟨items, keyBase64, keyBytes, listed, entry, decoded, length, built⟩ :=
    strictKey_eq_ok keyed
  obtain ⟨file, typed, ofFile⟩ := bind_eq_ok.mp reads
  have typed := mapInvalid_eq_ok.mp typed
  -- the entry that the installer takes is among those that the loader reads
  obtain ⟨p, isItem, hasId, hasKey⟩ := mem_of_publisherKey entry
  have isEntry :=
    mem_mapM_of_mem (reading.publishers_agree bytes trustPolicy file items json typed listed) isItem
      (entryOfValue_of_strings hasId hasKey)
  have parsedKey : parsePublicKey library keyBase64 = .ok key := by
    refine bind_eq_ok.mpr ⟨keyBytes, ?_, bind_unit_eq_ok.mpr ⟨?_, mapInvalid_eq_ok.mpr built⟩⟩
    · rw [rejectsBlanks keyBase64 keyBytes decoded]
      exact mapInvalid_eq_ok.mpr decoded
    · exact refuseIf_eq_ok.mpr (not_not.mpr length)
  have trusted : policy.trustedPublishers publisher = some key :=
    trusted_of_ofFile ofFile isEntry rfl fun other member same =>
      (oneKey bytes file rfl typed other member _ isEntry same rfl).trans parsedKey
  refine ⟨trusted, ?_⟩
  obtain ⟨text, signatureBytes, rfl, present, decodedSignature, sliced⟩ :=
    readStrictSignature_eq_ok signed
  rw [verifyManifestSignature_present]
  have isSigned : PublisherTrustPolicy.Signed library policy manifest manifestBytes
      (.present text) :=
    ⟨publisher, key, text, signatureBytes, signature, publisherNamed, trusted, rfl, present,
      decodedSignature, sliced, withContext_eq_ok.mp verified⟩
  exact ⟨fun accepted => ⟨accepted.1, accepted.2.1⟩,
    fun allowed => ⟨allowed.1, allowed.2, isSigned⟩⟩

/-! ### Packages that only the installer accepts -/

def optionalField {α : Type} (key : String) (read : Value → Option α) (default : α)
    (value : Value) : Option α :=
  match value.get key with
  | none => some default
  | some found => read found

def optionalBool : Value → Option (Option Bool)
  | .null => some none
  | .bool b => some (some b)
  | _ => none

def optionalString : Value → Option (Option String)
  | .null => some none
  | .str s => some (some s)
  | _ => none

def policyFileOfValue (value : Value) : Option PublisherTrustPolicyFile := do
  let _ ← value.asObject
  let requireSignature ← optionalField "require_signature" optionalBool none value
  let publishers ← optionalField "publishers"
    (fun found => found.asArray.bind fun items => items.mapM entryOfValue) [] value
  let revokedPublishers ← optionalField "revoked_publishers"
    (fun found => found.asArray.bind fun items => items.mapM Value.asStr) [] value
  let pinnedPluginPublishers ← optionalField "pinned_plugin_publishers"
    (fun found => found.asObject.bind fun members =>
      members.mapM fun member => member.2.asStr.map (member.1, ·)) [] value
  some ⟨requireSignature, publishers, revokedPublishers, pinnedPluginPublishers⟩

def manifestOfValue (value : Value) : Option InstalledPluginPackageManifest := do
  let id ← stringAt "id" value
  let publisher ← optionalField "publisher" optionalString none value
  let qualityTier ← optionalField "quality_tier" optionalString none value
  some ⟨id, publisher, qualityTier⟩

/-- A typed reading that fails with the message of the library. -/
def orMismatch {α : Type} : Option α → Except String α
  | some a => .ok a
  | none => .error "invalid type"

theorem orMismatch_eq_ok {α : Type} {value : Option α} {a : α}
    (read : orMismatch value = .ok a) : value = some a := by
  cases value with
  | none => cases read
  | some b => exact congrArg some (Except.ok.inj read)

theorem publishers_of_policyFile {value : Value} {file : PublisherTrustPolicyFile}
    {items : List Value} (read : policyFileOfValue value = some file)
    (listed : (value.get "publishers").bind Value.asArray = some items) :
    items.mapM entryOfValue = some file.publishers := by
  obtain ⟨_, _, read⟩ := Option.bind_eq_some_iff.mp read
  obtain ⟨_, _, read⟩ := Option.bind_eq_some_iff.mp read
  obtain ⟨publishers, readPublishers, read⟩ := Option.bind_eq_some_iff.mp read
  obtain ⟨_, _, read⟩ := Option.bind_eq_some_iff.mp read
  obtain ⟨_, _, read⟩ := Option.bind_eq_some_iff.mp read
  cases read
  obtain ⟨found, here, array⟩ := Option.bind_eq_some_iff.mp listed
  simp only [optionalField, here, array, Option.bind_some] at readPublishers
  exact readPublishers

theorem publisher_of_manifest {value : Value} {manifest : InstalledPluginPackageManifest}
    {publisher : String} (read : manifestOfValue value = some manifest)
    (names : stringAt "publisher" value = some publisher) :
    manifest.publisher = some publisher := by
  obtain ⟨_, _, read⟩ := Option.bind_eq_some_iff.mp read
  obtain ⟨named, readPublisher, read⟩ := Option.bind_eq_some_iff.mp read
  obtain ⟨_, _, read⟩ := Option.bind_eq_some_iff.mp read
  cases read
  obtain ⟨found, here, text⟩ := Option.bind_eq_some_iff.mp names
  simp only [optionalField, here] at readPublisher
  cases found with
  | str s =>
    obtain rfl := Option.some_inj.mp readPublisher
    exact text
  | null | bool _ | num _ | arr _ | obj _ => cases text

def readingOf (json : List UInt8 → Except String Value) : TypedReading where
  json
  policyFile bytes := json bytes >>= fun value => orMismatch (policyFileOfValue value)
  manifest bytes := json bytes >>= fun value => orMismatch (manifestOfValue value)
  publishers_agree bytes value file items parsed typed listed := by
    rw [parsed] at typed
    exact publishers_of_policyFile (orMismatch_eq_ok typed) listed
  publisher_agrees bytes value manifest publisher parsed typed names := by
    rw [parsed] at typed
    exact publisher_of_manifest (orMismatch_eq_ok typed) names

/-- Texts without white space around them stand for their bytes, and a signature is the key
followed by what is signed. -/
def tightLibrary : SignatureLibrary (List UInt8) (List UInt8) :=
  { PublisherTrustPolicy.plainLibrary with
    decodeBase64 := fun text =>
      if trim text = text then .ok text.toUTF8.toList else .error "Invalid byte" }

theorem tightLibrary_rejectsBlanks (text : String) (bytes : List UInt8)
    (decoded : tightLibrary.decodeBase64 text = .ok bytes) : trim text = text := by
  simp only [tightLibrary] at decoded
  split_ifs at decoded with tight
  exact tight

def keyText (c : Char) : String := String.ofList (List.replicate 32 c)

/-- An entry of `acme`, with its key. -/
def acmeEntry (key : String) : Value :=
  .obj [("ed25519_public_key", .str key), ("id", .str "acme")]

def trustValue (pins : List (String × Value)) (publishers revoked : List Value) : Value :=
  .obj [("pinned_plugin_publishers", .obj pins), ("publishers", .arr publishers),
    ("require_signature", .bool true), ("revoked_publishers", .arr revoked)]

/-- The file `t` is the policy, and any other one the manifest of a package of `acme`. -/
def readingWith (policy : Value) : TypedReading :=
  readingOf fun bytes => .ok
    (if bytes = [116] then policy
    else .obj [("id", .str "acme.echo"), ("publisher", .str "acme")])

def trustFile : TrustFile := .present [116]

/-- The signature of the manifest `m` with the key `k…k`. -/
def echoSignature : SignatureFile := .present (String.ofList (List.replicate 32 'k' ++ ['m']))

def loaderVerdict (reading : TypedReading) : KelvinResult Unit := do
  let policy ← fromJsonFile tightLibrary reading trustFile
  let manifest ← mapInvalid "invalid plugin manifest: " (reading.manifest [109])
  policy.verifyManifestSignature tightLibrary manifest [109] echoSignature

theorem loaderVerdict_of_agrees {reading : TypedReading}
    (agrees : StrictAgrees tightLibrary reading trustFile echoSignature [109])
    (accepts : verifyStrictSignature tightLibrary reading.json "trusted_publishers.json" trustFile
      echoSignature [109] "acme.echo" "1.0.0" = .ok ()) :
    loaderVerdict reading = .ok () := by
  obtain ⟨policy, manifest, reads, parses, verifies⟩ := agrees _ _ _ accepts
  exact bind_eq_ok.mpr ⟨policy, reads,
    bind_eq_ok.mpr ⟨manifest, mapInvalid_eq_ok.mpr parses, verifies⟩⟩

/-- The installer does not see that the publisher is revoked, that the plugin is pinned to another
one, that a later entry replaces the key, or that another entry of the file is malformed. -/
theorem strict_misses_policy :
    ¬ StrictAgrees tightLibrary (readingWith (trustValue [] [acmeEntry (keyText 'k')]
        [.str "acme"])) trustFile echoSignature [109] ∧
      ¬ StrictAgrees tightLibrary (readingWith (trustValue [("acme.echo", .str "other")]
        [acmeEntry (keyText 'k')] [])) trustFile echoSignature [109] ∧
      ¬ StrictAgrees tightLibrary (readingWith (trustValue []
        [acmeEntry (keyText 'k'), acmeEntry (keyText 'j')] [])) trustFile echoSignature [109] ∧
      ¬ StrictAgrees tightLibrary (readingWith (trustValue []
        [acmeEntry (keyText 'k'), .obj [("id", .str "other")]] [])) trustFile echoSignature
        [109] := by
  refine ⟨fun agrees => ?_, fun agrees => ?_, fun agrees => ?_, fun agrees => ?_⟩
  all_goals
    have verdict := loaderVerdict_of_agrees agrees (by decide +kernel)
    revert verdict
    decide +kernel

/-- A file with two entries of `acme`, to which the plugin is pinned. -/
def pinnedReading : TypedReading :=
  readingWith (trustValue [("acme.echo", .str "acme")]
    [acmeEntry (keyText 'k'), acmeEntry (keyText 'k')] [])

def pinnedFile : PublisherTrustPolicyFile :=
  ⟨some true, [⟨"acme", keyText 'k'⟩, ⟨"acme", keyText 'k'⟩], [], [("acme.echo", "acme")]⟩

theorem policyFile_pinnedReading : pinnedReading.policyFile [116] = .ok pinnedFile := by
  decide +kernel

theorem oneKey_pinnedReading : OneKey tightLibrary pinnedReading trustFile "acme" := by
  rintro bytes file present reads entry isEntry other isOther - -
  obtain rfl := TrustFile.present.inj present
  obtain rfl := Except.ok.inj (policyFile_pinnedReading.symm.trans reads)
  simp only [pinnedFile, List.mem_cons, List.not_mem_nil, or_false, or_self] at isEntry isOther
  rw [isEntry, isOther]

/-- When the entries of `acme` have one key, and the plugin is pinned to it, both accept. -/
theorem strict_and_loader_accept : ∃ policy manifest key,
    fromJsonFile tightLibrary pinnedReading trustFile = .ok policy ∧
      pinnedReading.manifest [109] = .ok manifest ∧
      policy.trustedPublishers "acme" = some key ∧
      verifyStrictSignature tightLibrary pinnedReading.json "trusted_publishers.json" trustFile
        echoSignature [109] "acme.echo" "1.0.0" = .ok () ∧
      policy.verifyManifestSignature tightLibrary manifest [109] echoSignature = .ok () := by
  have strict : verifyStrictSignature tightLibrary pinnedReading.json "trusted_publishers.json"
      trustFile echoSignature [109] "acme.echo" "1.0.0" = .ok () := by decide +kernel
  have loads : (fromJsonFile tightLibrary pinnedReading trustFile).map (fun policy =>
      (policy.pinnedPluginPublishers "acme.echo", policy.revokedPublishers)) =
        .ok (some "acme", ∅) := by
    decide +kernel
  have parses : pinnedReading.manifest [109] = .ok ⟨"acme.echo", some "acme", none⟩ := by
    decide +kernel
  cases reads : fromJsonFile tightLibrary pinnedReading trustFile with
  | error err =>
    rw [reads] at loads
    cases loads
  | ok policy =>
    rw [reads] at loads
    obtain ⟨pinned, revoked⟩ := Prod.mk.inj (Except.ok.inj loads)
    obtain ⟨publisher, _, key, named, _, _, agrees⟩ := verify_of_strict tightLibrary pinnedReading
      trustFile echoSignature [109] "trusted_publishers.json" "acme.echo" "1.0.0" policy _
      tightLibrary_rejectsBlanks strict reads parses
    obtain rfl := Option.some_inj.mp named
    obtain ⟨trusted, accepts⟩ := agrees oneKey_pinnedReading
    refine ⟨policy, _, key, rfl, parses, trusted, strict, accepts.mpr ⟨?_, ?_⟩⟩
    · intro other found
      exact pinned.symm.trans found
    · intro other _
      rw [revoked]
      exact Finset.notMem_empty _

end KelvinClaw.Cli
