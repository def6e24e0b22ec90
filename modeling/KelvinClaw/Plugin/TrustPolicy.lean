import Mathlib.Data.Finset.Insert
import KelvinClaw.Core.Text

/-!
# The publisher trust policy

Before the loader takes in an installed plugin it checks the manifest against the trust
policy: the publisher that the plugin id is pinned to, the revoked publishers, and the
signature of the manifest under the key of a trusted publisher. A package of the tier
`unsigned_local` needs no signature, unless it names a trusted publisher.

The base64 and ed25519 libraries are a parameter.
-/

namespace KelvinClaw.Plugin

open KelvinClaw.Core

variable {κ ς : Type}

/-! ### Signatures -/

/-- The base64 and ed25519 libraries, with verifying keys `κ` and signatures `ς`. -/
structure SignatureLibrary (κ ς : Type) where
  decodeBase64 : String → Except String (List UInt8)
  keyFromBytes : List UInt8 → Except String κ
  signatureFromSlice : List UInt8 → Except String ς
  verify : κ → List UInt8 → ς → Except String Unit

/-- `map_err` with a prefix. -/
def mapInvalid {α : Type} (label : String) : Except String α → KelvinResult α
  | .ok a => .ok a
  | .error err => .error (.invalidInput (label ++ err))

@[simp] theorem mapInvalid_eq_ok {α : Type} {label : String} {result : Except String α} {a : α} :
    mapInvalid label result = .ok a ↔ result = .ok a := by
  cases result <;> simp [mapInvalid]

def parsePublicKey (library : SignatureLibrary κ ς) (keyBase64 : String) : KelvinResult κ := do
  let bytes ← mapInvalid "invalid base64 public key: " (library.decodeBase64 (trim keyBase64))
  refuseIf (bytes.length ≠ 32) (.invalidInput "ed25519 public key must be 32 bytes")
  mapInvalid "invalid ed25519 public key: " (library.keyFromBytes bytes)

/-- `plugin.sig` in the version directory. -/
inductive SignatureFile where
  | missing
  | unreadable (error : String)
  | present (text : String)
  deriving DecidableEq, Repr

/-! ### The policy -/

structure PublisherTrustPolicy (κ : Type) where
  requireSignature : Bool
  trustedPublishers : String → Option κ
  revokedPublishers : Finset String
  pinnedPluginPublishers : String → Option String

namespace PublisherTrustPolicy

/-- `PublisherTrustPolicy::default`. -/
def default : PublisherTrustPolicy κ := ⟨true, fun _ => none, ∅, fun _ => none⟩

def withSignatureRequirement (policy : PublisherTrustPolicy κ) (required : Bool) :
    PublisherTrustPolicy κ :=
  { policy with requireSignature := required }

def insertTrusted (policy : PublisherTrustPolicy κ) (publisherId : String) (key : κ) :
    PublisherTrustPolicy κ :=
  { policy with
    trustedPublishers := Function.update policy.trustedPublishers publisherId (some key) }

def withPublisherKey (library : SignatureLibrary κ ς) (policy : PublisherTrustPolicy κ)
    (publisherId keyBase64 : String) : KelvinResult (PublisherTrustPolicy κ) :=
  (parsePublicKey library keyBase64).map (policy.insertTrusted publisherId)

def withRevokedPublisher (policy : PublisherTrustPolicy κ) (publisherId : String) :
    PublisherTrustPolicy κ :=
  { policy with revokedPublishers := insert publisherId policy.revokedPublishers }

def withPinnedPluginPublisher (policy : PublisherTrustPolicy κ) (pluginId publisherId : String) :
    PublisherTrustPolicy κ :=
  { policy with
    pinnedPluginPublishers :=
      Function.update policy.pinnedPluginPublishers pluginId (some publisherId) }

section Pinning

variable (policy : PublisherTrustPolicy κ) (pluginId publisherId : String)

@[simp] theorem requireSignature_withPinnedPluginPublisher :
    (policy.withPinnedPluginPublisher pluginId publisherId).requireSignature =
      policy.requireSignature := rfl

@[simp] theorem trustedPublishers_withPinnedPluginPublisher :
    (policy.withPinnedPluginPublisher pluginId publisherId).trustedPublishers =
      policy.trustedPublishers := rfl

@[simp] theorem revokedPublishers_withPinnedPluginPublisher :
    (policy.withPinnedPluginPublisher pluginId publisherId).revokedPublishers =
      policy.revokedPublishers := rfl

end Pinning

end PublisherTrustPolicy

structure TrustedPublisherEntry where
  id : String
  ed25519PublicKey : String
  deriving DecidableEq, Repr

/-- The policy file as parsed. The pins are in the iteration order of their map. -/
structure PublisherTrustPolicyFile where
  requireSignature : Option Bool
  publishers : List TrustedPublisherEntry
  revokedPublishers : List String
  pinnedPluginPublishers : List (String × String)
  deriving DecidableEq, Repr

namespace PublisherTrustPolicy

variable (library : SignatureLibrary κ ς)

def revokeEntry (policy : PublisherTrustPolicy κ) (publisherId : String) :
    PublisherTrustPolicy κ :=
  if trim publisherId = "" then policy else policy.withRevokedPublisher (trim publisherId)

/-- A pin of the file, with both ids trimmed; one with a blank id is left out. -/
def pinEntry (policy : PublisherTrustPolicy κ) (pin : String × String) : PublisherTrustPolicy κ :=
  if trim pin.1 = "" ∨ trim pin.2 = "" then policy
  else policy.withPinnedPluginPublisher (trim pin.1) (trim pin.2)

/-- `from_json_file` of a file that parses. The ids of trusted publishers are not trimmed. -/
def ofFile (file : PublisherTrustPolicyFile) : KelvinResult (PublisherTrustPolicy κ) := do
  let policy : PublisherTrustPolicy κ :=
    default.withSignatureRequirement (file.requireSignature.getD true)
  let policy ← file.publishers.foldlM
    (fun policy publisher =>
      policy.withPublisherKey library publisher.id publisher.ed25519PublicKey)
    policy
  let policy := file.revokedPublishers.foldl revokeEntry policy
  return file.pinnedPluginPublishers.foldl pinEntry policy

end PublisherTrustPolicy

/-! ### The check of a package -/

/-- The part of the manifest that the check reads. -/
structure InstalledPluginPackageManifest where
  id : String
  publisher : Option String
  qualityTier : Option String
  deriving DecidableEq, Repr

def qualityTierUnsignedLocal : String := "unsigned_local"

/-- `quality_tier()`. -/
def InstalledPluginPackageManifest.tier (manifest : InstalledPluginPackageManifest) : String :=
  trim (manifest.qualityTier.getD qualityTierUnsignedLocal)

namespace PublisherTrustPolicy

variable (library : SignatureLibrary κ ς) (policy : PublisherTrustPolicy κ)
  (manifest : InstalledPluginPackageManifest) (manifestBytes : List UInt8)
  (signatureFile : SignatureFile)

def checkPinned : KelvinResult Unit :=
  match policy.pinnedPluginPublishers manifest.id with
  | none => .ok ()
  | some expectedPublisher =>
    match manifest.publisher with
    | some actual =>
      refuseIf (actual ≠ expectedPublisher) (.invalidInput
        (s!"plugin '{manifest.id}' publisher '{actual}' does not match pinned publisher " ++
          s!"'{expectedPublisher}'"))
    | none =>
      .error (.invalidInput
        s!"plugin '{manifest.id}' is missing publisher id required by pinning policy")

def checkRevoked : KelvinResult Unit :=
  match manifest.publisher with
  | none => .ok ()
  | some publisher =>
    refuseIf (publisher ∈ policy.revokedPublishers)
      (.invalidInput s!"plugin '{manifest.id}' publisher '{publisher}' is revoked")

def missingSignature : KelvinError :=
  .invalidInput s!"plugin '{manifest.id}' is missing required plugin.sig"

def checkUnsigned : KelvinResult Unit :=
  match manifest.publisher with
  | none => .ok ()
  | some publisher =>
    refuseIf (policy.trustedPublishers publisher).isSome (missingSignature manifest)

def checkSigned : KelvinResult Unit :=
  match manifest.publisher with
  | none =>
    .error (.invalidInput
      s!"plugin '{manifest.id}' is missing publisher id for signature verification")
  | some publisher =>
    match policy.trustedPublishers publisher with
    | none =>
      .error (.invalidInput s!"plugin '{manifest.id}' publisher '{publisher}' is not trusted")
    | some verifier =>
      match signatureFile with
      | .missing => .error (missingSignature manifest)
      | .unreadable err => .error (.io err)
      | .present text => do
        refuseIf (trim text = "") (.invalidInput s!"plugin '{manifest.id}' has empty plugin.sig")
        let signatureBytes ←
          mapInvalid "invalid plugin.sig base64: " (library.decodeBase64 (trim text))
        let signature ←
          mapInvalid "invalid ed25519 signature: " (library.signatureFromSlice signatureBytes)
        mapInvalid s!"plugin '{manifest.id}' signature verification failed: "
          (library.verify verifier manifestBytes signature)

/-- `verify_manifest_signature`. -/
def verifyManifestSignature : KelvinResult Unit := do
  policy.checkPinned manifest
  policy.checkRevoked manifest
  if policy.requireSignature = false ∧ signatureFile = .missing then
    return ()
  else if manifest.tier = qualityTierUnsignedLocal ∧ signatureFile = .missing then
    policy.checkUnsigned manifest
  else
    policy.checkSigned library manifest manifestBytes signatureFile

/-! ### What is accepted -/

def Signed : Prop :=
  ∃ publisher verifier text signatureBytes signature,
    manifest.publisher = some publisher ∧ policy.trustedPublishers publisher = some verifier ∧
      signatureFile = .present text ∧ trim text ≠ "" ∧
      library.decodeBase64 (trim text) = .ok signatureBytes ∧
      library.signatureFromSlice signatureBytes = .ok signature ∧
      library.verify verifier manifestBytes signature = .ok ()

def PinHolds : Prop :=
  ∀ pinned, policy.pinnedPluginPublishers manifest.id = some pinned →
    manifest.publisher = some pinned

def NotRevoked : Prop :=
  ∀ publisher, manifest.publisher = some publisher → publisher ∉ policy.revokedPublishers

def NotTrusted : Prop :=
  ∀ publisher, manifest.publisher = some publisher → policy.trustedPublishers publisher = none

def UnsignedLocal : Prop :=
  manifest.tier = qualityTierUnsignedLocal ∧ signatureFile = .missing

/-- A package that is accepted is not of a revoked publisher. It has a signature of the
trusted key of its publisher, which is the pinned one if there is a pin, or it is a local
package without a pin that names no trusted publisher. -/
def TrustGated : Prop :=
  policy.verifyManifestSignature library manifest manifestBytes signatureFile = .ok () →
    NotRevoked policy manifest ∧
      (Signed library policy manifest manifestBytes signatureFile ∧ PinHolds policy manifest ∨
        manifest.tier = qualityTierUnsignedLocal ∧
          policy.pinnedPluginPublishers manifest.id = none ∧ NotTrusted policy manifest)

def NamesPinnedPublisher : Prop :=
  UnsignedLocal manifest signatureFile ∧
    ∃ publisher, manifest.publisher = some publisher ∧
      policy.pinnedPluginPublishers manifest.id = some publisher ∧
      publisher ∉ policy.revokedPublishers ∧ policy.trustedPublishers publisher = none

variable {library policy manifest manifestBytes signatureFile}

theorem checkPinned_eq_ok : policy.checkPinned manifest = .ok () ↔ PinHolds policy manifest := by
  unfold checkPinned PinHolds
  cases policy.pinnedPluginPublishers manifest.id with
  | none => simp
  | some expected =>
    cases manifest.publisher with
    | none => simp
    | some actual => simp

theorem checkRevoked_eq_ok :
    policy.checkRevoked manifest = .ok () ↔ NotRevoked policy manifest := by
  unfold checkRevoked NotRevoked
  cases manifest.publisher with
  | none => simp
  | some publisher => simp

theorem checkUnsigned_eq_ok :
    policy.checkUnsigned manifest = .ok () ↔ NotTrusted policy manifest := by
  unfold checkUnsigned NotTrusted
  cases manifest.publisher with
  | none => simp
  | some publisher => simp

theorem checkSigned_eq_ok :
    policy.checkSigned library manifest manifestBytes signatureFile = .ok () ↔
      Signed library policy manifest manifestBytes signatureFile := by
  unfold checkSigned Signed
  cases manifest.publisher with
  | none => simp
  | some publisher =>
    cases trusted : policy.trustedPublishers publisher with
    | none => simp [trusted]
    | some verifier =>
      cases signatureFile with
      | missing => simp [trusted]
      | unreadable err => simp [trusted]
      | present text => simp [bind_eq_ok, trusted]

theorem verifyManifestSignature_eq_ok (requires : policy.requireSignature = true) :
    policy.verifyManifestSignature library manifest manifestBytes signatureFile = .ok () ↔
      PinHolds policy manifest ∧ NotRevoked policy manifest ∧
        (UnsignedLocal manifest signatureFile ∧ NotTrusted policy manifest ∨
          Signed library policy manifest manifestBytes signatureFile) := by
  have present : Signed library policy manifest manifestBytes signatureFile →
      ¬ UnsignedLocal manifest signatureFile := by
    rintro ⟨_, _, _, _, _, _, _, rfl, _⟩ ⟨_, missing⟩
    cases missing
  simp only [verifyManifestSignature, bind_unit_eq_ok, checkPinned_eq_ok, checkRevoked_eq_ok,
    requires, Bool.true_eq_false, false_and, if_false]
  refine and_congr_right fun _ => and_congr_right fun _ => ?_
  by_cases unsigned : manifest.tier = qualityTierUnsignedLocal ∧ signatureFile = .missing
  · rw [if_pos unsigned, checkUnsigned_eq_ok]
    constructor
    · exact fun untrusted => .inl ⟨unsigned, untrusted⟩
    · rintro (⟨-, untrusted⟩ | signed)
      · exact untrusted
      · exact absurd unsigned (present signed)
  · rw [if_neg unsigned, checkSigned_eq_ok]
    constructor
    · exact .inr
    · rintro (⟨local_, -⟩ | signed)
      · exact absurd local_ unsigned
      · exact signed

/-- **The trust gate.** Under a policy that requires signatures, the gate holds of every
package except the unsigned local ones that name the publisher they are pinned to. -/
theorem trustGated_iff (library : SignatureLibrary κ ς) (policy : PublisherTrustPolicy κ)
    (manifest : InstalledPluginPackageManifest) (manifestBytes : List UInt8)
    (signatureFile : SignatureFile) (requires : policy.requireSignature = true) :
    TrustGated library policy manifest manifestBytes signatureFile ↔
      ¬ NamesPinnedPublisher policy manifest signatureFile := by
  unfold TrustGated
  rw [verifyManifestSignature_eq_ok requires]
  constructor
  · rintro gated ⟨unsigned, publisher, named, pinned, kept, unknown⟩
    have pinHolds : PinHolds policy manifest := by
      intro other found
      rw [pinned] at found
      rwa [← found]
    have notRevoked : NotRevoked policy manifest := by
      intro other found
      obtain rfl := Option.some_inj.mp (named.symm.trans found)
      exact kept
    have notTrusted : NotTrusted policy manifest := by
      intro other found
      obtain rfl := Option.some_inj.mp (named.symm.trans found)
      exact unknown
    rcases (gated ⟨pinHolds, notRevoked, .inl ⟨unsigned, notTrusted⟩⟩).2 with
      ⟨⟨_, _, _, _, _, _, _, present, _⟩, _⟩ | ⟨_, unpinned, _⟩
    · rw [unsigned.2] at present
      cases present
    · rw [pinned] at unpinned
      cases unpinned
  · rintro unnamed ⟨pinHolds, notRevoked, unsigned | signed⟩
    · refine ⟨notRevoked, .inr ⟨unsigned.1.1, ?_, unsigned.2⟩⟩
      by_contra pinned
      obtain ⟨publisher, pinned⟩ := Option.ne_none_iff_exists'.mp pinned
      have named := pinHolds publisher pinned
      exact unnamed ⟨unsigned.1, publisher, named, pinned, notRevoked publisher named,
        unsigned.2 publisher named⟩
    · exact ⟨notRevoked, .inl ⟨signed, pinHolds⟩⟩

/-! ### A plugin pinned to a publisher without a key -/

/-- Keys and signatures are byte strings, and a signature verifies when it is the key
followed by what is signed. -/
def plainLibrary : SignatureLibrary (List UInt8) (List UInt8) where
  decodeBase64 text := .ok text.toUTF8.toList
  keyFromBytes := .ok
  signatureFromSlice := .ok
  verify key bytes signature := if signature = key ++ bytes then .ok () else .error "mismatch"

/-- The plugin `acme.echo` is pinned to `acme`, and no key of `acme` is known. -/
def pinnedToAcme : PublisherTrustPolicy (List UInt8) :=
  default.withPinnedPluginPublisher "acme.echo" "acme"

/-- An unsigned local package of the given id that names `acme`. -/
def localEcho (id : String) : InstalledPluginPackageManifest :=
  ⟨id, some "acme", some "unsigned_local"⟩

theorem unpinned_local_gated :
    pinnedToAcme.verifyManifestSignature plainLibrary (localEcho "acme.other") [] .missing =
        .ok () ∧
      TrustGated plainLibrary pinnedToAcme (localEcho "acme.other") [] .missing := by
  have requires : pinnedToAcme.requireSignature = true := rfl
  refine ⟨by decide +kernel, (trustGated_iff _ _ _ _ _ requires).mpr ?_⟩
  rintro ⟨_, _, _, pinned, _⟩
  simp [pinnedToAcme, localEcho, withPinnedPluginPublisher, default] at pinned

/-- The unsigned package takes the pinned id by naming the pinned publisher. -/
theorem pinned_name_accepted : pinnedToAcme.requireSignature = true ∧
    ¬ TrustGated plainLibrary pinnedToAcme (localEcho "acme.echo") [] .missing := by
  have requires : pinnedToAcme.requireSignature = true := rfl
  refine ⟨requires, ?_⟩
  rw [trustGated_iff _ _ _ _ _ requires, not_not]
  exact ⟨⟨by decide +kernel, rfl⟩, "acme", rfl, rfl, by decide, rfl⟩

end PublisherTrustPolicy

end KelvinClaw.Plugin
