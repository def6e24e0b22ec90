import KelvinClaw.Cli.TrustUnion
import Mathlib.Data.Fintype.EquivFin

/-!
# The documented operations on the trust policy

The documentation of the trust policy revokes a publisher with `"revoked": true` in its entry, and
pins a plugin by listing it in the `pinned_plugins` of the entry. The loader reads only the id and
the key of an entry. What it enforces are the fields `revoked_publishers` and
`pinned_plugin_publishers` of the file, so the documented operations are in effect only where these
fields say the same.
-/

namespace KelvinClaw.Cli

open KelvinClaw.Core KelvinClaw.Plugin PublisherTrustPolicy

variable {κ ς : Type}

/-! ### The documented operations -/

def publisherEntries : Value → Option (List Value)
  | .arr items => items[1]?.bind Value.asArray
  | value => (value.get "publishers").bind Value.asArray

def EntryOf (value : Value) (publisher : String) (entry : Value) : Prop :=
  ∃ entries, publisherEntries value = some entries ∧ entry ∈ entries ∧
    stringAt "id" entry = some publisher

def CarriesRevoked (value : Value) (publisher : String) : Prop :=
  ∃ entry, EntryOf value publisher entry ∧ entry.get "revoked" = some (.bool true)

def ListsPlugin (value : Value) (publisher pluginId : String) : Prop :=
  ∃ entry plugins, EntryOf value publisher entry ∧
    (entry.get "pinned_plugins").bind Value.asArray = some plugins ∧ .str pluginId ∈ plugins

def Accepts (library : SignatureLibrary κ ς) (policy : PublisherTrustPolicy κ)
    (pluginId publisher : String) : Prop :=
  ∃ manifest manifestBytes signatureFile, manifest.id = pluginId ∧
    manifest.publisher = some publisher ∧
      policy.verifyManifestSignature library manifest manifestBytes signatureFile = .ok ()

/-- A policy that is read from the value follows its documented operations. -/
structure TakesEffect (library : SignatureLibrary κ ς) (value : Value)
    (policy : PublisherTrustPolicy κ) : Prop where
  revoked : ∀ publisher, CarriesRevoked value publisher →
    ∀ pluginId, ¬ Accepts library policy pluginId publisher
  pinned : ∀ publisher pluginId, ListsPlugin value publisher pluginId →
    ∀ other, Accepts library policy pluginId other → other = publisher

/-! ### What the loader enforces -/

section Enforcement

variable (library : SignatureLibrary κ ς) (file : PublisherTrustPolicyFile) (publisher : String)

def keyOf : Option κ :=
  match (file.publishers.filter fun entry => entry.id = publisher).getLast? with
  | some entry => (parsePublicKey library entry.ed25519PublicKey).toOption
  | none => none

def Signs (verifier : κ) : Prop :=
  ∃ manifestBytes text signatureBytes signature, trim text ≠ "" ∧
    library.decodeBase64 (trim text) = .ok signatureBytes ∧
      library.signatureFromSlice signatureBytes = .ok signature ∧
        library.verify verifier manifestBytes signature = .ok ()

def Barred : Prop :=
  (∃ entry ∈ file.revokedPublishers, trim entry = publisher ∧ publisher ≠ "") ∨
    file.requireSignature.getD true = true ∧
      ∃ verifier, keyOf library file publisher = some verifier ∧ ¬ Signs library verifier

/-- A publisher that is revoked as documented is barred, and a plugin that is pinned as documented
is pinned in the file, to no other publisher that is not barred. -/
structure Enforced (value : Value) : Prop where
  revoked : ∀ publisher, CarriesRevoked value publisher → Barred library file publisher
  pinned : ∀ publisher pluginId, ListsPlugin value publisher pluginId →
    (∃ other, Pins file pluginId other) ∧
      ∀ other, Pins file pluginId other → other = publisher ∨ Barred library file other

end Enforcement

/-! ### The publishers of accepted packages -/

section Acceptance

variable {library : SignatureLibrary κ ς} {value : Value} {file : PublisherTrustPolicyFile}
  {policy : PublisherTrustPolicy κ} {pluginId publisher : String}

theorem accepts_iff (isPolicy : ReadOf library file policy) :
    Accepts library policy pluginId publisher ↔
      (∀ pinned, policy.pinnedPluginPublishers pluginId = some pinned → pinned = publisher) ∧
        ¬ Barred library file publisher := by
  have isKey : policy.trustedPublishers publisher = keyOf library file publisher :=
    isPolicy.trusted publisher
  constructor
  · rintro ⟨manifest, manifestBytes, signatureFile, rfl, named, accepted⟩
    obtain ⟨pinHolds, notRevoked, signatureHolds⟩ := verify_eq_ok_iff.mp accepted
    refine ⟨fun pinned found => ?_, ?_⟩
    · exact Option.some_inj.mp ((pinHolds pinned found).symm.trans named)
    · rintro (revoked | ⟨requires, verifier, key, signsNothing⟩)
      · exact notRevoked publisher named ((isPolicy.revoked publisher).mpr revoked)
      · rcases signatureHolds with ⟨lenient, -⟩ | ⟨-, untrusted⟩ | signed
        · rw [isPolicy.requires, requires] at lenient
          cases lenient
        · rw [isKey.symm.trans (untrusted publisher named)] at key
          cases key
        · obtain ⟨_, _, text, bytes, signature, same, trusted, -, verifies⟩ := signed
          obtain rfl := Option.some_inj.mp (named.symm.trans same)
          obtain rfl := Option.some_inj.mp (key.symm.trans (isKey.symm.trans trusted))
          exact signsNothing ⟨manifestBytes, text, bytes, signature, verifies⟩
  · rintro ⟨pinned, open_⟩
    have unsignedTier : trim qualityTierUnsignedLocal = qualityTierUnsignedLocal := by
      decide +kernel
    -- the package is unsigned, unless signatures are required and the publisher has a key
    let manifest : InstalledPluginPackageManifest := ⟨pluginId, some publisher, none⟩
    have pinHolds : PinHolds policy manifest := fun other found =>
      congrArg some (pinned other found).symm
    have notRevoked : NotRevoked policy manifest := by
      intro other named revoked
      obtain rfl := Option.some_inj.mp named
      exact open_ (.inl ((isPolicy.revoked publisher).mp revoked))
    have accepts {manifestBytes : List UInt8} {signatureFile : SignatureFile}
        (signature : SignatureHolds library policy manifest manifestBytes signatureFile) :
        Accepts library policy pluginId publisher :=
      ⟨manifest, manifestBytes, signatureFile, rfl, rfl,
        verify_eq_ok_iff.mpr ⟨pinHolds, notRevoked, signature⟩⟩
    cases requires : policy.requireSignature with
    | false => exact @accepts [] .missing (.inl ⟨requires, rfl⟩)
    | true =>
      cases trusted : policy.trustedPublishers publisher with
      | none =>
        refine @accepts [] .missing (.inr (.inl ⟨⟨unsignedTier, rfl⟩, ?_⟩))
        intro other named
        obtain rfl := Option.some_inj.mp named
        exact trusted
      | some verifier =>
        have signs : Signs library verifier := by
          by_contra signsNothing
          exact open_ (.inr ⟨isPolicy.requires.symm.trans requires, verifier,
            isKey.symm.trans trusted, signsNothing⟩)
        obtain ⟨manifestBytes, text, bytes, signature, verifies⟩ := signs
        exact @accepts manifestBytes (.present text) (.inr (.inr
          ⟨publisher, verifier, text, bytes, signature, rfl, trusted, rfl, verifies⟩))

theorem accepts_of_reads (readsFile : fileOfValue value = some file)
    (reads : Reads library value policy) :
    Accepts library policy pluginId publisher ↔
      (∀ pinned, policy.pinnedPluginPublishers pluginId = some pinned → pinned = publisher) ∧
        ¬ Barred library file publisher := by
  obtain ⟨pins, -, isPolicy⟩ := readOf_reads readsFile reads
  have law := @accepts_iff _ _ _ _ _ pluginId publisher isPolicy
  exact law

theorem exists_unpinned (file : PublisherTrustPolicyFile) :
    ∃ pluginId, ∀ publisher, ¬ Pins file pluginId publisher := by
  obtain ⟨pluginId, fresh⟩ := Infinite.exists_notMem_finset
    (file.pinnedPluginPublishers.map fun pin => trim pin.1).toFinset
  refine ⟨pluginId, fun publisher pins => fresh ?_⟩
  obtain ⟨pin, member, chosen, -⟩ := pins
  exact List.mem_toFinset.mpr (List.mem_map.mpr ⟨pin, member, (decide_eq_true_iff.mp chosen).1⟩)

/-- There are other publishers that a file neither revokes nor knows. -/
theorem exists_unknown (library : SignatureLibrary κ ς) (file : PublisherTrustPolicyFile)
    (publisher : String) : ∃ other, other ≠ publisher ∧ ¬ Barred library file other := by
  obtain ⟨other, fresh⟩ := Infinite.exists_notMem_finset
    (publisher :: (file.revokedPublishers.map trim ++ file.publishers.map (·.id))).toFinset
  rw [List.mem_toFinset, List.mem_cons, List.mem_append, not_or, not_or] at fresh
  obtain ⟨differs, kept, unknown⟩ := fresh
  refine ⟨other, differs, ?_⟩
  rintro (⟨entry, member, same, -⟩ | ⟨-, verifier, key, -⟩)
  · exact kept (List.mem_map.mpr ⟨entry, member, same⟩)
  · unfold keyOf at key
    cases last : (file.publishers.filter fun entry => entry.id = other).getLast? with
    | none =>
      rw [last] at key
      cases key
    | some entry =>
      obtain ⟨member, isOther⟩ := List.mem_filter.mp (List.mem_of_getLast? last)
      exact unknown (List.mem_map.mpr ⟨entry, member, decide_eq_true_iff.mp isOther⟩)

/-! ### When the documented operations take effect -/

theorem enforced_of_takesEffect (readsFile : fileOfValue value = some file)
    (accepted : ∃ policy, Reads library value policy)
    (effect : ∀ policy, Reads library value policy → TakesEffect library value policy) :
    Enforced library file value := by
  obtain ⟨policy, reads⟩ := accepted
  constructor
  · intro publisher carries
    obtain ⟨pluginId, unpinned⟩ := exists_unpinned file
    by_contra open_
    refine (effect policy reads).revoked publisher carries pluginId
      ((accepts_of_reads readsFile reads).mpr ⟨fun pinned found => ?_, open_⟩)
    exact absurd (pins_of_reads readsFile reads found) (unpinned pinned)
  · intro publisher pluginId lists
    constructor
    · by_contra unpinned
      obtain ⟨other, differs, open_⟩ := exists_unknown library file publisher
      refine differs ((effect policy reads).pinned publisher pluginId lists other
        ((accepts_of_reads readsFile reads).mpr ⟨fun pinned found => ?_, open_⟩))
      exact absurd ⟨pinned, pins_of_reads readsFile reads found⟩ unpinned
    · intro other pins
      by_contra free
      obtain ⟨differs, open_⟩ := not_or.mp free
      -- the loader may take this pin of the plugin
      obtain ⟨read, readsChoice, chosen⟩ :=
        exists_reading readsFile reads fun _ => some other
      refine differs ((effect read readsChoice).pinned publisher pluginId lists other
        ((accepts_of_reads readsFile readsChoice).mpr ⟨fun pinned found => ?_, open_⟩))
      exact Option.some_inj.mp (found.symm.trans (chosen pluginId other pins rfl))

theorem takesEffect_of_enforced (readsFile : fileOfValue value = some file)
    (enforced : Enforced library file value) (reads : Reads library value policy) :
    TakesEffect library value policy := by
  constructor
  · intro publisher carries pluginId accepts
    exact ((accepts_of_reads readsFile reads).mp accepts).2 (enforced.revoked publisher carries)
  · intro publisher pluginId lists other accepts
    obtain ⟨pinnedTo, open_⟩ := (accepts_of_reads readsFile reads).mp accepts
    obtain ⟨⟨first, pins⟩, only⟩ := enforced.pinned publisher pluginId lists
    obtain ⟨pinned, found⟩ := exists_pinned_of_pins readsFile reads pins
    obtain rfl := pinnedTo pinned found
    exact (only pinned (pins_of_reads readsFile reads found)).resolve_right open_

end Acceptance

/-- **The documented trust operations.** They take effect in whatever is read from a file exactly
if the fields that the loader reads enforce them. -/
theorem trust_operations_take_effect_iff (library : SignatureLibrary κ ς) (value : Value)
    (file : PublisherTrustPolicyFile) (readsFile : fileOfValue value = some file)
    (accepted : ∃ policy, Reads library value policy) :
    (∀ policy, Reads library value policy → TakesEffect library value policy) ↔
      Enforced library file value :=
  ⟨enforced_of_takesEffect readsFile accepted, fun enforced _ reads =>
    takesEffect_of_enforced readsFile enforced reads⟩

/-! ### A policy that is edited as documented -/

/-- The entry of `acme` is revoked and lists the plugin `acme.echo`. -/
def editedEntry : Value :=
  .obj [("ed25519_public_key", .str (keyText 'k')), ("id", .str "acme"),
    ("pinned_plugins", .arr [.str "acme.echo"]), ("revoked", .bool true)]

def editedTrust (pins : List (String × Value)) (revoked : List Value) : Value :=
  .obj [("pinned_plugin_publishers", .obj pins), ("publishers", .arr [editedEntry]),
    ("require_signature", .bool false), ("revoked_publishers", .arr revoked)]

theorem entryOf_editedTrust {pins : List (String × Value)} {revoked : List Value}
    {publisher : String} {entry : Value} :
    EntryOf (editedTrust pins revoked) publisher entry ↔
      entry = editedEntry ∧ publisher = "acme" := by
  constructor
  · rintro ⟨entries, listed, member, named⟩
    obtain rfl := Option.some_inj.mp listed
    obtain rfl := List.mem_singleton.mp member
    exact ⟨rfl, (Option.some_inj.mp named).symm⟩
  · rintro ⟨rfl, rfl⟩
    exact ⟨[editedEntry], rfl, List.mem_singleton.mpr rfl, rfl⟩

/-- With the same revocation and pin where the loader reads them, the operations take effect. -/
theorem repeated_operations_take_effect : ∃ policy,
    Reads tightLibrary (editedTrust [("acme.echo", .str "acme")] [.str "acme"]) policy ∧
      TakesEffect tightLibrary (editedTrust [("acme.echo", .str "acme")] [.str "acme"])
        policy := by
  let file : PublisherTrustPolicyFile :=
    ⟨some false, [⟨"acme", keyText 'k'⟩], ["acme"], [("acme.echo", "acme")]⟩
  obtain ⟨policy, reads, _⟩ := @exists_reads _ _ tightLibrary
    (editedTrust [("acme.echo", .str "acme")] [.str "acme"]) file
    (by decide +kernel) (by decide +kernel)
  refine ⟨policy, reads, (trust_operations_take_effect_iff tightLibrary _ file
    (by decide +kernel) ⟨policy, reads⟩).mpr ⟨?_, ?_⟩ policy reads⟩
  · rintro publisher ⟨entry, isEntry, -⟩
    obtain ⟨-, rfl⟩ := entryOf_editedTrust.mp isEntry
    exact .inl ⟨"acme", List.mem_singleton.mpr rfl, by decide +kernel, by decide⟩
  · rintro publisher pluginId ⟨entry, plugins, isEntry, listed, member⟩
    obtain ⟨rfl, rfl⟩ := entryOf_editedTrust.mp isEntry
    obtain rfl := Option.some_inj.mp listed
    obtain rfl := Value.str.inj (List.mem_singleton.mp member)
    constructor
    · exact ⟨"acme", _, List.mem_singleton.mpr rfl, by decide +kernel, by decide +kernel⟩
    · rintro other ⟨pin, pinned, -, rfl⟩
      obtain rfl := List.mem_singleton.mp pinned
      exact .inl (by decide +kernel)

/-- Otherwise a package of the revoked publisher is accepted, and a package of another publisher
with the pinned id. -/
theorem documented_operations_ignored : ∃ policy,
    Reads tightLibrary (editedTrust [] []) policy ∧
      (CarriesRevoked (editedTrust [] []) "acme" ∧
        Accepts tightLibrary policy "acme.lint" "acme") ∧
      (ListsPlugin (editedTrust [] []) "acme" "acme.echo" ∧
        Accepts tightLibrary policy "acme.echo" "mallory") ∧
      ¬ TakesEffect tightLibrary (editedTrust [] []) policy := by
  obtain ⟨policy, reads, isPolicy⟩ := @exists_reads _ _ tightLibrary (editedTrust [] [])
    ⟨some false, [⟨"acme", keyText 'k'⟩], [], []⟩ (by decide +kernel) (by decide +kernel)
  have accepts (pluginId publisher : String) : Accepts tightLibrary policy pluginId publisher := by
    refine (accepts_iff isPolicy).mpr ⟨fun pinned found => ?_, ?_⟩
    · rw [isPolicy.pinned] at found
      cases found
    · rintro (⟨entry, member, -⟩ | ⟨requires, -⟩)
      · cases member
      · cases requires
  have carries : CarriesRevoked (editedTrust [] []) "acme" :=
    ⟨editedEntry, entryOf_editedTrust.mpr ⟨rfl, rfl⟩, rfl⟩
  have lists : ListsPlugin (editedTrust [] []) "acme" "acme.echo" :=
    ⟨editedEntry, _, entryOf_editedTrust.mpr ⟨rfl, rfl⟩, rfl, List.mem_singleton.mpr rfl⟩
  refine ⟨policy, reads, ⟨carries, accepts _ _⟩, ⟨lists, accepts _ _⟩, fun effect => ?_⟩
  exact effect.revoked "acme" carries "acme.lint" (accepts _ _)

end KelvinClaw.Cli
