import KelvinClaw.Cli.StrictSignature

/-!
# The merge of trust policies

An installation from an index downloads the trust policy of the package and merges it into the
local file. The file requires signatures when both policies do. A publisher or a pin of the
downloaded policy replaces the one of the local policy, and the revoked publishers are united.

The loader keeps the pins in a map whose order is not fixed, so a file with two spellings of a
plugin id can be read in several ways.
-/

namespace KelvinClaw.Cli

open KelvinClaw.Core KelvinClaw.Plugin Systems

variable {κ ς : Type}

/-! ### The merge -/

/-- `require_signature` of a policy, which is required when it is missing. -/
def strictOf (policy : Value) : Bool :=
  ((policy.get "require_signature").bind Value.asBool).getD true

def publisherId (publisher : Value) : String := (stringAt "id" publisher).getD ""

def upsertPublisher (publisher : Value) : List Value → List Value
  | [] => [publisher]
  | entry :: rest =>
    if stringAt "id" entry = some (publisherId publisher) then publisher :: rest
    else entry :: upsertPublisher publisher rest

def addRevoked (revoked : List Value) (item : Value) : List Value :=
  if item ∈ revoked then revoked else revoked ++ [item]

/-- The members of a value that is indexed for writing. An index into another value panics, and
nothing is written. -/
def indexMut : Value → CliResult (List (String × Value))
  | .null => .ok []
  | .obj members => .ok members
  | _ => .error "cannot access key in JSON value"

def mergePublishers (incoming : Value) (members : List (String × Value)) :
    CliResult (List (String × Value)) := do
  let basePubs ← orBail "trust policy missing 'publishers' array"
    ((Value.lookup "publishers" members).bind Value.asArray)
  let incomingPubs := ((incoming.get "publishers").bind Value.asArray).getD []
  .ok (Value.insertMember "publishers"
    (.arr (incomingPubs.foldl (fun pubs pub => upsertPublisher pub pubs) basePubs)) members)

def mergeRevoked (incoming : Value) (members : List (String × Value)) :
    CliResult (List (String × Value)) :=
  match (incoming.get "revoked_publishers").bind Value.asArray with
  | none => .ok members
  | some incomingRevoked => do
    let baseRevoked ← orBail "trust policy 'revoked_publishers' is not an array"
      ((Value.lookup "revoked_publishers" members).getD (.arr [])).asArray
    .ok (Value.insertMember "revoked_publishers"
      (.arr (incomingRevoked.foldl addRevoked baseRevoked)) members)

def mergePinned (incoming : Value) (members : List (String × Value)) :
    CliResult (List (String × Value)) :=
  match (incoming.get "pinned_plugin_publishers").bind Value.asObject with
  | none => .ok members
  | some incomingPinned => do
    let basePinned ← orBail "trust policy 'pinned_plugin_publishers' is not an object"
      ((Value.lookup "pinned_plugin_publishers" members).getD (.obj [])).asObject
    .ok (Value.insertMember "pinned_plugin_publishers"
      (.obj (incomingPinned.foldl (fun pins pin => Value.insertMember pin.1 pin.2 pins) basePinned))
      members)

def mergePolicies (base incoming : Value) : CliResult Value := do
  let members ← indexMut base
  let members := Value.insertMember "require_signature"
    (.bool (strictOf base && strictOf incoming)) members
  let members ← mergePublishers incoming members
  let members ← mergeRevoked incoming members
  let members ← mergePinned incoming members
  .ok (.obj members)

def localPolicy (parseJson : List UInt8 → Except String Value) (trustPath : String) :
    TrustFile → CliResult Value
  | .missing =>
    .ok (Value.object [("require_signature", .bool false), ("publishers", .arr [])])
  | .unreadable _ => .error s!"failed to read {trustPath}"
  | .present bytes => withContext s!"failed to parse {trustPath}" (parseJson bytes)

/-- `merge_trust_policy`, with the downloaded policy. The result is written to the file. -/
def mergeTrustPolicy (parseJson : List UInt8 → Except String Value) (trustPath : String)
    (trust : TrustFile) (incoming : Value) : CliResult Value := do
  let base ← localPolicy parseJson trustPath trust
  mergePolicies base incoming

/-! ### The policies that the loader reads -/

/-- A policy file as the array of its fields. A field that is missing has its default. -/
def policyFileOfItems (items : List Value) : Option PublisherTrustPolicyFile := do
  let requireSignature ← optionalBool (items[0]?.getD .null)
  let publishers ← (items[1]?.getD (Value.arr [])).asArray.bind (List.mapM entryOfValue)
  let revoked ← (items[2]?.getD (Value.arr [])).asArray.bind (List.mapM Value.asStr)
  let pinned ← (items[3]?.getD (Value.obj [])).asObject.bind
    (List.mapM fun pin => pin.2.asStr.map (pin.1, ·))
  some ⟨requireSignature, publishers, revoked, pinned⟩

def fileOfValue : Value → Option PublisherTrustPolicyFile
  | .arr items => if items.length ≤ 4 then policyFileOfItems items else none
  | value => policyFileOfValue value

def Reads (library : SignatureLibrary κ ς) (value : Value) (policy : PublisherTrustPolicy κ) :
    Prop :=
  ∃ file pins, fileOfValue value = some file ∧ pins.Perm file.pinnedPluginPublishers ∧
    PublisherTrustPolicy.ofFile library { file with pinnedPluginPublishers := pins } = .ok policy

/-! ### What the merge keeps -/

/-- The downloaded policy has an entry for the publisher. An entry without an id counts as one
with a blank id. -/
def NamesPublisher (incoming : Value) (publisher : String) : Prop :=
  ∃ pubs pub, (incoming.get "publishers").bind Value.asArray = some pubs ∧ pub ∈ pubs ∧
    (publisherId pub = publisher ∨ ∃ entry, entryOfValue pub = some entry ∧ entry.id = publisher)

def NamesPlugin (incoming : Value) (pluginId : String) : Prop :=
  ∃ pins pin, (incoming.get "pinned_plugin_publishers").bind Value.asObject = some pins ∧
    pin ∈ pins ∧ trim pin.1 = pluginId

def SignatureHolds (library : SignatureLibrary κ ς) (policy : PublisherTrustPolicy κ)
    (manifest : InstalledPluginPackageManifest) (manifestBytes : List UInt8)
    (signatureFile : SignatureFile) : Prop :=
  policy.requireSignature = false ∧ signatureFile = .missing ∨
    PublisherTrustPolicy.UnsignedLocal manifest signatureFile ∧
      PublisherTrustPolicy.NotTrusted policy manifest ∨
    PublisherTrustPolicy.Signed library policy manifest manifestBytes signatureFile

/-- What the policy `after` keeps of the policy `before` when a policy is merged in: all revoked
publishers, and the pins, the keys and the required signature that it leaves alone. -/
structure Keeps (library : SignatureLibrary κ ς) (incoming : Value)
    (before after : PublisherTrustPolicy κ) : Prop where
  revoked : before.revokedPublishers ⊆ after.revokedPublishers
  requires : strictOf incoming = true → after.requireSignature = before.requireSignature
  pinned : ∀ pluginId, ¬ NamesPlugin incoming pluginId →
    after.pinnedPluginPublishers pluginId = before.pinnedPluginPublishers pluginId
  trusted : ∀ publisher, ¬ NamesPublisher incoming publisher →
    after.trustedPublishers publisher = before.trustedPublishers publisher
  verdict : ∀ manifest manifestBytes signatureFile,
    after.verifyManifestSignature library manifest manifestBytes signatureFile = .ok () →
      PublisherTrustPolicy.NotRevoked before manifest ∧
      (¬ NamesPlugin incoming manifest.id → PublisherTrustPolicy.PinHolds before manifest) ∧
      (strictOf incoming = true →
        (∀ publisher, manifest.publisher = some publisher →
          ¬ NamesPublisher incoming publisher) →
        SignatureHolds library before manifest manifestBytes signatureFile)

/-! ### What the loader reads -/

section Reading

open PublisherTrustPolicy

variable {library : SignatureLibrary κ ς} {policy read : PublisherTrustPolicy κ}

theorem withPublisherKey_eq_ok {publisherId keyBase64 : String} :
    policy.withPublisherKey library publisherId keyBase64 = .ok read ↔
      ∃ key, parsePublicKey library keyBase64 = .ok key ∧
        policy.insertTrusted publisherId key = read := by
  rw [PublisherTrustPolicy.withPublisherKey]
  cases parsePublicKey library keyBase64 with
  | error err => exact ⟨nofun, nofun⟩
  | ok key =>
    constructor
    · intro made
      exact ⟨key, rfl, Except.ok.inj made⟩
    · rintro ⟨_, same, rfl⟩
      rw [← Except.ok.inj same]
      rfl

theorem requires_revokeEntry (revoked : String) :
    (policy.revokeEntry revoked).requireSignature = policy.requireSignature := by
  unfold revokeEntry
  split
  · rfl
  · rfl

theorem requires_pinEntry (pin : String × String) :
    (policy.pinEntry pin).requireSignature = policy.requireSignature := by
  unfold pinEntry
  by_cases blank : trim pin.1 = "" ∨ trim pin.2 = ""
  · rw [if_pos blank]
  · rw [if_neg blank, requireSignature_withPinnedPluginPublisher]

theorem revoked_pinEntry (pin : String × String) :
    (policy.pinEntry pin).revokedPublishers = policy.revokedPublishers := by
  unfold pinEntry
  by_cases blank : trim pin.1 = "" ∨ trim pin.2 = ""
  · rw [if_pos blank]
  · rw [if_neg blank, revokedPublishers_withPinnedPluginPublisher]

theorem pinned_revokeEntry (revoked : String) :
    (policy.revokeEntry revoked).pinnedPluginPublishers = policy.pinnedPluginPublishers := by
  unfold revokeEntry
  split
  · rfl
  · rfl

theorem field_foldl {β γ : Type} {field : PublisherTrustPolicy κ → γ}
    {step : PublisherTrustPolicy κ → β → PublisherTrustPolicy κ}
    (keeps : ∀ policy entry, field (step policy entry) = field policy) (entries : List β) :
    field (entries.foldl step policy) = field policy := by
  induction entries generalizing policy with
  | nil => rfl
  | cons entry rest ih => exact ih.trans (keeps policy entry)

theorem kept_foldlM {entries : List TrustedPublisherEntry}
    (reads : entries.foldlM
      (fun policy entry => policy.withPublisherKey library entry.id entry.ed25519PublicKey) policy =
        .ok read) :
    read.requireSignature = policy.requireSignature ∧
      read.revokedPublishers = policy.revokedPublishers ∧
        read.pinnedPluginPublishers = policy.pinnedPluginPublishers := by
  induction entries generalizing policy with
  | nil =>
    cases reads
    exact ⟨rfl, rfl, rfl⟩
  | cons entry rest ih =>
    rw [List.foldlM_cons] at reads
    obtain ⟨next, parsed, reads⟩ := bind_eq_ok.mp reads
    obtain ⟨key, _, rfl⟩ := withPublisherKey_eq_ok.mp parsed
    exact @ih (policy.insertTrusted entry.id key) reads

theorem trusted_eq_of_foldlM {publisher : String} {entries : List TrustedPublisherEntry}
    (reads : entries.foldlM
      (fun policy entry => policy.withPublisherKey library entry.id entry.ed25519PublicKey) policy =
        .ok read) :
    read.trustedPublishers publisher =
      match (entries.filter fun entry => entry.id = publisher).getLast? with
      | some entry => (parsePublicKey library entry.ed25519PublicKey).toOption
      | none => policy.trustedPublishers publisher := by
  induction entries using List.reverseRecOn generalizing read with
  | nil =>
    cases reads
    rfl
  | append_singleton rest entry ih =>
    simp only [List.foldlM_append, List.foldlM_cons, List.foldlM_nil, bind_pure] at reads
    obtain ⟨before, readsRest, parsed⟩ := bind_eq_ok.mp reads
    obtain ⟨key, parses, trusted⟩ := trusted_withPublisherKey parsed
    rw [trusted, List.filter_append]
    by_cases here : entry.id = publisher
    · simp [here, parses, Except.toOption]
    · rw [Function.update_of_ne (Ne.symm here), ih readsRest]
      simp [here]

def PinsPlugin (pluginId : String) (pin : String × String) : Bool :=
  trim pin.1 = pluginId ∧ trim pin.1 ≠ "" ∧ trim pin.2 ≠ ""

theorem pinned_foldl (pluginId : String) (pins : List (String × String)) :
    (pins.foldl pinEntry policy).pinnedPluginPublishers pluginId =
      match (pins.filter (PinsPlugin pluginId)).getLast? with
      | some pin => some (trim pin.2)
      | none => policy.pinnedPluginPublishers pluginId := by
  induction pins using List.reverseRecOn with
  | nil => rfl
  | append_singleton rest pin ih =>
    rw [List.foldl_append, List.filter_append, List.foldl_cons, List.foldl_nil, pinEntry]
    by_cases blank : trim pin.1 = "" ∨ trim pin.2 = ""
    · have other : PinsPlugin pluginId pin = false := by
        rcases blank with blank | blank <;> simp [PinsPlugin, blank]
      rw [if_pos blank, ih]
      simp [other]
    · rw [if_neg blank]
      push Not at blank
      by_cases here : trim pin.1 = pluginId
      · have chosen : PinsPlugin pluginId pin = true := by simp [PinsPlugin, ← here, blank]
        subst here
        simp [withPinnedPluginPublisher, chosen]
      · have other : PinsPlugin pluginId pin = false := by simp [PinsPlugin, here]
        rw [withPinnedPluginPublisher]
        simp only
        rw [Function.update_of_ne (Ne.symm here), ih]
        simp [other]

theorem mem_revoked_foldl {publisher : String} (entries : List String) :
    publisher ∈ (entries.foldl revokeEntry policy).revokedPublishers ↔
      publisher ∈ policy.revokedPublishers ∨
        ∃ entry ∈ entries, trim entry = publisher ∧ publisher ≠ "" := by
  induction entries generalizing policy with
  | nil => simp
  | cons entry rest ih =>
    rw [List.foldl_cons, ih, revokeEntry]
    by_cases blank : trim entry = ""
    · rw [if_pos blank]
      constructor
      · rintro (before | ⟨other, member, same, filled⟩)
        · exact .inl before
        · exact .inr ⟨other, List.mem_cons_of_mem _ member, same, filled⟩
      · rintro (before | ⟨other, member, same, filled⟩)
        · exact .inl before
        · rcases List.mem_cons.mp member with rfl | later
          · exact absurd (same.symm.trans blank) filled
          · exact .inr ⟨other, later, same, filled⟩
    · rw [if_neg blank]
      simp only [withRevokedPublisher, Finset.mem_insert, List.exists_mem_cons_iff]
      constructor
      · rintro ((rfl | before) | later)
        · exact .inr (.inl ⟨rfl, blank⟩)
        · exact .inl before
        · exact .inr (.inr later)
      · rintro (before | ⟨rfl, -⟩ | later)
        · exact .inl (.inr before)
        · exact .inl (.inl rfl)
        · exact .inr later

structure ReadOf (library : SignatureLibrary κ ς) (file : PublisherTrustPolicyFile)
    (policy : PublisherTrustPolicy κ) : Prop where
  requires : policy.requireSignature = file.requireSignature.getD true
  trusted : ∀ publisher, policy.trustedPublishers publisher =
    match (file.publishers.filter fun entry => entry.id = publisher).getLast? with
    | some entry => (parsePublicKey library entry.ed25519PublicKey).toOption
    | none => none
  revoked : ∀ publisher, publisher ∈ policy.revokedPublishers ↔
    ∃ entry ∈ file.revokedPublishers, trim entry = publisher ∧ publisher ≠ ""
  pinned : ∀ pluginId, policy.pinnedPluginPublishers pluginId =
    (file.pinnedPluginPublishers.filter (PinsPlugin pluginId)).getLast?.map fun pin => trim pin.2

theorem readOf_ofFile {file : PublisherTrustPolicyFile}
    (reads : ofFile library file = .ok policy) : ReadOf library file policy := by
  obtain ⟨keyed, keys, rest⟩ := bind_eq_ok.mp reads
  obtain rfl := pure_eq_ok.mp rest
  obtain ⟨requires, revoked, pinned⟩ := kept_foldlM keys
  refine ⟨?_, fun publisher => ?_, fun publisher => ?_, fun pluginId => ?_⟩
  · exact (field_foldl (fun _ => requires_pinEntry) _).trans
      ((field_foldl (fun _ => requires_revokeEntry) _).trans requires)
  · rw [trusted_foldl fun _ => trusted_pinEntry, trusted_foldl fun _ => trusted_revokeEntry]
    exact trusted_eq_of_foldlM keys
  · rw [field_foldl (fun _ => revoked_pinEntry), mem_revoked_foldl, revoked]
    simp [PublisherTrustPolicy.default, withSignatureRequirement]
  · rw [pinned_foldl, field_foldl (fun _ => pinned_revokeEntry), pinned]
    cases (file.pinnedPluginPublishers.filter (PinsPlugin pluginId)).getLast? <;> rfl

end Reading

/-! ### What the merge writes -/

section Writing

variable {incoming base merged : Value} {members next : List (String × Value)}

def arrayField (key : String) (members : List (String × Value)) : Option (List Value) :=
  ((Value.lookup key members).getD (.arr [])).asArray

def objectField (key : String) (members : List (String × Value)) : Option (List (String × Value)) :=
  ((Value.lookup key members).getD (.obj [])).asObject

def incomingItems (key : String) (incoming : Value) : List Value :=
  ((incoming.get key).bind Value.asArray).getD []

def incomingPins (incoming : Value) : List (String × Value) :=
  ((incoming.get "pinned_plugin_publishers").bind Value.asObject).getD []

theorem mergePublishers_eq_ok (merges : mergePublishers incoming members = .ok next) :
    arrayField "publishers" next = (arrayField "publishers" members).map
        ((incomingItems "publishers" incoming).foldl fun pubs pub => upsertPublisher pub pubs) ∧
      ∀ key ≠ "publishers", Value.lookup key next = Value.lookup key members := by
  obtain ⟨basePubs, listed, made⟩ := bind_eq_ok.mp merges
  obtain ⟨_, found, listed⟩ := Option.bind_eq_some_iff.mp (orBail_eq_ok.mp listed)
  obtain rfl := Except.ok.inj made
  refine ⟨?_, fun key other => Value.lookup_insertMember_of_ne _ _ other⟩
  rw [arrayField, arrayField, Value.lookup_insertMember_self, found]
  simp only [Option.getD_some, listed]
  rfl

theorem mergeRevoked_eq_ok (merges : mergeRevoked incoming members = .ok next) :
    arrayField "revoked_publishers" next = (arrayField "revoked_publishers" members).map
        ((incomingItems "revoked_publishers" incoming).foldl addRevoked) ∧
      ∀ key ≠ "revoked_publishers", Value.lookup key next = Value.lookup key members := by
  rw [mergeRevoked] at merges
  rw [incomingItems]
  cases listed : (incoming.get "revoked_publishers").bind Value.asArray with
  | none =>
    rw [listed] at merges
    obtain rfl := Except.ok.inj merges
    exact ⟨Option.map_id'.symm, fun _ _ => rfl⟩
  | some items =>
    rw [listed] at merges
    obtain ⟨baseRevoked, found, made⟩ := bind_eq_ok.mp merges
    obtain rfl := Except.ok.inj made
    refine ⟨?_, fun key other => Value.lookup_insertMember_of_ne _ _ other⟩
    rw [arrayField, arrayField, Value.lookup_insertMember_self, orBail_eq_ok.mp found]
    rfl

theorem mergePinned_eq_ok (merges : mergePinned incoming members = .ok next) :
    objectField "pinned_plugin_publishers" next =
        (objectField "pinned_plugin_publishers" members).map
          ((incomingPins incoming).foldl fun pins pin => Value.insertMember pin.1 pin.2 pins) ∧
      ∀ key ≠ "pinned_plugin_publishers", Value.lookup key next = Value.lookup key members := by
  rw [mergePinned] at merges
  rw [incomingPins]
  cases listed : (incoming.get "pinned_plugin_publishers").bind Value.asObject with
  | none =>
    rw [listed] at merges
    obtain rfl := Except.ok.inj merges
    exact ⟨Option.map_id'.symm, fun _ _ => rfl⟩
  | some pins =>
    rw [listed] at merges
    obtain ⟨basePinned, found, made⟩ := bind_eq_ok.mp merges
    obtain rfl := Except.ok.inj made
    refine ⟨?_, fun key other => Value.lookup_insertMember_of_ne _ _ other⟩
    rw [objectField, objectField, Value.lookup_insertMember_self, orBail_eq_ok.mp found]
    rfl

theorem mergePolicies_eq_ok (merges : mergePolicies base incoming = .ok merged) :
    ∃ members result, base = .obj members ∧ merged = .obj result ∧
      Value.lookup "require_signature" result =
        some (.bool (strictOf base && strictOf incoming)) ∧
      arrayField "publishers" result = (arrayField "publishers" members).map
        ((incomingItems "publishers" incoming).foldl fun pubs pub => upsertPublisher pub pubs) ∧
      arrayField "revoked_publishers" result = (arrayField "revoked_publishers" members).map
        ((incomingItems "revoked_publishers" incoming).foldl addRevoked) ∧
      objectField "pinned_plugin_publishers" result =
        (objectField "pinned_plugin_publishers" members).map
          ((incomingPins incoming).foldl fun pins pin => Value.insertMember pin.1 pin.2 pins) := by
  obtain ⟨members, isObject, merges⟩ := bind_eq_ok.mp merges
  obtain ⟨published, publishes, merges⟩ := bind_eq_ok.mp merges
  obtain ⟨revoked, revokes, merges⟩ := bind_eq_ok.mp merges
  obtain ⟨result, pins, made⟩ := bind_eq_ok.mp merges
  have isBase : base = .obj members := by
    cases base with
    | obj _ => rw [Except.ok.inj isObject]
    | null =>
      obtain rfl := Except.ok.inj isObject
      obtain ⟨_, listed, _⟩ := bind_eq_ok.mp publishes
      cases orBail_eq_ok.mp listed
    | bool _ | num _ | str _ | arr _ => cases isObject
  obtain ⟨publishers, publishersOnly⟩ := mergePublishers_eq_ok publishes
  obtain ⟨revocations, revocationsOnly⟩ := mergeRevoked_eq_ok revokes
  obtain ⟨pinned, pinnedOnly⟩ := mergePinned_eq_ok pins
  refine ⟨members, result, isBase, (Except.ok.inj made).symm, ?_, ?_, ?_, ?_⟩
  · rw [pinnedOnly _ (by decide), revocationsOnly _ (by decide), publishersOnly _ (by decide),
      Value.lookup_insertMember_self]
  · rw [arrayField, pinnedOnly _ (by decide), revocationsOnly _ (by decide)]
    refine publishers.trans ?_
    rw [arrayField, Value.lookup_insertMember_of_ne _ _ (by decide)]
    rfl
  · rw [arrayField, pinnedOnly _ (by decide)]
    refine revocations.trans ?_
    rw [arrayField, publishersOnly _ (by decide), Value.lookup_insertMember_of_ne _ _ (by decide)]
    rfl
  · refine pinned.trans ?_
    rw [objectField, revocationsOnly _ (by decide), publishersOnly _ (by decide),
      Value.lookup_insertMember_of_ne _ _ (by decide)]
    rfl

def ReadsAs (publisher : String) (pub : Value) : Bool :=
  (entryOfValue pub).any fun entry => entry.id = publisher

theorem readsAs_of_stringAt {publisher id : String} {entry : Value}
    (named : stringAt "id" entry = some id) (other : id ≠ publisher) :
    ReadsAs publisher entry = false := by
  cases entry with
  | obj members =>
    cases key : stringAt "ed25519_public_key" (.obj members) with
    | none => simp [ReadsAs, entryOfValue, named, key]
    | some key' => simpa [ReadsAs, entryOfValue, named, key] using other
  | null | bool _ | num _ | str _ | arr _ => cases named

theorem filter_upsertPublisher {publisher : String} {pub : Value}
    (other : publisherId pub ≠ publisher) (unread : ReadsAs publisher pub = false)
    (entries : List Value) :
    (upsertPublisher pub entries).filter (ReadsAs publisher) =
      entries.filter (ReadsAs publisher) := by
  induction entries with
  | nil => simp [upsertPublisher, unread]
  | cons entry rest ih =>
    rw [upsertPublisher]
    by_cases same : stringAt "id" entry = some (publisherId pub)
    · rw [if_pos same, List.filter_cons_of_neg (by simp [unread]),
        List.filter_cons_of_neg (by simp [readsAs_of_stringAt same other])]
    · rw [if_neg same, List.filter_cons, List.filter_cons, ih]

theorem filter_foldl_upsertPublisher {publisher : String} {pubs : List Value}
    (others : ∀ pub ∈ pubs, publisherId pub ≠ publisher ∧ ReadsAs publisher pub = false)
    (entries : List Value) :
    (pubs.foldl (fun entries pub => upsertPublisher pub entries) entries).filter
        (ReadsAs publisher) = entries.filter (ReadsAs publisher) := by
  induction pubs generalizing entries with
  | nil => rfl
  | cons pub rest ih =>
    obtain ⟨other, unread⟩ := others pub List.mem_cons_self
    rw [List.foldl_cons, ih fun pub member => others pub (List.mem_cons_of_mem _ member),
      filter_upsertPublisher other unread]

theorem filter_insertMember {chosen : String → Bool} {key : String} (value : Value)
    (other : chosen key = false) (pins : List (String × Value)) :
    (Value.insertMember key value pins).filter (fun pin => chosen pin.1) =
      pins.filter fun pin => chosen pin.1 := by
  induction pins with
  | nil => simp [Value.insertMember, other]
  | cons pin rest ih =>
    obtain ⟨k, v⟩ := pin
    rw [Value.insertMember]
    by_cases same : key = k
    · subst same
      simp [other]
    · rw [if_neg same]
      by_cases before : key < k
      · rw [if_pos before, List.filter_cons_of_neg (by simp [other])]
      · rw [if_neg before, List.filter_cons, List.filter_cons, ih]

theorem filter_foldl_insertMember {chosen : String → Bool} {pins : List (String × Value)}
    (others : ∀ pin ∈ pins, chosen pin.1 = false) (members : List (String × Value)) :
    (pins.foldl (fun members pin => Value.insertMember pin.1 pin.2 members) members).filter
        (fun pin => chosen pin.1) = members.filter fun pin => chosen pin.1 := by
  induction pins generalizing members with
  | nil => rfl
  | cons pin rest ih =>
    rw [List.foldl_cons, ih fun pin member => others pin (List.mem_cons_of_mem _ member),
      filter_insertMember _ (others pin List.mem_cons_self)]

theorem mem_foldl_addRevoked {item : Value} {items revoked : List Value} (member : item ∈ revoked) :
    item ∈ items.foldl addRevoked revoked := by
  induction items generalizing revoked with
  | nil => exact member
  | cons other rest ih =>
    apply ih
    rw [addRevoked]
    split
    · exact member
    · exact List.mem_append_left _ member

end Writing

/-! ### The law of the merge -/

section Law

open PublisherTrustPolicy

variable {library : SignatureLibrary κ ς} {policy before after : PublisherTrustPolicy κ}
  {incoming base merged : Value}

/-- When a package is accepted, with and without required signatures. -/
theorem verify_eq_ok_iff {manifest : InstalledPluginPackageManifest} {manifestBytes : List UInt8}
    {signatureFile : SignatureFile} :
    policy.verifyManifestSignature library manifest manifestBytes signatureFile = .ok () ↔
      PinHolds policy manifest ∧ NotRevoked policy manifest ∧
        SignatureHolds library policy manifest manifestBytes signatureFile := by
  cases requires : policy.requireSignature with
  | true =>
    rw [verifyManifestSignature_eq_ok requires, SignatureHolds, requires]
    simp
  | false =>
    simp only [verifyManifestSignature, bind_unit_eq_ok, checkPinned_eq_ok, checkRevoked_eq_ok,
      SignatureHolds, requires, true_and]
    refine and_congr_right fun _ => and_congr_right fun _ => ?_
    by_cases missing : signatureFile = .missing
    · rw [if_pos missing]
      exact iff_of_true rfl (.inl missing)
    · rw [if_neg missing, if_neg fun both => missing both.2, checkSigned_eq_ok]
      constructor
      · exact fun signed => .inr (.inr signed)
      · rintro (gone | ⟨unsigned, _⟩ | signed)
        · exact absurd gone missing
        · exact absurd unsigned.2 missing
        · exact signed

theorem optionalField_eq_some {α : Type} {key : String} {read : Value → Option α} {missing : α}
    {default : Value} {members : List (String × Value)} {found : α}
    (reads : optionalField key read missing (.obj members) = some found)
    (defaults : read default = some missing) :
    read ((Value.lookup key members).getD default) = some found := by
  rw [optionalField, Value.get] at reads
  cases listed : Value.lookup key members with
  | none =>
    rw [listed] at reads
    exact defaults.trans reads
  | some value =>
    rw [listed] at reads
    exact reads

theorem fileOfValue_obj {members : List (String × Value)} {file : PublisherTrustPolicyFile}
    (reads : fileOfValue (.obj members) = some file) :
    file.requireSignature.getD true = strictOf (.obj members) ∧
      (∃ pubs, arrayField "publishers" members = some pubs ∧
        pubs.mapM entryOfValue = some file.publishers) ∧
      (∃ revoked, arrayField "revoked_publishers" members = some revoked ∧
        revoked.mapM Value.asStr = some file.revokedPublishers) ∧
      ∃ pins, objectField "pinned_plugin_publishers" members = some pins ∧
        pins.mapM (fun pin => pin.2.asStr.map (pin.1, ·)) = some file.pinnedPluginPublishers := by
  obtain ⟨requires, readsRequires, reads⟩ := Option.bind_eq_some_iff.mp reads
  obtain ⟨publishers, readsPublishers, reads⟩ := Option.bind_eq_some_iff.mp reads
  obtain ⟨revoked, readsRevoked, reads⟩ := Option.bind_eq_some_iff.mp reads
  obtain ⟨pinned, readsPinned, reads⟩ := Option.bind_eq_some_iff.mp reads
  obtain rfl := Option.some_inj.mp reads
  have required := @optionalField_eq_some _ _ _ _ .null _ _ readsRequires rfl
  refine ⟨?_, Option.bind_eq_some_iff.mp (optionalField_eq_some readsPublishers rfl),
    Option.bind_eq_some_iff.mp (optionalField_eq_some readsRevoked rfl),
    Option.bind_eq_some_iff.mp (optionalField_eq_some readsPinned rfl)⟩
  rw [strictOf, Value.get]
  cases found : Value.lookup "require_signature" members with
  | none =>
    rw [found] at required
    obtain rfl := Option.some_inj.mp required
    rfl
  | some value =>
    rw [found, Option.getD_some] at required
    cases value with
    | null =>
      obtain rfl := Option.some_inj.mp required
      rfl
    | bool b =>
      obtain rfl := Option.some_inj.mp required
      rfl
    | num _ | str _ | arr _ | obj _ => cases required

theorem not_named {publisher : String} (unnamed : ¬ NamesPublisher incoming publisher) :
    ∀ pub ∈ incomingItems "publishers" incoming,
      publisherId pub ≠ publisher ∧ ReadsAs publisher pub = false := by
  intro pub member
  rw [incomingItems] at member
  cases listed : (incoming.get "publishers").bind Value.asArray with
  | none =>
    rw [listed] at member
    cases member
  | some pubs =>
    rw [listed] at member
    refine ⟨fun same => unnamed ⟨pubs, pub, listed, member, .inl same⟩, ?_⟩
    cases read : entryOfValue pub with
    | none => rw [ReadsAs, read, Option.any_none]
    | some entry =>
      rw [ReadsAs, read, Option.any_some, decide_eq_false_iff_not]
      exact fun same => unnamed ⟨pubs, pub, listed, member, .inr ⟨entry, read, same⟩⟩

def Unnamed (incoming : Value) (key : String) : Bool :=
  (incomingPins incoming).all fun pin => trim pin.1 ≠ trim key

theorem unnamed_of_not_namesPlugin {key : String} (none : ¬ NamesPlugin incoming (trim key)) :
    Unnamed incoming key = true := by
  rw [Unnamed, List.all_eq_true]
  intro pin member
  rw [incomingPins] at member
  cases listed : (incoming.get "pinned_plugin_publishers").bind Value.asObject with
  | none =>
    rw [listed] at member
    cases member
  | some pins =>
    rw [listed] at member
    exact decide_eq_true fun same => none ⟨pins, pin, listed, member, same⟩

theorem perm_of_filter {β : Type} {chosen : β → Bool} {pins changed read : List β}
    (order : read.Perm changed) (same : changed.filter chosen = pins.filter chosen) :
    (read.filter chosen ++ pins.filter fun pin => !chosen pin).Perm pins :=
  ((order.filter chosen).append_right _).trans
    (same ▸ List.filter_append_perm chosen pins)

theorem getLast_filter_pinsPlugin {pluginId : String} (none : ¬ NamesPlugin incoming pluginId)
    (read pins : List (String × String)) :
    (((read.filter fun pin => Unnamed incoming pin.1) ++
        pins.filter fun pin => !Unnamed incoming pin.1).filter (PinsPlugin pluginId)) =
      read.filter (PinsPlugin pluginId) := by
  have unnamed (pin : String × String) (chosen : PinsPlugin pluginId pin = true) :
      Unnamed incoming pin.1 = true := by
    apply unnamed_of_not_namesPlugin
    rw [PinsPlugin, decide_eq_true_eq] at chosen
    rwa [chosen.1]
  rw [List.filter_append, List.filter_filter, List.filter_filter]
  have rest : (pins.filter fun pin => PinsPlugin pluginId pin && !Unnamed incoming pin.1) = [] := by
    rw [List.filter_eq_nil_iff]
    intro pin _ both
    rw [Bool.and_eq_true, Bool.not_eq_true'] at both
    rw [unnamed pin both.1] at both
    exact Bool.noConfusion both.2
  rw [rest, List.append_nil]
  refine List.filter_congr fun pin _ => ?_
  cases chosen : PinsPlugin pluginId pin with
  | false => rfl
  | true => rw [unnamed pin chosen, Bool.true_and]

/-- The order of the pins does not decide on whether a file is read. -/
theorem ofFile_reorder {file : PublisherTrustPolicyFile} {pins : List (String × String)}
    (reads : ofFile library file = .ok policy) :
    ∃ other, ofFile library { file with pinnedPluginPublishers := pins } = .ok other := by
  obtain ⟨keyed, keys, _⟩ := bind_eq_ok.mp reads
  exact ⟨_, bind_eq_ok.mpr ⟨keyed, keys, rfl⟩⟩

theorem unnamed_incomingPins {pin : String × Value} (member : pin ∈ incomingPins incoming) :
    Unnamed incoming pin.1 = false := by
  rw [Unnamed, List.all_eq_false]
  exact ⟨pin, member, by simp⟩

theorem keeps_of_readOf {file result : PublisherTrustPolicyFile}
    {pins read : List (String × String)}
    (isBefore : ReadOf library { file with pinnedPluginPublishers := pins } before)
    (isAfter : ReadOf library { result with pinnedPluginPublishers := read } after)
    (requires : result.requireSignature.getD true =
      (file.requireSignature.getD true && strictOf incoming))
    (revoked : ∀ entry ∈ file.revokedPublishers, entry ∈ result.revokedPublishers)
    (publishers : ∀ publisher, ¬ NamesPublisher incoming publisher →
      (result.publishers.filter fun entry => entry.id = publisher) =
        file.publishers.filter fun entry => entry.id = publisher)
    (pinned : ∀ pluginId, ¬ NamesPlugin incoming pluginId →
      pins.filter (PinsPlugin pluginId) = read.filter (PinsPlugin pluginId)) :
    Keeps library incoming before after := by
  have keepsRevoked : before.revokedPublishers ⊆ after.revokedPublishers := by
    intro publisher member
    obtain ⟨entry, listed, same⟩ := (isBefore.revoked publisher).mp member
    exact (isAfter.revoked publisher).mpr ⟨entry, revoked entry listed, same⟩
  have keepsRequired (strict : strictOf incoming = true) :
      after.requireSignature = before.requireSignature := by
    rw [isAfter.requires, isBefore.requires]
    simpa [strict] using requires
  have keepsPinned (pluginId : String) (unnamed : ¬ NamesPlugin incoming pluginId) :
      after.pinnedPluginPublishers pluginId = before.pinnedPluginPublishers pluginId := by
    rw [isAfter.pinned, isBefore.pinned, pinned pluginId unnamed]
  have keepsTrusted (publisher : String) (unnamed : ¬ NamesPublisher incoming publisher) :
      after.trustedPublishers publisher = before.trustedPublishers publisher := by
    rw [isAfter.trusted, isBefore.trusted]
    simp only [publishers publisher unnamed]
  refine ⟨keepsRevoked, keepsRequired, keepsPinned, keepsTrusted,
    fun manifest manifestBytes signatureFile accepted => ?_⟩
  obtain ⟨pinHolds, notRevoked, signature⟩ := verify_eq_ok_iff.mp accepted
  refine ⟨fun publisher named member => notRevoked publisher named (keepsRevoked member), ?_, ?_⟩
  · intro unnamed publisher expected
    exact pinHolds publisher ((keepsPinned manifest.id unnamed).trans expected)
  · intro strict unnamed
    rcases signature with ⟨free, missing⟩ | ⟨unsigned, untrusted⟩ |
      ⟨publisher, verifier, text, bytes, signature, named, trusted, rest⟩
    · exact .inl ⟨(keepsRequired strict).symm.trans free, missing⟩
    · refine .inr (.inl ⟨unsigned, fun publisher named => ?_⟩)
      rw [← keepsTrusted publisher (unnamed publisher named)]
      exact untrusted publisher named
    · refine .inr (.inr ⟨publisher, verifier, text, bytes, signature, named, ?_, rest⟩)
      rw [← keepsTrusted publisher (unnamed publisher named)]
      exact trusted

end Law

/-- **The merge keeps what the downloaded policy does not name.** However the merged policy is
read, the local one can be read so that all its revocations are kept, and the pins and the keys
that the downloaded policy does not name, and the required signature if the downloaded policy
requires one too. No package that the local policy rejects for one of these is accepted. -/
theorem keeps_of_merge (library : SignatureLibrary κ ς)
    (parseJson : List UInt8 → Except String Value) (trustPath : String) (trust : TrustFile)
    (base incoming merged : Value) (first after : PublisherTrustPolicy κ)
    (isLocal : localPolicy parseJson trustPath trust = .ok base)
    (accepted : Reads library base first)
    (merges : mergeTrustPolicy parseJson trustPath trust incoming = .ok merged)
    (reads : Reads library merged after) :
    ∃ before, Reads library base before ∧ Keeps library incoming before after := by
  obtain ⟨_, found, merges⟩ := bind_eq_ok.mp merges
  obtain rfl := Except.ok.inj (isLocal.symm.trans found)
  obtain ⟨members, result, rfl, rfl, requires, publishers, revoked, pinned⟩ :=
    mergePolicies_eq_ok merges
  obtain ⟨file, firstPins, readsFile, _, readsFirst⟩ := accepted
  obtain ⟨merged, pins, readsMerged, order, readsAfter⟩ := reads
  obtain ⟨fileRequires, ⟨pubs, isPubs, readsPubs⟩, ⟨revocations, isRevoked, readsRevoked⟩,
    basePins, isPins, readsPins⟩ := fileOfValue_obj readsFile
  obtain ⟨mergedRequires, ⟨newPubs, areNewPubs, readsNewPubs⟩,
    ⟨newRevoked, areNewRevoked, readsNewRevoked⟩, newPins, areNewPins, readsNewPins⟩ :=
      fileOfValue_obj readsMerged
  rw [isPubs, areNewPubs, Option.map_some, Option.some_inj] at publishers
  rw [isRevoked, areNewRevoked, Option.map_some, Option.some_inj] at revoked
  rw [isPins, areNewPins, Option.map_some, Option.some_inj] at pinned
  have samePins : newPins.filter (fun pin => Unnamed incoming pin.1) =
      basePins.filter fun pin => Unnamed incoming pin.1 :=
    pinned ▸ filter_foldl_insertMember (fun pin => unnamed_incomingPins) basePins
  have keepsKey (pin : String × Value) (read : String × String)
      (reads : pin.2.asStr.map (pin.1, ·) = some read) :
      Unnamed incoming read.1 = Unnamed incoming pin.1 := by
    obtain ⟨publisher, _, rfl⟩ := Option.map_eq_some_iff.mp reads
    rfl
  have unnamedPins : (merged.pinnedPluginPublishers.filter fun pin => Unnamed incoming pin.1) =
      file.pinnedPluginPublishers.filter fun pin => Unnamed incoming pin.1 := by
    have readsNew := mapM_filter keepsKey readsNewPins
    rw [samePins, mapM_filter keepsKey readsPins] at readsNew
    exact (Option.some_inj.mp readsNew).symm
  -- The pins of the local policy are read in the order in which the merged ones are.
  obtain ⟨before, readsBefore⟩ := @ofFile_reorder _ _ _ _ _
    (pins.filter (fun pin => Unnamed incoming pin.1) ++
      file.pinnedPluginPublishers.filter fun pin => !Unnamed incoming pin.1) readsFirst
  refine ⟨before, ⟨file, _, readsFile, perm_of_filter order unnamedPins, readsBefore⟩, ?_⟩
  refine keeps_of_readOf (readOf_ofFile readsBefore) (readOf_ofFile readsAfter) ?_ ?_ ?_
    fun pluginId unnamed => getLast_filter_pinsPlugin unnamed pins _
  · rw [mergedRequires, fileRequires, strictOf, Value.get, requires]
    rfl
  · intro entry listed
    obtain ⟨item, member, reads⟩ := mem_of_mem_mapM readsRevoked listed
    refine mem_mapM_of_mem readsNewRevoked ?_ reads
    rw [revoked]
    exact mem_foldl_addRevoked member
  · intro publisher unnamed
    have keepsId (pub : Value) (entry : TrustedPublisherEntry)
        (reads : entryOfValue pub = some entry) :
        decide (entry.id = publisher) = ReadsAs publisher pub := by
      rw [ReadsAs, reads, Option.any_some]
    have readsNew := mapM_filter keepsId readsNewPubs
    rw [publishers, filter_foldl_upsertPublisher (not_named unnamed),
      mapM_filter keepsId readsPubs] at readsNew
    exact (Option.some_inj.mp readsNew).symm

/-! ### A downloaded policy that replaces a pin -/

def OnEveryMerge (library : SignatureLibrary κ ς)
    (holds : PublisherTrustPolicy κ → PublisherTrustPolicy κ → Prop) : Prop :=
  ∀ base incoming merged before theirs after, Reads library base before →
    Reads library incoming theirs → mergePolicies base incoming = .ok merged →
      Reads library merged after → holds before after

theorem exists_reads {library : SignatureLibrary κ ς} {value : Value}
    {file : PublisherTrustPolicyFile} (reads : fileOfValue value = some file)
    (isOk : (PublisherTrustPolicy.ofFile library file).isOk = true) :
    ∃ policy, Reads library value policy ∧ ReadOf library file policy := by
  cases readsFile : PublisherTrustPolicy.ofFile library file with
  | error err =>
    rw [readsFile] at isOk
    cases isOk
  | ok policy => exact ⟨policy, ⟨file, _, reads, .refl _, readsFile⟩, readOf_ofFile readsFile⟩

/-- The plugin `acme.echo` is pinned to `acme`. -/
def localTrust : Value :=
  trustValue [("acme.echo", .str "acme")] [acmeEntry (keyText 'k')] [.str "mallory"]

/-- A policy file with a pin to `other`. -/
def indexTrust (pluginId : String) (publishers : List Value) (required : Bool) : Value :=
  .obj [("pinned_plugin_publishers", .obj [(pluginId, .str "other")]),
    ("publishers", .arr publishers), ("require_signature", .bool required)]

def mergedTrust (pins : List (String × Value)) (key : String) (required : Bool) : Value :=
  .obj [("pinned_plugin_publishers", .obj pins), ("publishers", .arr [acmeEntry key]),
    ("require_signature", .bool required), ("revoked_publishers", .arr [.str "mallory"])]

def readTrust (pins : List (String × String)) (key : String) (required : Bool) :
    PublisherTrustPolicyFile :=
  ⟨some required, [⟨"acme", key⟩], ["mallory"], pins⟩

/-- A downloaded policy that requires no signatures, with a pin of the plugin and a key of the
publisher, replaces the three of the local policy. -/
theorem merge_replaces :
    ¬ OnEveryMerge tightLibrary (fun before after =>
        before.requireSignature = true → after.requireSignature = true) ∧
      ¬ OnEveryMerge tightLibrary (fun before after => ∀ pluginId publisher,
        before.pinnedPluginPublishers pluginId = some publisher →
          after.pinnedPluginPublishers pluginId = some publisher) ∧
      ¬ OnEveryMerge tightLibrary (fun before after => ∀ publisher key,
        before.trustedPublishers publisher = some key →
          after.trustedPublishers publisher = some key) := by
  obtain ⟨before, reads, isBefore⟩ := @exists_reads _ _ tightLibrary localTrust
    (readTrust [("acme.echo", "acme")] (keyText 'k') true) (by decide +kernel) (by decide +kernel)
  obtain ⟨theirs, readsTheirs, _⟩ := @exists_reads _ _ tightLibrary
    (indexTrust "acme.echo" [acmeEntry (keyText 'j')] false)
    ⟨some false, [⟨"acme", keyText 'j'⟩], [], [("acme.echo", "other")]⟩
    (by decide +kernel) (by decide +kernel)
  obtain ⟨after, readsAfter, isAfter⟩ := @exists_reads _ _ tightLibrary
    (mergedTrust [("acme.echo", .str "other")] (keyText 'j') false)
    (readTrust [("acme.echo", "other")] (keyText 'j') false)
    (by decide +kernel) (by decide +kernel)
  have merges : mergePolicies localTrust
      (indexTrust "acme.echo" [acmeEntry (keyText 'j')] false) =
        .ok (mergedTrust [("acme.echo", .str "other")] (keyText 'j') false) := by
    decide +kernel
  refine ⟨fun law => ?_, fun law => ?_, fun law => ?_⟩
  · have same := law _ _ _ before theirs after reads readsTheirs merges readsAfter
      isBefore.requires
    exact Bool.noConfusion (isAfter.requires.symm.trans same)
  · have same := law _ _ _ before theirs after reads readsTheirs merges readsAfter "acme.echo"
      "acme" ((isBefore.pinned _).trans (by decide +kernel))
    rw [isAfter.pinned] at same
    revert same
    decide +kernel
  · have same := law _ _ _ before theirs after reads readsTheirs merges readsAfter "acme"
      (keyText 'k').toUTF8.toList ((isBefore.trusted _).trans (by decide +kernel))
    rw [isAfter.trusted] at same
    revert same
    decide +kernel

/-- A pin of another plugin leaves the local one. -/
theorem other_pin_keeps : ∃ before after,
    Reads tightLibrary localTrust before ∧
      Reads tightLibrary
        (mergedTrust [("acme.echo", .str "acme"), ("acme.lint", .str "other")] (keyText 'k') true)
        after ∧
      Keeps tightLibrary (indexTrust "acme.lint" [] true) before after := by
  obtain ⟨first, reads, _⟩ := @exists_reads _ _ tightLibrary localTrust
    (readTrust [("acme.echo", "acme")] (keyText 'k') true) (by decide +kernel) (by decide +kernel)
  obtain ⟨after, readsAfter, _⟩ := @exists_reads _ _ tightLibrary
    (mergedTrust [("acme.echo", .str "acme"), ("acme.lint", .str "other")] (keyText 'k') true)
    (readTrust [("acme.echo", "acme"), ("acme.lint", "other")] (keyText 'k') true)
    (by decide +kernel) (by decide +kernel)
  obtain ⟨before, readsBefore, keeps⟩ := keeps_of_merge tightLibrary (fun _ => .ok localTrust)
    "trusted_publishers.json" trustFile localTrust (indexTrust "acme.lint" [] true)
    (mergedTrust [("acme.echo", .str "acme"), ("acme.lint", .str "other")] (keyText 'k') true)
    first after rfl reads (by decide +kernel) readsAfter
  exact ⟨before, after, readsBefore, readsAfter, keeps⟩

end KelvinClaw.Cli
